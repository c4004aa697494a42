import DreamCore.Rtl.Types

/-!
# Reorder buffer (`rob.sv`)

A ring of `ROB_SIZE` entries.  Rename receives four ids a cycle and writes the
new entries; write-back updates entries by id; commit pops from the read pointer.
The asynchronous outputs are functions of the state and of the id asked for.
-/

namespace DreamCore.Rtl

open DreamCore.Ring

structure RobState where
  rptr : Nat
  wptr : Nat
  buffer : Nat → RobItem

structure RobInput where
  renameRobData : Nat → RobItem
  renameRobDataValid : Nat → Bool
  renameRobPush : Bool
  commitRobInputId : Nat → Nat
  commitRobInputData : Nat → RobItem
  commitRobInputDataWe : Nat → Bool
  commitRobRetireId : Nat → Nat
  commitRobRetirePop : Nat → Bool
  commitRobFlush : Bool

/-- The state after reset; the entries keep whatever they held. -/
def robReset (buffer : Nat → RobItem) : RobState where
  rptr := 0
  wptr := 0
  buffer := buffer

/-! ## Pointers and grants -/

def robFull (s : RobState) : Bool :=
  decide (stage robSize s.rptr ≠ stage robSize s.wptr) &&
    decide (slot robSize s.rptr = slot robSize s.wptr)

def robEmpty (s : RobState) : Bool := decide (s.rptr = s.wptr)

def robRenameNewId (s : RobState) (i : Nat) : Nat :=
  (slot robSize s.wptr + i) % robSize

def robRenameNewIdValid (s : RobState) (i : Nat) : Bool :=
  decide (robRenameNewId s i < slot robSize s.rptr) ||
    decide (slot robSize s.wptr ≤ robRenameNewId s i)

def robNewNum (s : RobState) (input : RobInput) : Nat :=
  countOne renameWidth fun i => input.renameRobDataValid i && robRenameNewIdValid s i

def robRetireNum (input : RobInput) : Nat := countOne commitWidth input.commitRobRetirePop

def robRptrNext (s : RobState) (input : RobInput) : Nat :=
  if robEmpty s then s.rptr else (s.rptr + robRetireNum input) % (2 * robSize)

def robWptrNext (s : RobState) (input : RobInput) : Nat :=
  if robFull s then s.wptr
  else if input.renameRobPush then (s.wptr + robNewNum s input) % (2 * robSize)
  else s.wptr

/-! ## Write channels -/

def robWriteChannelAddr (s : RobState) (input : RobInput) (j : Nat) : Nat :=
  if j < renameWidth then robRenameNewId s j else input.commitRobInputId (j - renameWidth)

def robWriteChannelData (input : RobInput) (j : Nat) : RobItem :=
  if j < renameWidth then input.renameRobData j else input.commitRobInputData (j - renameWidth)

/-- The rename channels test the whole vector `rename_rob_data_valid`, not bit `j`. -/
def robWriteChannelEnable (s : RobState) (input : RobInput) (j : Nat) : Bool :=
  if j < renameWidth then
    anyBit renameWidth input.renameRobDataValid && robRenameNewIdValid s j
  else input.commitRobInputDataWe (j - renameWidth)

def robWritePortAddrCmp (s : RobState) (input : RobInput) (id j : Nat) : Bool :=
  decide (robWriteChannelAddr s input j = id) && robWriteChannelEnable s input j

def robBufferNext (s : RobState) (input : RobInput) (id : Nat) : RobItem :=
  if anyBit (renameWidth + wbWidth) (robWritePortAddrCmp s input id) then
    dataSelector (renameWidth + wbWidth) (robWritePortAddrCmp s input id)
      (robWriteChannelData input)
  else s.buffer id

def robNext (s : RobState) (input : RobInput) : RobState where
  rptr := if input.commitRobFlush then 0 else robRptrNext s input
  wptr := if input.commitRobFlush then 0 else robWptrNext s input
  buffer := robBufferNext s input

/-! ## Outputs towards commit -/

def robCommitInputData (s : RobState) (id : Nat) : RobItem := s.buffer id

def robCommitRetireData (s : RobState) (id : Nat) : RobItem := s.buffer id

def robCommitRetireIdValid (s : RobState) (id : Nat) : Bool :=
  ptrInRange robSize id s.rptr s.wptr

def robCommitRetireHeadId (s : RobState) : Nat := slot robSize s.rptr

def robCommitRetireHeadIdValid (s : RobState) : Bool := !robEmpty s

def robCommitFlushTailId (s : RobState) : Nat :=
  (slot robSize s.wptr + robSize - 1) % robSize

def robCommitFlushTailIdValid (s : RobState) : Bool := !robEmpty s

def robCommitFlushData (s : RobState) (id : Nat) : RobItem := s.buffer id

def robCommitFlushNextId (id : Nat) : Nat := (id + robSize - 1) % robSize

def robCommitFlushNextIdValid (s : RobState) (id : Nat) : Bool :=
  ptrInRange robSize (robCommitFlushNextId id) s.rptr s.wptr &&
    decide (robCommitFlushNextId id ≠ robCommitFlushTailId s)

def robCommitNextIdValid (s : RobState) (id : Nat) : Bool :=
  ptrInRange robSize id s.rptr s.wptr && decide (id ≠ robCommitRetireHeadId s)

end DreamCore.Rtl
