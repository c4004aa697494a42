import DreamCore.Rtl.Types

/-!
# Checkpoint buffer (`checkpoint_buffer.sv`)

A ring of `CHECKPOINT_BUFFER_SIZE` entries, one for each predicted branch in
flight.  Fetch allocates at the write pointer, rename fills the register map in,
commit pops from the read pointer or clears the whole ring.
-/

namespace DreamCore.Rtl

open DreamCore.Ring

def Checkpoint.zero : Checkpoint where
  ratPhyMapTableValid := fun _ => false
  ratPhyMapTableVisible := fun _ => false
  globalHistory := 0
  localHistory := 0

def Checkpoint.or (a b : Checkpoint) : Checkpoint where
  ratPhyMapTableValid := fun p => a.ratPhyMapTableValid p || b.ratPhyMapTableValid p
  ratPhyMapTableVisible := fun p => a.ratPhyMapTableVisible p || b.ratPhyMapTableVisible p
  globalHistory := a.globalHistory ||| b.globalHistory
  localHistory := a.localHistory ||| b.localHistory

instance : Packed Checkpoint := ⟨Checkpoint.zero, Checkpoint.or⟩

theorem Checkpoint.zero_or (c : Checkpoint) : Packed.or Packed.zero c = c := by
  cases c
  simp [Packed.or, Packed.zero, Checkpoint.or, Checkpoint.zero]

theorem Checkpoint.or_zero (c : Checkpoint) : Packed.or c Packed.zero = c := by
  cases c
  simp [Packed.or, Packed.zero, Checkpoint.or, Checkpoint.zero]

structure CheckpointBufferState where
  rptr : Nat
  wptr : Nat
  buffer : Nat → Checkpoint

structure CheckpointBufferInput where
  fetchCpbufData : Checkpoint
  fetchCpbufPush : Bool
  renameCpbufId : Nat → Nat
  renameCpbufData : Nat → Checkpoint
  renameCpbufWe : Nat → Bool
  commitCpbufPop : Nat → Bool
  commitCpbufFlush : Bool

def cpbufReset (buffer : Nat → Checkpoint) : CheckpointBufferState where
  rptr := 0
  wptr := 0
  buffer := buffer

/-! ## Pointers -/

def cpbufFull (s : CheckpointBufferState) : Bool :=
  decide (stage checkpointBufferSize s.rptr ≠ stage checkpointBufferSize s.wptr) &&
    decide (slot checkpointBufferSize s.rptr = slot checkpointBufferSize s.wptr)

def cpbufEmpty (s : CheckpointBufferState) : Bool := decide (s.rptr = s.wptr)

def cpbufFetchNewId (s : CheckpointBufferState) : Nat := slot checkpointBufferSize s.wptr

def cpbufFetchNewIdValid (s : CheckpointBufferState) : Bool := !cpbufFull s

def cpbufCommitNum (input : CheckpointBufferInput) : Nat :=
  countOne commitWidth input.commitCpbufPop

def cpbufRptrNext (s : CheckpointBufferState) (input : CheckpointBufferInput) : Nat :=
  if cpbufEmpty s then s.rptr else (s.rptr + cpbufCommitNum input) % (2 * checkpointBufferSize)

def cpbufWptrNext (s : CheckpointBufferState) (input : CheckpointBufferInput) : Nat :=
  if cpbufFull s then s.wptr
  else if input.fetchCpbufPush then (s.wptr + 1) % (2 * checkpointBufferSize)
  else s.wptr

/-! ## Write channels -/

def cpbufWriteChannelAddr (s : CheckpointBufferState) (input : CheckpointBufferInput) :
    Nat → Nat
  | 0 => cpbufFetchNewId s
  | i + 1 => input.renameCpbufId i

def cpbufWriteChannelData (input : CheckpointBufferInput) : Nat → Checkpoint
  | 0 => input.fetchCpbufData
  | i + 1 => input.renameCpbufData i

/-- Fetch's channel is enabled by the push alone, also while the ring is full. -/
def cpbufWriteChannelEnable (input : CheckpointBufferInput) : Nat → Bool
  | 0 => input.fetchCpbufPush
  | i + 1 => input.renameCpbufWe i

def cpbufWritePortAddrCmp (s : CheckpointBufferState) (input : CheckpointBufferInput)
    (id j : Nat) : Bool :=
  decide (cpbufWriteChannelAddr s input j = id) && cpbufWriteChannelEnable input j

def cpbufBufferNext (s : CheckpointBufferState) (input : CheckpointBufferInput) (id : Nat) :
    Checkpoint :=
  if anyBit (1 + renameWidth) (cpbufWritePortAddrCmp s input id) then
    dataSelector (1 + renameWidth) (cpbufWritePortAddrCmp s input id)
      (cpbufWriteChannelData input)
  else s.buffer id

def cpbufNext (s : CheckpointBufferState) (input : CheckpointBufferInput) :
    CheckpointBufferState where
  rptr := if input.commitCpbufFlush then 0 else cpbufRptrNext s input
  wptr := if input.commitCpbufFlush then 0 else cpbufWptrNext s input
  buffer := cpbufBufferNext s input

/-! ## Read channels -/

def cpbufRenameData (s : CheckpointBufferState) (id : Nat) : Checkpoint := s.buffer id

def cpbufExbruData (s : CheckpointBufferState) (id : Nat) : Checkpoint := s.buffer id

def cpbufCommitData (s : CheckpointBufferState) (id : Nat) : Checkpoint := s.buffer id

end DreamCore.Rtl
