import DreamCore.Rtl.Decode

/-!
# Register renaming (`rename.sv`)

A purely combinational stage: it offers the head of the decode FIFO, takes new
physical registers and reorder-buffer ids, and tells the alias table, the reorder
buffer and the checkpoint buffer what to store.  `RenameInput` is what it reads.
-/

namespace DreamCore.Rtl

structure RenameInput where
  decodeRenameFifoDataOut : Nat → DecodeRenamePack
  decodeRenameFifoDataOutValid : Nat → Bool
  cpbufRenameData : Nat → Checkpoint
  ratRenameNewPhyId : Nat → Nat
  ratRenameNewPhyIdValid : Nat → Bool
  ratRenameMapTableValid : Nat → Bool
  ratRenameMapTableVisible : Nat → Bool
  ratRenameReadPhyId : Nat → Nat
  robRenameNewId : Nat → Nat
  robRenameNewIdValid : Nat → Bool
  issueFeedbackStall : Bool
  commitFeedbackPack : CommitFeedbackPack

namespace RenameInput

variable (r : RenameInput) (i : Nat)

def revPack : DecodeRenamePack := r.decodeRenameFifoDataOut i

def revEnable : Bool := r.decodeRenameFifoDataOutValid i && (r.revPack i).enable

def readregPortWe : Bool := !r.issueFeedbackStall

def readregPortFlush : Bool := r.commitFeedbackPack.enable && r.commitFeedbackPack.flush

/-! ## New registers -/

/-- Only an instruction the decoder accepts takes a register off the free list. -/
def newPhyIdNeed : Bool :=
  r.revEnable i && (r.revPack i).valid && (r.revPack i).needRename

def newPhyIdChannelIndex : Nat → Nat
  | 0 => 0
  | i + 1 =>
      if r.newPhyIdNeed i then (newPhyIdChannelIndex i + 1) % renameWidth
      else newPhyIdChannelIndex i

def newPhyId : Nat := r.ratRenameNewPhyId (r.newPhyIdChannelIndex i)

def newPhyIdValid : Bool := r.ratRenameNewPhyIdValid (r.newPhyIdChannelIndex i)

def sendEnable : Bool :=
  r.revEnable i &&
    (r.newPhyIdValid i || !(r.revPack i).valid || !(r.revPack i).needRename) &&
    r.robRenameNewIdValid i

/-! ## Forwarding inside the bundle -/

def rdOldPhyFeedbackCmp (j : Nat) : Bool :=
  decide (j < i) && r.newPhyIdNeed j && decide ((r.revPack j).rd = (r.revPack i).rd)

def rs1PhyFeedbackCmp (j : Nat) : Bool :=
  decide (j < i) && (r.revEnable j && (r.revPack j).valid && (r.revPack j).rdEnable) &&
    decide ((r.revPack j).rd = (r.revPack i).rs1)

def rs2PhyFeedbackCmp (j : Nat) : Bool :=
  decide (j < i) && (r.revEnable j && (r.revPack j).valid && (r.revPack j).rdEnable) &&
    decide ((r.revPack j).rd = (r.revPack i).rs2)

/-- The newest earlier slot that `cmp` selects, or the table's answer. -/
def phyFeedback (cmp : Nat → Bool) (arch : Nat) : Nat :=
  if anyBit renameWidth cmp then r.newPhyId (priorityFinderLast renameWidth cmp)
  else r.ratRenameReadPhyId arch

def oldPhyRegId : Nat := r.phyFeedback (r.rdOldPhyFeedbackCmp i) (r.revPack i).rd

def sendPack : RenameReadregOpInfo :=
  { toDecodeRenamePack :=
      { r.revPack i with
        toFetchDecodePack := { (r.revPack i).toFetchDecodePack with enable := r.sendEnable i } }
    robId := r.robRenameNewId i
    rs1Phy := r.phyFeedback (r.rs1PhyFeedbackCmp i) (r.revPack i).rs1
    rs2Phy := r.phyFeedback (r.rs2PhyFeedbackCmp i) (r.revPack i).rs2
    rdPhy := r.newPhyId i }

/-! ## Towards the alias table -/

/-- The map request does not look at `valid`. -/
def renameRatPhyIdValid : Bool := r.sendEnable i && (r.revPack i).needRename

def renameRatMap : Bool := !r.readregPortFlush && r.readregPortWe

/-! ## Towards the reorder buffer -/

def oldPhyRegIdValid : Bool :=
  r.revEnable i && (r.revPack i).valid && (r.revPack i).needRename

def robItem : RobItem where
  newPhyRegId := r.newPhyId i
  oldPhyRegId := r.oldPhyRegId i
  oldPhyRegIdValid := r.oldPhyRegIdValid i
  finish := false
  pc := (r.revPack i).pc
  instValue := (r.revPack i).value
  hasException := (r.revPack i).hasException
  exceptionId := (r.revPack i).exceptionId
  exceptionValue := (r.revPack i).exceptionValue
  predicted := false
  predictedJump := false
  predictedNextPc := 0
  checkpointIdValid := false
  checkpointId := 0
  bruOp := false
  bruJump := false
  bruNextPc := 0
  isMret := decide ((r.revPack i).op = .mret)
  csrAddr := (r.revPack i).csr
  csrNewvalue := 0
  csrNewvalueValid := false

def renameRobDataValid : Bool := r.robRenameNewIdValid i && r.sendEnable i

def renameRobPush : Bool := !r.readregPortFlush && r.readregPortWe

/-! ## Towards the checkpoint buffer -/

def renames : Bool := r.sendEnable i && (r.revPack i).valid && (r.revPack i).needRename

def stepTableValid (table : Nat → Bool) (p : Nat) : Bool :=
  if !r.renames i then table p else if p = r.newPhyId i then true else table p

def stepTableVisible (table : Nat → Bool) (p : Nat) : Bool :=
  if !r.renames i then table p
  else if p = r.newPhyId i then true
  else if p = r.oldPhyRegId i then false
  else table p

def newCpTableValid : Nat → Nat → Bool
  | 0 => r.stepTableValid 0 r.ratRenameMapTableValid
  | i + 1 => r.stepTableValid (i + 1) (newCpTableValid i)

def newCpTableVisible : Nat → Nat → Bool
  | 0 => r.stepTableVisible 0 r.ratRenameMapTableVisible
  | i + 1 => r.stepTableVisible (i + 1) (newCpTableVisible i)

/-- The checkpoint after slot `i`, with the histories fetch stored. -/
def newCp : Checkpoint where
  ratPhyMapTableValid := r.newCpTableValid i
  ratPhyMapTableVisible := r.newCpTableVisible i
  globalHistory := (r.cpbufRenameData i).globalHistory
  localHistory := (r.cpbufRenameData i).localHistory

def renameCpbufWe : Bool :=
  !r.readregPortFlush && r.readregPortWe && r.sendEnable i && (r.revPack i).checkpointIdValid

end RenameInput

end DreamCore.Rtl
