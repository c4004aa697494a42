import DreamCore.Rtl.Rob
import DreamCore.Rtl.CheckpointBuffer

/-!
# Commit (`commit.sv`)

Retires up to four finished entries a cycle, up to the first branch or exception.
A trap leaves the normal state and walks the reorder buffer back from its tail,
one entry a cycle, undoing the register map; a mispredicted branch restores the
map of its checkpoint at once.  `RobView` is what commit sees of the buffer.
-/

namespace DreamCore.Rtl

structure RobView where
  data : Nat → RobItem
  retireIdValid : Nat → Bool
  retireHeadId : Nat
  nextIdValid : Nat → Bool
  flushTailId : Nat
  flushNextIdValid : Nat → Bool
  empty : Bool

def robView (s : RobState) : RobView where
  data := s.buffer
  retireIdValid := robCommitRetireIdValid s
  retireHeadId := robCommitRetireHeadId s
  nextIdValid := robCommitNextIdValid s
  flushTailId := robCommitFlushTailId s
  flushNextIdValid := robCommitFlushNextIdValid s
  empty := robEmpty s

inductive CommitFsm where
  | normal | flush | interruptFlush
  deriving DecidableEq

structure CommitState where
  curState : CommitFsm
  curRobItem : RobItem
  robItemId : Nat
  restoreRobItemId : Nat
  interruptId : Nat
  intifAckData : Nat

def commitReset : CommitState where
  curState := .normal
  curRobItem := RobItem.zero
  robItemId := 0
  restoreRobItemId := 0
  interruptId := 0
  intifAckData := 0

structure CommitInput where
  rob : RobView
  intifCommitHasInterrupt : Bool
  intifCommitMcauseData : Nat
  intifCommitAckData : Nat
  csrfCommitReadData : Nat
  csrfAllMstatusData : Nat
  cpbufCommitData : Nat → Checkpoint
  wbCommitPortDataOut : Nat → ExecuteWbPack

namespace Csr
abbrev mstatus : Nat := 0x300
abbrev mtvec : Nat := 0x305
abbrev mepc : Nat := 0x341
abbrev mcause : Nat := 0x342
abbrev mtval : Nat := 0x343
end Csr

section Commit

variable (s : CommitState) (c : CommitInput) (i : Nat)

/-! ## Retirement -/

def retireId : Nat := (c.rob.retireHeadId + i) % robSize

def retireData : RobItem := c.rob.data (retireId c i)

def commitRobRetireValid : Nat → Bool
  | 0 =>
      decide (s.curState = .normal) && c.rob.retireIdValid (retireId c 0) &&
        (retireData c 0).finish && !c.intifCommitHasInterrupt
  | i + 1 =>
      decide (s.curState = .normal) && c.rob.retireIdValid (retireId c (i + 1)) &&
        (retireData c (i + 1)).finish &&
        (commitRobRetireValid i && !(retireData c i).hasException && !(retireData c i).bruOp)

def retireHasExceptionCmp : Bool := commitRobRetireValid s c i && (retireData c i).hasException

def retireHasExceptionIndex : Nat :=
  priorityFinderFirst commitWidth (retireHasExceptionCmp s c)

def retireHasException : Bool := anyBit commitWidth (retireHasExceptionCmp s c)

def retireIsPredictedCmp : Bool :=
  commitRobRetireValid s c i && (retireData c i).bruOp && (retireData c i).predicted

def retireIsPredicted : Bool := anyBit commitWidth (retireIsPredictedCmp s c)

def bruOpIsHit : Bool :=
  decide ((retireData c i).bruJump = (retireData c i).predictedJump) &&
    (decide ((retireData c i).bruNextPc = (retireData c i).predictedNextPc) ||
      !(retireData c i).predictedJump)

def retireIsHitCmp : Bool :=
  commitRobRetireValid s c i && (retireData c i).bruOp && (retireData c i).predicted &&
    bruOpIsHit c i

def retireIsMissCmp : Bool :=
  commitRobRetireValid s c i && (retireData c i).bruOp && (retireData c i).predicted &&
    !bruOpIsHit c i

def retireIsMiss : Bool := anyBit commitWidth (retireIsMissCmp s c)

def retireHasBruOpCmp : Bool := commitRobRetireValid s c i && (retireData c i).bruOp

def retireHasBruOpIndex : Nat := priorityFinderFirst commitWidth (retireHasBruOpCmp s c)

def retireHasBruOp : Bool := anyBit commitWidth (retireHasBruOpCmp s c)

/-! ## State machine -/

def commitRobFlushId : Nat :=
  if s.curState = .normal then c.rob.flushTailId else s.restoreRobItemId

/-- The walk goes on: an older entry is left and this one is not the trapping one. -/
def walkContinues : Bool :=
  c.rob.flushNextIdValid (commitRobFlushId s c) &&
    decide (commitRobFlushId s c ≠ s.robItemId)

def commitNextState : CommitFsm :=
  match s.curState with
  | .normal =>
      if !c.rob.empty && c.intifCommitHasInterrupt then .interruptFlush
      else if !c.rob.empty && retireHasException s c then .flush
      else .normal
  | .flush => if walkContinues s c then .flush else .normal
  | .interruptFlush => if walkContinues s c then .interruptFlush else .normal

/-- Entries leave the buffer in the normal state, unless an interrupt is taken. -/
def retireGate : Bool :=
  decide (s.curState = .normal) && decide (commitNextState s c ≠ .interruptFlush)

def commitRobRetirePop : Bool :=
  retireGate s c && commitRobRetireValid s c i && !(retireData c i).hasException

def commitRobFlush : Bool :=
  (decide (s.curState = .normal) && retireIsMiss s c) ||
    (decide (s.curState ≠ .normal) &&
      (!c.rob.flushNextIdValid (commitRobFlushId s c) ||
        decide (commitRobFlushId s c = s.robItemId)))

/-! ## Checkpoint buffer -/

def commitCpbufId : Nat := (retireData c i).checkpointId

def commitCpbufPop : Bool :=
  retireGate s c && commitRobRetireValid s c i && !(retireData c i).hasException &&
    retireIsHitCmp s c i

def commitCpbufFlush : Bool := decide (s.curState = .normal) && retireIsMiss s c

/-! ## Alias table and register file -/

def commitRatReleasePhyId : Nat := (retireData c i).oldPhyRegId

def commitRatReleasePhyIdValid : Bool :=
  commitRobRetireValid s c i && !(retireData c i).hasException &&
    (retireData c i).oldPhyRegIdValid

def commitRatReleaseMap : Bool := retireGate s c

def commitRatMapTableVisible : Nat → Bool :=
  (c.cpbufCommitData (retireHasBruOpIndex s c)).ratPhyMapTableVisible

def commitRatMapTableRestore : Bool :=
  retireGate s c && retireIsPredicted s c && retireIsMiss s c &&
    !(retireData c (retireHasBruOpIndex s c)).hasException

def commitRobFlushData : RobItem := c.rob.data (commitRobFlushId s c)

def commitRatRestoreMap : Bool :=
  decide (s.curState ≠ .normal) && (commitRobFlushData s c).oldPhyRegIdValid

def commitPhyfInvalid : Bool :=
  retireGate s c && commitRobRetireValid s c i && !(retireData c i).hasException &&
    (retireData c i).oldPhyRegIdValid

/-! ## Towards the predictor -/

def commitBpPc : Nat := (retireData c i).pc

def commitBpInstruction : Nat := (retireData c i).instValue

def commitBpJump : Bool := (retireData c i).bruJump

def commitBpNextPc : Nat := (retireData c i).bruNextPc

def commitBpHit : Bool := bruOpIsHit c i

/-! ## Write-back into the reorder buffer -/

def inputRobItem : RobItem :=
  let wb := c.wbCommitPortDataOut i
  let old := c.rob.data wb.robId
  { old with
    finish := true
    hasException := wb.hasException
    exceptionId := wb.exceptionId
    exceptionValue := wb.exceptionValue
    predicted := wb.predicted
    predictedJump := wb.predictedJump
    predictedNextPc := wb.predictedNextPc
    checkpointIdValid := wb.checkpointIdValid
    checkpointId := wb.checkpointId
    bruOp := decide (wb.opUnit = .bru)
    bruJump := wb.bruJump
    bruNextPc := wb.bruNextPc
    csrNewvalue := wb.csrNewvalue
    csrNewvalueValid := wb.csrNewvalueValid }

def commitRobInputDataWe : Bool :=
  decide (s.curState = .normal) && decide (commitNextState s c = .normal) &&
    !commitRobFlush s c && (c.wbCommitPortDataOut i).enable

/-! ## CSR writes -/

/-- One of the four write channels: enable, address, data. -/
structure CsrWrite where
  we : Bool
  addr : Nat
  data : Nat

/-- `mret` copies `mstatus.MPIE` into `mstatus.MIE`. -/
def mretMstatus : Nat :=
  c.csrfAllMstatusData >>> 4 <<< 4 ||| ((c.csrfAllMstatusData >>> 7) % 2) <<< 3 |||
    c.csrfAllMstatusData % 2 ^ 3

def normalCsrfWrite : CsrWrite where
  we := retireGate s c && commitRobRetireValid s c i && !(retireData c i).hasException &&
    ((retireData c i).isMret || (retireData c i).csrNewvalueValid)
  addr := if (retireData c i).isMret then Csr.mstatus else (retireData c i).csrAddr
  data := if (retireData c i).isMret then mretMstatus c else (retireData c i).csrNewvalue

def flushDone : Bool := decide (s.curState = .flush) && decide (commitNextState s c = .normal)

def flushCsrfWrite : CsrWrite :=
  match i with
  | 0 => ⟨flushDone s c, Csr.mepc, s.curRobItem.pc⟩
  | 1 => ⟨flushDone s c, Csr.mtval, s.curRobItem.exceptionValue⟩
  | 2 => ⟨flushDone s c, Csr.mcause, s.curRobItem.exceptionId⟩
  | _ => ⟨false, 0, 0⟩

def interruptFlushDone : Bool :=
  decide (s.curState = .interruptFlush) && decide (commitNextState s c = .normal)

/-- An accepted interrupt moves `mstatus.MIE` into `mstatus.MPIE` and clears it. -/
def interruptMstatus : Nat :=
  c.csrfAllMstatusData >>> 8 <<< 8 ||| ((c.csrfAllMstatusData >>> 3) % 2) <<< 7 |||
    ((c.csrfAllMstatusData >>> 4) % 2 ^ 3) <<< 4 ||| c.csrfAllMstatusData % 2 ^ 3

def interruptFlushCsrfWrite : CsrWrite :=
  match i with
  | 0 => ⟨interruptFlushDone s c, Csr.mepc, s.curRobItem.pc⟩
  | 1 => ⟨interruptFlushDone s c, Csr.mtval, 0⟩
  | 2 => ⟨interruptFlushDone s c, Csr.mcause, 0x80000000 ||| s.interruptId⟩
  | _ => ⟨interruptFlushDone s c, Csr.mstatus, interruptMstatus c⟩

def commitCsrfWrite : CsrWrite :=
  match s.curState with
  | .normal => normalCsrfWrite s c i
  | .flush => flushCsrfWrite s c i
  | .interruptFlush => interruptFlushCsrfWrite s c i

/-! ## Feedback -/

def commitNumAdd : Nat := countOneContinuous commitWidth (commitRobRetireValid s c)

/-- The instructions counted in a cycle; a trap counts when its walk ends. -/
def commitCsrfCommitNumAdd : Nat :=
  if s.curState = .normal then commitNumAdd s c
  else if commitNextState s c = .normal then 1
  else 0

def robItemIsFinish : Bool :=
  (retireData c i).finish && c.rob.retireIdValid (retireId c i)

def anyFinish : Bool := anyBit commitWidth (robItemIsFinish c)

def commitRobNextId : Nat := (c.rob.retireHeadId + commitNumAdd s c) % robSize

def normalFeedbackPack : CommitFeedbackPack where
  enable := !c.rob.empty
  nextHandleRobIdValid := decide (s.curState = .normal) &&
    ((c.rob.nextIdValid (commitRobNextId s c) && anyFinish c) ||
      (!c.rob.empty &&
        (decide (commitNextState s c = .interruptFlush) || !anyFinish c)))
  nextHandleRobId := if anyFinish c then commitRobNextId s c else c.rob.retireHeadId
  hasException := false
  exceptionPc := 0
  flush := c.intifCommitHasInterrupt || retireHasException s c || retireIsMiss s c
  committedRobId := retireId c
  committedRobIdValid := fun i =>
    decide (commitNextState s c ≠ .interruptFlush) && commitRobRetireValid s c i
  jumpEnable := retireHasBruOp s c && (retireIsMiss s c || !retireIsPredicted s c)
  jump := (retireData c (retireHasBruOpIndex s c)).bruJump
  nextPc :=
    if (retireData c (retireHasBruOpIndex s c)).bruJump then
      (retireData c (retireHasBruOpIndex s c)).bruNextPc
    else ((retireData c (retireHasBruOpIndex s c)).pc + 4) % 2 ^ 32

/-- The feedback while flushing; `done` marks the cycle that returns to normal. -/
def flushingFeedbackPack (done : Bool) : CommitFeedbackPack where
  enable := true
  nextHandleRobIdValid := false
  nextHandleRobId := 0
  hasException := done
  exceptionPc := c.csrfCommitReadData
  flush := true
  committedRobId := fun _ => 0
  committedRobIdValid := fun _ => false
  jumpEnable := false
  jump := false
  nextPc := 0

def commitFeedbackPack : CommitFeedbackPack :=
  match s.curState with
  | .normal => normalFeedbackPack s c
  | .flush => flushingFeedbackPack c (flushDone s c)
  | .interruptFlush => flushingFeedbackPack c (interruptFlushDone s c)

/-! ## Registers -/

/-- `riscv_interrupt_t`: machine software 3, machine timer 7, machine external 11. -/
def interruptIdTemp : Nat :=
  if c.intifCommitMcauseData = 3 then 3 else if c.intifCommitMcauseData = 7 then 7 else 11

def commitNext : CommitState where
  curState := commitNextState s c
  curRobItem :=
    if s.curState = .normal ∧ commitNextState s c = .flush then
      retireData c (retireHasExceptionIndex s c)
    else if s.curState = .normal ∧ commitNextState s c = .interruptFlush then retireData c 0
    else s.curRobItem
  robItemId :=
    if s.curState = .normal ∧ commitNextState s c = .flush then
      retireId c (retireHasExceptionIndex s c)
    else if s.curState = .normal ∧ commitNextState s c = .interruptFlush then retireId c 0
    else s.robItemId
  restoreRobItemId :=
    if s.curState = .normal ∧ commitNextState s c ≠ .normal then c.rob.flushTailId
    else if s.curState ≠ .normal then robCommitFlushNextId (commitRobFlushId s c)
    else s.restoreRobItemId
  interruptId :=
    if s.curState = .normal ∧ commitNextState s c = .interruptFlush then interruptIdTemp c
    else s.interruptId
  intifAckData :=
    if s.curState = .normal ∧ commitNextState s c = .interruptFlush then c.intifCommitAckData
    else s.intifAckData

end Commit

end DreamCore.Rtl
