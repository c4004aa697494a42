import DreamCore.Lib.Scoreboard
import DreamCore.Model.IssueInput
import DreamCore.Model.Recovery
import DreamCore.Rtl.Execute

/-!
# Operands on their way to the execution units

Rename, alias table, reorder buffer, checkpoint buffer, register file and commit with
register read, the input of issue, the issue queue and write-back.  One step is one clock
cycle.  The units are inputs: what each of them hands over, and which of them are busy.
Beside the circuit runs a scoreboard of the physical registers, allocated by rename and
delivered by the units at once.
-/

namespace DreamCore.Model

open DreamCore.Rtl

/-! ## The circuit -/

structure DataflowState where
  recovery : RecoveryState
  front : IssueInputState
  queue : IssueQueueState
  executeWb : Nat → ExecuteWbPack

abbrev DataflowState.back (s : DataflowState) : BackendState := s.recovery.backend

/-- The stall, the results and the checkpoint data in `outside` are driven by the circuit.
`unitValid` is off while a unit has nothing to hand over. -/
structure DataflowInput where
  outside : RecoveryInput
  stbufAllEmpty : Bool
  issueFifoFull : OpUnit → Nat → Bool
  unitValid : Nat → Bool
  unitPack : Nat → ExecuteWbPack

def dataflowReset (robBuffer : Nat → RobItem) (checkpoints : Nat → Checkpoint)
    (buffer : Nat → IssueQueueItem) : DataflowState where
  recovery := recoveryReset robBuffer checkpoints
  front := issueInputReset
  queue := issueQueueReset buffer
  executeWb := fun _ => ExecuteWbPack.zero

section Cycle

variable (s : DataflowState) (x : DataflowInput)

/-- What the checkpoint buffer answers commit. -/
def dataflowCheckpoint : Nat → Checkpoint := recoveryCommitData s.recovery x.outside

def dataflowFeedback : CommitFeedbackPack :=
  backendFeedback (dataflowCheckpoint s x) s.back x.outside.backend

/-- The write enable of the port register behind unit `j`. -/
def unitWbPortWe (j : Nat) : Bool := x.unitValid j && !(dataflowFeedback s x).flushing

/-- Channel `j` of `execute_feedback_pack`. -/
def executeFeedback (j : Nat) : FeedbackChannel where
  enable := unitWbPortWe s x j && (x.unitPack j).enable && (x.unitPack j).valid &&
    (x.unitPack j).rdEnable && (x.unitPack j).needRename && !(x.unitPack j).hasException
  phyId := (x.unitPack j).rdPhy
  value := (x.unitPack j).rdValue

/-- Channel `j` of `wb_feedback_pack`. -/
def wbFeedback (j : Nat) : FeedbackChannel where
  enable := wbPhyfWe (dataflowFeedback s x) s.executeWb j
  phyId := (s.executeWb j).rdPhy
  value := (s.executeWb j).rdValue

/-- What the queue reads, its data inputs apart. -/
def queueSides : IssueQueueInput where
  issueIqData := fun _ => tItemEmpty
  issueIqDataValid := fun _ => false
  issueIqPush := true
  issueIqFlush := issueIqFlushOf (dataflowFeedback s x)
  stbufAllEmpty := x.stbufAllEmpty
  issueFifoFull := x.issueFifoFull
  executeFeedbackPack := executeFeedback s x
  wbFeedbackPack := wbFeedback s x
  commitFeedbackPack := dataflowFeedback s x

def dataflowStall : Bool :=
  issueBusy s.back.phyf (queueSides s x) s.front.readregPort s.front.lastIndex
    (iqIssueDataChannelEnable s.queue)

def dataflowRecovery : RecoveryInput :=
  { x.outside with
    backend := { x.outside.backend with
      issueFeedbackStall := dataflowStall s x, executeWb := s.executeWb } }

/-- What rename, the tables and commit get. -/
def dataflowBack : BackendInput := recoveryBackendInput s.recovery (dataflowRecovery s x)

def dataflowRename : RenameInput :=
  backendRenameInput (dataflowCheckpoint s x) s.back (dataflowBack s x)

def dataflowQueueInput : IssueQueueInput :=
  { queueSides s x with
    issueIqData := tItemRedirected s.back.phyf (queueSides s x) s.front.readregPort
      s.front.lastIndex
    issueIqDataValid := issueIqDataValidOf s.back.phyf (queueSides s x) s.front.readregPort
      s.front.lastIndex (iqIssueDataChannelEnable s.queue) }

def dataflowReadreg (i : Nat) : ReadregIssueOpInfo :=
  readregSendPack s.back.phyf (executeFeedback s x) (wbFeedback s x) (s.front.renamePort i)

def dataflowNext : DataflowState where
  recovery := recoveryNext s.recovery (dataflowRecovery s x)
  front :=
    { renamePort := bundlePortNext RenameReadregOpInfo.zero (dataflowRename s x).sendPack
        (dataflowRename s x).readregPortWe (dataflowRename s x).readregPortFlush
        s.front.renamePort
      readregPort := bundlePortNext ReadregIssueOpInfo.zero (dataflowReadreg s x)
        (!dataflowStall s x) (issueIqFlushOf (dataflowFeedback s x)) s.front.readregPort
      lastIndex := lastIndexNext s.back.phyf (queueSides s x) s.front.readregPort
        s.front.lastIndex (iqIssueDataChannelEnable s.queue) }
  queue := issueQueueNext s.queue (dataflowQueueInput s x)
  executeWb := fun j => if unitWbPortWe s x j then x.unitPack j else ExecuteWbPack.zero

/-! ## The scoreboard -/

/-- The physical registers and values the units deliver in this cycle. -/
def deliveries : List (Nat × Nat) :=
  ((List.range wbWidth).filter fun j => (executeFeedback s x j).enable).map fun j =>
    ((executeFeedback s x j).phyId, (executeFeedback s x j).value)

/-- The physical registers rename takes in this cycle. -/
def allocations : List Nat :=
  if (dataflowRename s x).renameRatMap then
    ((List.range renameWidth).filter (dataflowRename s x).renameRatPhyIdValid).map
      (dataflowRename s x).newPhyId
  else []

end Cycle

structure TrackedState where
  machine : DataflowState
  regs : Nat → Option Nat

def trackedNext (t : TrackedState) (x : DataflowInput) : TrackedState where
  machine := dataflowNext t.machine x
  regs := Scoreboard.next t.regs (deliveries t.machine x) (allocations t.machine x)

/-- The registers of `x1` to `x31` hold zero after reset. -/
def trackedReset (robBuffer : Nat → RobItem) (checkpoints : Nat → Checkpoint)
    (buffer : Nat → IssueQueueItem) : TrackedState where
  machine := dataflowReset robBuffer checkpoints buffer
  regs := fun p => if 1 ≤ p ∧ p < archRegNum then some 0 else none

end DreamCore.Model
