import DreamCore.Cpp.IssueInput
import DreamCore.Lib.Segments
import DreamCore.Rtl.Rename

/-!
# Rename, register read and the input of issue together

One step is one clock cycle.  The decoded instructions, the register file, the feedback
packs and the content of the issue queue are inputs, so that the free space of the queue
is arbitrary in every cycle.  Both programs are stages that hand a bundle on in pieces.
-/

namespace DreamCore.Model

open DreamCore.Rtl DreamCore.Segments

/-- The enabled operations of a bundle from a slot on. -/
def bundleFrom (port : Nat → ReadregIssueOpInfo) (lastIndex : Nat) : List ReadregIssueOpInfo :=
  (((List.range readregWidth).drop lastIndex).filter fun i => (port i).enable).map port

/-- The enabled operations form a prefix. -/
def LeadingEnabled (enable : Nat → Bool) : Prop :=
  ∀ i, i < readregWidth - 1 → enable (i + 1) = true → enable i = true

instance (enable : Nat → Bool) : Decidable (LeadingEnabled enable) :=
  inferInstanceAs (Decidable (∀ i, i < readregWidth - 1 → _))

/-! ## The hardware -/

structure IssueInputState where
  renamePort : Nat → RenameReadregOpInfo
  readregPort : Nat → ReadregIssueOpInfo
  lastIndex : Nat

/-- `rename` and `queueInput` are completed with what the stages drive themselves. -/
structure IssueInputCycle where
  rename : RenameInput
  phyf : PhyRegfileState
  queue : { s : IssueQueueState // s.wptr ≤ issueQueueSize }
  queueInput : IssueQueueInput

def issueInputReset : IssueInputState where
  renamePort := fun _ => RenameReadregOpInfo.zero
  readregPort := fun _ => ReadregIssueOpInfo.zero
  lastIndex := 0

section Cycle

variable (s : IssueInputState) (x : IssueInputCycle)

namespace IssueInputCycle

def flush : Bool := issueIqFlushOf x.queueInput.commitFeedbackPack

def channelEnable : Nat → Bool := iqIssueDataChannelEnable x.queue.val

end IssueInputCycle

def issueStall : Bool :=
  issueBusy x.phyf x.queueInput s.readregPort s.lastIndex x.channelEnable

def renameCycle : RenameInput :=
  { x.rename with
    issueFeedbackStall := issueStall s x
    commitFeedbackPack := x.queueInput.commitFeedbackPack }

def queueCycle : IssueQueueInput :=
  { x.queueInput with
    issueIqData := tItemRedirected x.phyf x.queueInput s.readregPort s.lastIndex
    issueIqDataValid :=
      issueIqDataValidOf x.phyf x.queueInput s.readregPort s.lastIndex x.channelEnable
    issueIqPush := true
    issueIqFlush := x.flush }

/-- What register read hands over for a slot. -/
def readregCycle (i : Nat) : ReadregIssueOpInfo :=
  readregSendPack x.phyf x.queueInput.executeFeedbackPack x.queueInput.wbFeedbackPack
    (s.renamePort i)

def issueInputNext : IssueInputState where
  renamePort := bundlePortNext RenameReadregOpInfo.zero (renameCycle s x).sendPack
    (renameCycle s x).readregPortWe (renameCycle s x).readregPortFlush s.renamePort
  readregPort := bundlePortNext ReadregIssueOpInfo.zero (readregCycle s x)
    (!issueStall s x) x.flush s.readregPort
  lastIndex := lastIndexNext x.phyf x.queueInput s.readregPort s.lastIndex x.channelEnable

/-- The slots the queue takes in this cycle. -/
def insertedSlots : List Nat :=
  if x.flush then []
  else List.range' s.lastIndex
    (inputPushNum x.phyf x.queueInput s.readregPort s.lastIndex x.channelEnable)

end Cycle

def issueInputStage : Stage IssueInputState IssueInputCycle ReadregIssueOpInfo where
  pending := fun s => bundleFrom s.readregPort s.lastIndex
  inserted := fun s x => (insertedSlots s x).map s.readregPort
  arriving := fun s x => bundleFrom (readregCycle s x) 0
  stall := issueStall
  flush := IssueInputCycle.flush

/-! ## The C++ model -/

def cppInsertedSlots (s : Cpp.IssueInputState) (x : Cpp.IssueInputCycle) : List Nat :=
  if Cpp.issueFlushes x then []
  else ((List.range (Cpp.inputRun s x).lastIndex).drop (Cpp.inputStart s)).filter fun i =>
    (s.readregPort i).enable

def cppIssueInputStage : Stage Cpp.IssueInputState Cpp.IssueInputCycle ReadregIssueOpInfo where
  pending := fun s => bundleFrom s.readregPort (Cpp.inputStart s)
  inserted := fun s x => (cppInsertedSlots s x).map s.readregPort
  arriving := fun s x => bundleFrom (fun i =>
    Cpp.readregSend x.phyf x.executeFeedbackPack x.wbFeedbackPack (s.renamePort i)) 0
  stall := Cpp.issueStall
  flush := Cpp.issueFlushes

end DreamCore.Model
