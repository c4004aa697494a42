import DreamCore.Cpp.IssueSelect
import DreamCore.Rtl.Readreg

/-!
# The issue queue behind the input of issue

One step is one clock cycle.  The bundle in front of issue, the register file, the
feedback and the full flags are inputs.  What the execution units answer is kept for a
cycle, since write-back sends it again in the next one.
-/

namespace DreamCore.Model

open DreamCore.Ring DreamCore.Rtl

structure IssueStageState where
  queue : IssueQueueState
  executed : Nat → FeedbackChannel

/-- `input` is completed with what issue drives itself. -/
structure IssueStageCycle where
  phyf : PhyRegfileState
  readregPort : Nat → ReadregIssueOpInfo
  lastIndex : Nat
  input : IssueQueueInput

def issueStageReset (buffer : Nat → IssueQueueItem) : IssueStageState where
  queue := issueQueueReset buffer
  executed := fun _ => ⟨false, 0, 0⟩

section Cycle

variable (s : IssueQueueState) (x : IssueStageCycle)

def issueStageInput : IssueQueueInput :=
  { x.input with
    issueIqData := tItemRedirected x.phyf x.input x.readregPort x.lastIndex
    issueIqDataValid := issueIqDataValidOf x.phyf x.input x.readregPort x.lastIndex
      (iqIssueDataChannelEnable s)
    issueIqPush := true
    issueIqFlush := issueIqFlushOf x.input.commitFeedbackPack }

end Cycle

def issueStageNext (s : IssueStageState) (x : IssueStageCycle) : IssueStageState where
  queue := issueQueueNext s.queue (issueStageInput s.queue x)
  executed := x.input.executeFeedbackPack

/-- Write-back repeats what the execution units answered in the cycle before, or drops it. -/
def WbRepeats (s : IssueStageState) (x : IssueStageCycle) : Prop :=
  ∀ j, j < wbWidth → (x.input.wbFeedbackPack j).enable = true →
    (s.executed j).enable = true ∧ (x.input.wbFeedbackPack j).phyId = (s.executed j).phyId

/-- Feedback of a cycle without flush; a CSR instruction or `mret` that is named as the
next to be handled is the oldest in the queue, and the name is valid. -/
structure CommitNamesOldest (s : IssueQueueState) (fb : CommitFeedbackPack) : Prop where
  enable : fb.enable = true
  noFlush : fb.flush = false
  oldest : ∀ k, k < s.wptr → isSerialising (s.buffer k) = true →
    fb.nextHandleRobId = (s.buffer k).robId → k = 0 ∧ fb.nextHandleRobIdValid = true

def NoFence (s : IssueQueueState) : Prop := ∀ k, k < s.wptr → (s.buffer k).op ≠ .fence

instance (s : IssueQueueState) : Decidable (NoFence s) :=
  inferInstanceAs (Decidable (∀ k, k < s.wptr → (s.buffer k).op ≠ .fence))

/-- The C++ queue, a ring with these pointers, has the content of the hardware's. -/
structure SameIssueQueue (s : IssueQueueState) (rptr wptr : Nat) (c : Cpp.IssueState) : Prop where
  wellFormed : WellFormed issueQueueSize rptr wptr
  ring : c.issueQ.toRob = Cpp.ringOf issueQueueSize rptr wptr
  length : occupancy issueQueueSize rptr wptr = s.wptr
  item : ∀ k, k < s.wptr → c.issueQ.buffer (slot issueQueueSize (rptr + k)) = s.buffer k
  isInstWaiting : c.isInstWaiting = s.isInstWaiting
  instWaitingRobId : s.isInstWaiting = true → c.instWaitingRobId = s.instWaitingRobId

end DreamCore.Model
