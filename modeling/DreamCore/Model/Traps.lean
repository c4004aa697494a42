import DreamCore.Cpp.Commit
import DreamCore.Model.IdealRob
import DreamCore.Rtl.CsrFile

/-!
# Commit, reorder buffer and CSR file over whole runs

The part of the core that takes traps.  Rename's entries, the results waiting in the
write-back register and the interrupt lines are inputs; the interrupt that commit sees
comes from the lines and the CSR file.  The C++ commit stage runs beside it on the
same reorder buffer.
-/

namespace DreamCore.Model

open DreamCore.Rtl

structure TrapState where
  commit : CommitState
  rob : IdealRob Unit
  csr : CsrFile

structure TrapInput where
  pushed : List RobItem
  wbCommitPortDataOut : Nat → ExecuteWbPack
  lines : InterruptLines
  cpbufCommitData : Nat → Checkpoint
  stale : Nat → RobItem

def trapReset : TrapState where
  commit := commitReset
  rob := ⟨0, []⟩
  csr := csrFileReset

section Cycle

variable (s : TrapState) (input : TrapInput)

def trapCommitInput : CommitInput where
  rob := s.rob.view input.stale
  intifCommitHasInterrupt := intifCommitHasInterrupt input.lines s.csr
  intifCommitMcauseData := intifCommitMcauseData input.lines s.csr
  intifCommitAckData := intifCommitAckData input.lines s.csr
  csrfCommitReadData := s.csr Csr.mtvec
  csrfAllMstatusData := s.csr Csr.mstatus
  cpbufCommitData := input.cpbufCommitData
  wbCommitPortDataOut := input.wbCommitPortDataOut

def trapCsrInput : CsrFileInput where
  commitCsrfWrite := commitCsrfWrite s.commit (trapCommitInput s input)
  intifCsrfMipData := intifCsrfMipData input.lines
  commitCsrfCommitNumAdd := commitCsrfCommitNumAdd s.commit (trapCommitInput s input)

/-- Commit tells the rest of the pipeline to drop what it holds. -/
def trapFlushes : Bool :=
  (commitFeedbackPack s.commit (trapCommitInput s input)).enable &&
    (commitFeedbackPack s.commit (trapCommitInput s input)).flush

/-- Rename pushes nothing while commit flushes. -/
def trapPushed : List (Entry Unit) :=
  if trapFlushes s input then [] else input.pushed.map fun item => ⟨item, ()⟩

def trapUpdate (k : Nat) (e : Entry Unit) : Entry Unit :=
  { e with item := robItemWritten s.commit (trapCommitInput s input) (s.rob.idAt k) e.item }

def trapNext : TrapState where
  commit := commitNext s.commit (trapCommitInput s input)
  rob := s.rob.next (trapUpdate s input) (popCount s.commit (trapCommitInput s input))
    (trapPushed s input) (commitRobFlush s.commit (trapCommitInput s input))
  csr := csrFileNext s.csr (trapCsrInput s input)

/-! ## What happens in a cycle -/

/-- Commit finds an exception at the oldest instruction left and starts to walk back. -/
def TakesException : Prop :=
  s.commit.curState = .normal ∧ commitNextState s.commit (trapCommitInput s input) = .flush

/-- Commit has walked back and enters the trap handler. -/
def EntersHandler : Prop :=
  s.commit.curState ≠ .normal ∧ commitNextState s.commit (trapCommitInput s input) = .normal

instance : Decidable (TakesException s input) := inferInstanceAs (Decidable (_ ∧ _))

instance : Decidable (EntersHandler s input) := inferInstanceAs (Decidable (_ ∧ _))

/-- What `commit_csrf_commit_num_add` adds in this cycle. -/
def numAdded : Nat := commitCsrfCommitNumAdd s.commit (trapCommitInput s input)

/-- The instructions that leave the reorder buffer without exception. -/
def numRetired : Nat := popCount s.commit (trapCommitInput s input)

def numTraps : Nat := if EntersHandler s input then 1 else 0

end Cycle

/-! ## Counts over a run -/

/-- The sum of what each cycle of a run counts. -/
def total (count : TrapState → TrapInput → Nat) : TrapState → List TrapInput → Nat
  | _, [] => 0
  | s, input :: inputs => count s input + total count (trapNext s input) inputs

/-! ## The C++ commit stage beside it -/

/-- The reorder buffer with the window of the list. -/
def IdealRob.toRob {γ : Type} (r : IdealRob γ) (stale : Nat → RobItem) : RobState where
  buffer := (r.view stale).data
  rptr := r.headId
  wptr := r.headId + r.entries.length

def cppCommitInput (s : TrapState) (input : TrapInput) : Cpp.CommitInput where
  rob := Cpp.robOfRtl (s.rob.toRob input.stale)
  buffer := (s.rob.view input.stale).data
  cause :=
    if intifCommitHasInterrupt input.lines s.csr then
      some (intifCommitMcauseData input.lines s.csr)
    else none
  mstatus := s.csr Csr.mstatus
  mtvec := s.csr Csr.mtvec

def cppCommitReset : Cpp.CommitState where
  curState := .normal
  robItem := RobItem.zero
  robItemId := 0
  restoreRobItemId := 0
  interruptPc := 0
  interruptId := 0

/-- The sum of `rob->add_commit_num` over a run, if no assertion fails. -/
def cppCommitNum : TrapState → Cpp.CommitState → List TrapInput → Option Nat
  | _, _, [] => some 0
  | s, t, input :: inputs =>
      (Cpp.commitRun (cppCommitInput s input) t).bind fun r =>
        (cppCommitNum (trapNext s input) r.state inputs).map (r.commitNum + ·)

end DreamCore.Model
