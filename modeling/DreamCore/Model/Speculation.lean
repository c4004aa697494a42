import DreamCore.Model.FrontEnd
import DreamCore.Model.Retirement
import DreamCore.Rtl.BranchPredictor
import DreamCore.Rtl.Execute

/-!
# The branch predictor in the pipeline

The front end with the predictor and the branch unit in their places.  Fetch gets the
predictor's answer and hands the outcome back, the branch unit reports what it finds, and
commit what retires.  The return stack, the checkpoint buffer, issue and the other units
are inputs.
-/

namespace DreamCore.Model

open DreamCore.Rtl

/-- `squashed` is no register: what the flush under way has discarded. -/
structure SpeculationState where
  front : FrontEndState
  bp : BranchPredictorState
  bruWbPort : ExecuteWbPack
  squashed : List FetchDecodePack

/-- The predictor's answers and the results of the branch unit in `front` are not read. -/
structure SpeculationInput where
  front : FrontEndInput
  rasBpAddr : Nat
  issueBruFifoDataOut : IssueExecutePack
  issueBruFifoDataOutValid : Bool
  cpbufExbruData : Checkpoint
  csrfAllMepcData : Nat

/-- The position of the branch unit among the eight execution units. -/
abbrev bruWbIndex : Nat := 2

def speculationReset (mem : Nat → Nat → BitVec 8) (outData : Nat → BitVec 8)
    (robBuffer : Nat → RobItem) (buffer : Nat → StoreBufferItem) : SpeculationState where
  front := frontEndReset mem outData robBuffer buffer
  bp := branchPredictorReset
  bruWbPort := ExecuteWbPack.zero
  squashed := []

section Cycle

variable (s : SpeculationState) (x : SpeculationInput)

/-! ## The wires -/

def speculationCommitInput : CommitInput :=
  loadStoreCommitInput s.front.loadStore x.front.loadStore

def speculationFeedback : CommitFeedbackPack := frontEndFeedback s.front x.front

def bruSendPack : ExecuteWbPack := executeBru x.csrfAllMepcData x.issueBruFifoDataOut

def speculationEvents : PredictorEvents :=
  let f := frontEndFetchInput s.front x.front
  let c := speculationCommitInput s x
  { fetchBpPc := fetchBpPc s.front.fetch f
    fetchBpInstruction := fetchBpInstruction s.front.fetch f
    fetchBpValid := fetchBpValid s.front.fetch f
    exbruBpCp := x.cpbufExbruData
    exbruBpPc := (bruSendPack x).pc
    exbruBpInstruction := x.issueBruFifoDataOut.value
    exbruBpJump := (bruSendPack x).bruJump
    exbruBpHit := exbruBpHit (bruSendPack x)
    exbruBpValid := exbruBpValid x.issueBruFifoDataOutValid (speculationFeedback s x)
      x.issueBruFifoDataOut
    commitBpPc := commitBpPc c
    commitBpInstruction := commitBpInstruction c
    commitBpJump := commitBpJump c
    commitBpNextPc := commitBpNextPc c
    commitBpHit := commitBpHit c
    commitBpValid := commitBpValid s.front.loadStore.commit c }

/-- The front end with the predictor's answer and the branch unit's result. -/
def speculationFront : FrontEndInput :=
  let e := speculationEvents s x
  { x.front with
    fetch := { x.front.fetch with
      bpFetchJump := bpFetchJump s.bp e
      bpFetchNextPc := bpFetchNextPc s.bp e x.rasBpAddr
      bpFetchValid := bpFetchValid e
      bpFetchGlobalHistory := bpFetchGlobalHistory s.bp e
      bpFetchLocalHistory := bpFetchLocalHistory s.bp e }
    loadStore := { x.front.loadStore with
      executeWb := fun j =>
        if j = bruWbIndex then s.bruWbPort else x.front.loadStore.executeWb j } }

def speculationFetchInput : FetchInput := frontEndFetchInput s.front (speculationFront s x)

def speculationPredictorInput : BranchPredictorInput where
  toPredictorEvents := speculationEvents s x
  fetchBpUpdateJump := fetchBpUpdateJump (speculationFetchInput s x)
  fetchBpUpdateValid := fetchBpUpdateValid s.front.fetch (speculationFetchInput s x)
  rasBpAddr := x.rasBpAddr

/-! ## One cycle -/

/-- The instructions that retire in this cycle, in program order. -/
def speculationRetired : Nat := popCount s.front.loadStore.commit (speculationCommitInput s x)

/-- What a flush in this cycle discards, or has discarded when commit walks back. -/
def squashedBy : List FetchDecodePack :=
  if s.front.loadStore.commit.curState = .normal then
    (inFlight s.front).drop (speculationRetired s x)
  else s.squashed

def speculationNext : SpeculationState where
  front := frontEndNext s.front (speculationFront s x)
  bp := branchPredictorNext s.bp (speculationPredictorInput s x)
  bruWbPort := portNext s.bruWbPort (bruSendPack x)
    (bruWbPortWe x.issueBruFifoDataOutValid (speculationFeedback s x))
    (bruWbPortFlush x.issueBruFifoDataOutValid (speculationFeedback s x))
  squashed := if (speculationFeedback s x).flushing then squashedBy s x else []

/-- The pipeline is empty after this cycle. -/
def fullyFlushed : Bool := commitRobFlush s.front.loadStore.commit (speculationCommitInput s x)

end Cycle

/-! ## Histories -/

/-- A conditional branch that fetch predicted and gave a checkpoint. -/
def isPredictedBranch (p : FetchDecodePack) : Bool := p.predicted && isBranchWord p.value

/-- The predicted outcomes of the branches among some instructions. -/
def predictedOutcomes (l : List FetchDecodePack) : List Bool :=
  (l.filter isPredictedBranch).map (·.predictedJump)

/-- A global history with more outcomes behind it, oldest first. -/
def extendHistory (history : Nat) (outcomes : List Bool) : Nat :=
  outcomes.foldl (historyShift gsharePcP1AddrWidth) history

/-- The branch unit has found this outcome for the instruction at position `k`; it is in
the unit's port, in that of write-back, or in the reorder buffer. -/
def Executed (s : SpeculationState) (k : Nat) (jump : Bool) : Prop :=
  let rob := s.front.loadStore.rob
  (∃ hk : k < rob.entries.length, rob.entries[k].item.finish = true ∧
      rob.entries[k].item.bruJump = jump) ∨
    (∃ j, j < wbWidth ∧ (s.front.loadStore.wbCommitPort j).enable = true ∧
      (s.front.loadStore.wbCommitPort j).robId = rob.idAt k ∧
      (s.front.loadStore.wbCommitPort j).bruJump = jump) ∨
    (s.bruWbPort.enable = true ∧ s.bruWbPort.robId = rob.idAt k ∧ s.bruWbPort.bruJump = jump)

/-- A branch in flight went the other way than predicted. -/
def Unresolved (s : SpeculationState) : Prop :=
  ∃ k, ∃ hk : k < s.front.loadStore.rob.entries.length,
    isPredictedBranch s.front.loadStore.rob.entries[k].tag.op.toFetchDecodePack = true ∧
    Executed s k (!s.front.loadStore.rob.entries[k].tag.op.predictedJump)

/-- The speculative history is the retired one with what is in flight. -/
def HistoryExtended (s : SpeculationState) : Prop :=
  ¬Unresolved s → s.bp.gshareGlobalHistory =
    extendHistory s.bp.gshareGlobalHistoryRetired (predictedOutcomes (inFlight s.front))

/-- A full flush in this cycle leaves the retired histories, for the local ones in every
entry of a squashed branch. -/
def FlushRestores (s : SpeculationState) (x : SpeculationInput) : Prop :=
  fullyFlushed s x = true →
    let bp := (speculationNext s x).bp
    bp.gshareGlobalHistory = bp.gshareGlobalHistoryRetired ∧
      ∀ p ∈ squashedBy s x, isBranchWord p.value = true →
        bp.localBht (localGetPcP1 p.pc) = bp.localBhtRetired (localGetPcP1 p.pc)

section Assumptions

variable (s : SpeculationState) (x : SpeculationInput)

/-- Issue sends the branch unit an instruction in flight as it was decoded, which no unit
has answered for. -/
structure BruIssued : Prop where
  inFlight : ∃ k, ∃ hk : k < s.front.loadStore.rob.entries.length,
    x.issueBruFifoDataOut.robId = s.front.loadStore.rob.idAt k ∧
    x.issueBruFifoDataOut.toDecodeRenamePack = s.front.loadStore.rob.entries[k].tag.op ∧
    s.front.loadStore.rob.entries[k].tag.op.opUnit = .bru ∧
    s.front.loadStore.rob.entries[k].item.finish = false
  notPending : ∀ j, j < wbWidth → (s.front.loadStore.wbCommitPort j).enable = true →
    (s.front.loadStore.wbCommitPort j).robId ≠ x.issueBruFifoDataOut.robId
  notAnswered : ∀ j, j < wbWidth →
    (executeWbPort s.front.loadStore (speculationFront s x).loadStore j).enable = true →
    (executeWbPort s.front.loadStore (speculationFront s x).loadStore j).robId ≠
      x.issueBruFifoDataOut.robId

/-- A result comes back with the unit and the prediction of its instruction. -/
structure CarriesOp (op : DecodeRenamePack) (w : ExecuteWbPack) : Prop where
  opUnit : w.opUnit = op.opUnit
  predicted : w.predicted = op.predicted
  predictedJump : w.predictedJump = op.predictedJump

/-- Issue sends every instruction to one unit once, and the units answer for what they
got. -/
structure SpeculationAllowed : Prop where
  front : FrontEndAllowed s.front x.front
  issued : x.issueBruFifoDataOutValid = true → (speculationFeedback s x).flushing = false →
    BruIssued s x
  apart : s.bruWbPort.enable = true → ∀ j, j < wbWidth → j ≠ lsuWbIndex → j ≠ bruWbIndex →
    (x.front.loadStore.executeWb j).enable = true →
    (x.front.loadStore.executeWb j).robId ≠ s.bruWbPort.robId
  carries : ∀ j, j < wbWidth → j ≠ lsuWbIndex → j ≠ bruWbIndex →
    (x.front.loadStore.executeWb j).enable = true →
    ∀ k, ∀ hk : k < s.front.loadStore.rob.entries.length,
      (x.front.loadStore.executeWb j).robId = s.front.loadStore.rob.idAt k →
      CarriesOp s.front.loadStore.rob.entries[k].tag.op (x.front.loadStore.executeWb j)

/-! ## The condition -/

/-- Fetch predicts no branch while the checkpoint buffer is full, and no flush discards a
branch, unless a mispredicted branch retires and shares its local history with all of
them. -/
structure HistoryKept : Prop where
  checkpoint : fetchUpdates (speculationPredictorInput s x) = true →
    x.front.fetch.cpbufFetchNewIdValid = true
  noneLost : (speculationFeedback s x).flushing = true →
    s.front.loadStore.commit.curState = .normal →
    ∀ p ∈ squashedBy s x, isBranchWord p.value = true →
      commitMiss (speculationEvents s x) = true ∧
        localGetPcP1 p.pc = localBhtWriteAddr (speculationEvents s x)

end Assumptions

end DreamCore.Model
