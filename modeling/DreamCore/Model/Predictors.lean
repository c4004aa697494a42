import DreamCore.Cpp.BranchPredictor
import DreamCore.Lib.Clocked
import DreamCore.Rtl.BranchPredictor

/-!
# Both branch predictors side by side

The hardware predictor with its return stack and the C++ predictor take the same events.  In
a cycle of the C++ model commit comes first, then the branch unit, then fetch.
-/

namespace DreamCore.Model

open DreamCore.Clocked DreamCore.Rtl

structure Predictors where
  rtl : BranchPredictorState
  ras : RasState
  cpp : Cpp.BranchPredictor

/-- After `rst` and after `reset` of the C++ predictor. -/
def predictorsReset (p : Cpp.BranchPredictor) : Predictors :=
  ⟨branchPredictorReset, rasReset, p.reset⟩

section Hardware

variable (s : BranchPredictorState) (ras : RasState) (e : PredictorEvents)

/-- Fetch updates the histories with the prediction it gets. -/
def predictorPorts : BranchPredictorInput where
  toPredictorEvents := e
  fetchBpUpdateJump := bpFetchJump s e
  fetchBpUpdateValid := bpFetchValid e
  rasBpAddr := rasBpAddr ras

def predictorRasInput : RasInput := ⟨bpRasAddr e, bpRasPush e, bpRasPop e⟩

def rtlPrediction : Option (Bool × Nat) :=
  if bpFetchValid e then some (bpFetchJump s e, bpFetchNextPc s e (rasBpAddr ras)) else none

def rtlSaved : Cpp.SavedHistories := ⟨bpFetchGlobalHistory s e, bpFetchLocalHistory s e⟩

end Hardware

section Software

variable (p : Cpp.BranchPredictor) (e : PredictorEvents)

def cppCommitChannel (p : Cpp.BranchPredictor) (i : Nat) : Cpp.BranchPredictor :=
  if e.commitBpValid i then
    p.updatePrediction (e.commitBpPc i) (e.commitBpInstruction i) (e.commitBpJump i)
      (e.commitBpNextPc i) (e.commitBpHit i)
  else p

def cppCommitted : Cpp.BranchPredictor := (List.range commitWidth).foldl (cppCommitChannel e) p

def cppExecuted : Cpp.BranchPredictor :=
  if e.exbruBpValid then
    (cppCommitted p e).updatePredictionBruGuess
      ⟨e.exbruBpCp.globalHistory, e.exbruBpCp.localHistory⟩ e.exbruBpPc e.exbruBpInstruction
      e.exbruBpJump e.exbruBpHit
  else cppCommitted p e

def cppAsked : Cpp.BranchPredictor × Option (Bool × Nat) :=
  if e.fetchBpValid then (cppExecuted p e).getPrediction e.fetchBpPc e.fetchBpInstruction
  else (cppExecuted p e, none)

def cppPrediction : Option (Bool × Nat) := (cppAsked p e).2

def cppSaved : Cpp.SavedHistories := (cppAsked p e).1.save e.fetchBpPc

/-- Fetch hands the prediction back. -/
def cppFetched : Cpp.BranchPredictor :=
  match cppPrediction p e with
  | some (jump, _) => (cppAsked p e).1.updatePredictionGuess e.fetchBpPc e.fetchBpInstruction jump
  | none => (cppAsked p e).1

end Software

def predictorsNext (s : Predictors) (e : PredictorEvents) : Predictors where
  rtl := branchPredictorNext s.rtl (predictorPorts s.rtl s.ras e)
  ras := rasNext Cpp.rasSize s.ras (predictorRasInput e)
  cpp := cppFetched s.cpp e

/-- The prediction of the cycle, and the histories its checkpoint takes. -/
structure SamePrediction (s : Predictors) (e : PredictorEvents) : Prop where
  prediction : cppPrediction s.cpp e = rtlPrediction s.rtl s.ras e
  saved : bpFetchValid e = true → cppSaved s.cpp e = rtlSaved s.rtl e

/-- Commit retires one branch a cycle at most, and fetch asks for nothing while a
mispredicted one retires. -/
structure EventsPromised (e : PredictorEvents) : Prop where
  oneCommit : ∀ i, i < commitWidth → ∀ j, j < commitWidth → e.commitBpValid i = true →
    e.commitBpValid j = true → i = j
  quiet : commitMiss e = true → e.fetchBpValid = false

/-- The word fetch asks about is not a branch with one of the two reserved conditions. -/
def KnownBranch (e : PredictorEvents) : Prop :=
  e.fetchBpValid = true → isBranchWord e.fetchBpInstruction = true →
    wordFunct3 e.fetchBpInstruction ≠ 2 ∧ wordFunct3 e.fetchBpInstruction ≠ 3

end DreamCore.Model
