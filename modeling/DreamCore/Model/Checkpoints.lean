import DreamCore.Model.Speculation
import DreamCore.Rtl.CheckpointBuffer

/-!
# The checkpoint buffer in the pipeline

The front end, predictor and branch unit with the checkpoint buffer in its place: fetch
allocates for the jump it predicts, rename fills the entry in, execute and commit read it,
and commit pops or clears.  The return stack, the alias table, issue and the other units
are inputs.
-/

namespace DreamCore.Model

open DreamCore.Ring DreamCore.Rtl

structure CheckpointState where
  spec : SpeculationState
  cpbuf : CheckpointBufferState

def checkpointReset (mem : Nat → Nat → BitVec 8) (outData : Nat → BitVec 8)
    (robBuffer : Nat → RobItem) (buffer : Nat → StoreBufferItem)
    (checkpoints : Nat → Checkpoint) : CheckpointState where
  spec := speculationReset mem outData robBuffer buffer
  cpbuf := cpbufReset checkpoints

section Cycle

variable (s : CheckpointState) (x : SpeculationInput)

/-! ## The wires -/

def exbruCpbufId : Nat := x.issueBruFifoDataOut.checkpointId

/-- What the buffer offers to fetch, rename, execute and commit. -/
def checkpointed : SpeculationInput :=
  { x with
    front := { x.front with
      fetch := { x.front.fetch with
        cpbufFetchNewId := cpbufFetchNewId s.cpbuf
        cpbufFetchNewIdValid := cpbufFetchNewIdValid s.cpbuf }
      rename := { x.front.rename with
        cpbufRenameData := fun i => cpbufRenameData s.cpbuf
          ((frontEndRenameInput s.spec.front x.front).revPack i).checkpointId }
      loadStore := { x.front.loadStore with
        env := { x.front.loadStore.env with
          cpbufCommitData := fun i => cpbufCommitData s.cpbuf
            (commitCpbufId (speculationCommitInput s.spec x) i) } } }
    cpbufExbruData := cpbufExbruData s.cpbuf (exbruCpbufId x) }

def checkpointFetchInput : FetchInput := speculationFetchInput s.spec (checkpointed s x)

def checkpointRenameInput : RenameInput :=
  frontEndRenameInput s.spec.front (checkpointed s x).front

def checkpointCommitInput : CommitInput := speculationCommitInput s.spec (checkpointed s x)

def checkpointBufferInput : CheckpointBufferInput where
  fetchCpbufData := fetchCpbufData (checkpointFetchInput s x)
  fetchCpbufPush := fetchCpbufPush s.spec.front.fetch (checkpointFetchInput s x)
  renameCpbufId := fun i => ((checkpointRenameInput s x).revPack i).checkpointId
  renameCpbufData := (checkpointRenameInput s x).newCp
  renameCpbufWe := (checkpointRenameInput s x).renameCpbufWe
  commitCpbufPop := commitCpbufPop s.spec.front.loadStore.commit (checkpointCommitInput s x)
  commitCpbufFlush := commitCpbufFlush s.spec.front.loadStore.commit (checkpointCommitInput s x)

/-! ## One cycle -/

def checkpointNext : CheckpointState where
  spec := speculationNext s.spec (checkpointed s x)
  cpbuf := cpbufNext s.cpbuf (checkpointBufferInput s x)

/-! ## The accounting -/

/-- The predicted jumps between fetch and retirement, oldest first. -/
def predictedInFlight : List FetchDecodePack := (inFlight s.spec.front).filter (·.predicted)

/-- In the normal state the entries are those of the predicted jumps in flight, and the
first one is the oldest's. -/
def CheckpointsAccounted : Prop :=
  s.spec.front.loadStore.commit.curState = .normal →
    occupancy checkpointBufferSize s.cpbuf.rptr s.cpbuf.wptr = (predictedInFlight s).length ∧
      ∀ p ∈ (predictedInFlight s).head?,
        p.checkpointId = slot checkpointBufferSize s.cpbuf.rptr

/-- A full flush in this cycle leaves no entry. -/
def FlushEmpties : Prop :=
  fullyFlushed s.spec (checkpointed s x) = true →
    occupancy checkpointBufferSize (checkpointNext s x).cpbuf.rptr
      (checkpointNext s x).cpbuf.wptr = 0

def CheckpointAllowed : Prop := SpeculationAllowed s.spec (checkpointed s x)

/-- No flush but that of a misprediction discards a predicted jump. -/
def CheckpointsReturned : Prop :=
  (speculationFeedback s.spec (checkpointed s x)).flushing = true →
    s.spec.front.loadStore.commit.curState = .normal →
    retireIsMiss s.spec.front.loadStore.commit (checkpointCommitInput s x) = false →
    ∀ p ∈ squashedBy s.spec (checkpointed s x), p.predicted = false

end Cycle

end DreamCore.Model
