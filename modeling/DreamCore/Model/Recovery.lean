import DreamCore.Model.Backend

/-!
# Rename and commit with the checkpoint buffer

The checkpoints of branches in flight live in the checkpoint buffer: rename reads
the histories and writes the tables at the branch's id, commit reads the id its
retire slot holds.  Fetch's push is an input.  The reorder buffer is `rob.sv`.
-/

namespace DreamCore.Model

open DreamCore.Rtl

structure RecoveryState where
  backend : BackendState
  cpbuf : CheckpointBufferState

structure RecoveryInput where
  backend : BackendInput
  fetchCpbufData : Checkpoint
  fetchCpbufPush : Bool

def recoveryReset (robBuffer : Nat → RobItem) (buffer : Nat → Checkpoint) : RecoveryState :=
  ⟨backendRtlReset robBuffer, cpbufReset buffer⟩

section Cycle

variable (s : RecoveryState) (input : RecoveryInput)

/-- The data for commit's slots.  The ids commit sends do not depend on the answer. -/
def recoveryCommitData (i : Nat) : Checkpoint :=
  let c := backendCommitInput (fun _ => Checkpoint.zero) s.backend input.backend
  cpbufCommitData s.cpbuf (commitCpbufId c i)

/-- Rename reads the buffer at the ids of the offered bundle. -/
def recoveryBackendInput : BackendInput :=
  { input.backend with
    cpbufRenameData := fun i =>
      cpbufRenameData s.cpbuf (input.backend.bundle.getD i emptySlot).checkpointId }

def recoveryCommitInput : CommitInput :=
  backendCommitInput (recoveryCommitData s input) s.backend (recoveryBackendInput s input)

def recoveryRenameInput : RenameInput :=
  backendRenameInput (recoveryCommitData s input) s.backend (recoveryBackendInput s input)

def recoveryCpbufInput : CheckpointBufferInput where
  fetchCpbufData := input.fetchCpbufData
  fetchCpbufPush := input.fetchCpbufPush
  renameCpbufId := fun i => ((recoveryRenameInput s input).revPack i).checkpointId
  renameCpbufData := (recoveryRenameInput s input).newCp
  renameCpbufWe := (recoveryRenameInput s input).renameCpbufWe
  commitCpbufPop := commitCpbufPop s.backend.commit (recoveryCommitInput s input)
  commitCpbufFlush := commitCpbufFlush s.backend.commit (recoveryCommitInput s input)

def recoveryNext : RecoveryState where
  backend :=
    backendNextWith (recoveryCommitData s input) s.backend (recoveryBackendInput s input)
  cpbuf := cpbufNext s.cpbuf (recoveryCpbufInput s input)

end Cycle

end DreamCore.Model
