import DreamCore.Model.ReorderBuffer
import DreamCore.Rtl.Rename
import DreamCore.Rtl.Rat
import DreamCore.Rtl.PhyRegfile
import DreamCore.Rtl.Wb

/-!
# Rename, alias table, register file and commit together

One step is one clock cycle.  The decoded instructions, the results of the
execution units and the interrupt lines are inputs; the reorder buffer is the
in-order list or `rob.sv`.  Each entry remembers the instruction rename received, the
map right before it was renamed and the checkpoint rename computed after it.
-/

namespace DreamCore.Model

open DreamCore.Rtl

structure InFlight where
  op : DecodeRenamePack
  mapBefore : Nat → Nat
  checkpoint : Checkpoint

structure BackendState where
  rat : RatState
  phyf : PhyRegfileState
  commit : CommitState
  rob : ReorderBuffer InFlight
  wbPort : Nat → ExecuteWbPack

structure BackendInput where
  bundle : List DecodeRenamePack
  issueFeedbackStall : Bool
  intifCommitHasInterrupt : Bool
  intifCommitMcauseData : Nat
  intifCommitAckData : Nat
  csrfCommitReadData : Nat
  csrfAllMstatusData : Nat
  executeWb : Nat → ExecuteWbPack
  cpbufRenameData : Nat → Checkpoint
  stale : Nat → RobItem

def backendReset : BackendState where
  rat := ratReset
  phyf := phyRegfileReset
  commit := commitReset
  rob := .reset none
  wbPort := fun _ => ExecuteWbPack.zero

/-- The reset state with `rob.sv` in its place, whatever its entries hold. -/
def backendRtlReset (buffer : Nat → RobItem) : BackendState :=
  { backendReset with rob := .reset (some buffer) }

/-- A slot of the decode FIFO without data. -/
def emptySlot : DecodeRenamePack := ExecuteWbPack.zero.toDecodeRenamePack

section Cycle

variable (cp : Nat → Checkpoint) (s : BackendState) (input : BackendInput)

def backendCommitInput : CommitInput where
  rob := s.rob.view input.stale
  intifCommitHasInterrupt := input.intifCommitHasInterrupt
  intifCommitMcauseData := input.intifCommitMcauseData
  intifCommitAckData := input.intifCommitAckData
  csrfCommitReadData := input.csrfCommitReadData
  csrfAllMstatusData := input.csrfAllMstatusData
  cpbufCommitData := cp
  wbCommitPortDataOut := s.wbPort

def backendFeedback : CommitFeedbackPack :=
  commitFeedbackPack s.commit (backendCommitInput cp s input)

def backendRenameInput : RenameInput where
  decodeRenameFifoDataOut := fun i => input.bundle.getD i emptySlot
  decodeRenameFifoDataOutValid := fun i => decide (i < input.bundle.length)
  cpbufRenameData := input.cpbufRenameData
  ratRenameNewPhyId := ratRenameNewPhyId s.rat
  ratRenameNewPhyIdValid := ratRenameNewPhyIdValid s.rat
  ratRenameMapTableValid := s.rat.mapValid
  ratRenameMapTableVisible := s.rat.mapVisible
  ratRenameReadPhyId := ratReadPhyId s.rat
  robRenameNewId := s.rob.newId
  robRenameNewIdValid := s.rob.newIdValid
  issueFeedbackStall := input.issueFeedbackStall
  commitFeedbackPack := backendFeedback cp s input

/-- The register map before slot `i`: the table's, changed by the earlier slots. -/
def bundleMap (r : RenameInput) : Nat → Nat → Nat
  | 0 => r.ratRenameReadPhyId
  | i + 1 =>
      if r.renameRatPhyIdValid i then
        Function.update (bundleMap r i) (r.revPack i).rd (r.newPhyId i)
      else bundleMap r i

/-- The entry rename pushes for slot `i`. -/
def pushedEntry (r : RenameInput) (i : Nat) : Entry InFlight where
  item := r.robItem i
  tag := { op := r.revPack i, mapBefore := bundleMap r i, checkpoint := r.newCp i }

def pushedEntries (r : RenameInput) : List (Entry InFlight) :=
  if r.renameRobPush then
    ((List.range renameWidth).filter r.renameRobDataValid).map (pushedEntry r)
  else []

def backendRatInput : RatInput :=
  let c := backendCommitInput cp s input
  let r := backendRenameInput cp s input
  { renameRatPhyId := r.newPhyId
    renameRatPhyIdValid := r.renameRatPhyIdValid
    renameRatArchId := fun i => (r.revPack i).rd
    renameRatMap := r.renameRatMap
    commitRatReleasePhyId := commitRatReleasePhyId c
    commitRatReleasePhyIdValid := commitRatReleasePhyIdValid s.commit c
    commitRatReleaseMap := commitRatReleaseMap s.commit c
    commitRatRestoreNewPhyId := (commitRobFlushData s.commit c).newPhyRegId
    commitRatRestoreOldPhyId := (commitRobFlushData s.commit c).oldPhyRegId
    commitRatRestoreMap := commitRatRestoreMap s.commit c
    commitRatMapTableValid := commitRatMapTableVisible s.commit c
    commitRatMapTableVisible := commitRatMapTableVisible s.commit c
    commitRatMapTableRestore := commitRatMapTableRestore s.commit c }

def backendPhyfInput : PhyRegfileInput :=
  let c := backendCommitInput cp s input
  { wbPhyfId := fun j => (input.executeWb j).rdPhy
    wbPhyfData := fun j => (input.executeWb j).rdValue
    wbPhyfWe := wbPhyfWe (backendFeedback cp s input) input.executeWb
    commitPhyfId := commitRatReleasePhyId c
    commitPhyfInvalid := commitPhyfInvalid s.commit c
    commitPhyfFlushId := (commitRobFlushData s.commit c).newPhyRegId
    commitPhyfFlushInvalid := commitRatRestoreMap s.commit c
    commitPhyfDataValid := commitRatMapTableVisible s.commit c
    commitPhyfDataValidRestore := commitRatMapTableRestore s.commit c }

def backendUpdate (k : Nat) (e : Entry InFlight) : Entry InFlight :=
  { e with item := robItemWritten s.commit (backendCommitInput cp s input) (s.rob.idAt k) e.item }

def backendRobInput : RobInput :=
  robInputOf s.commit (backendCommitInput cp s input)
    (renameOffer (backendRenameInput cp s input))

/-- One cycle, with `cp` as the checkpoint data commit reads for each retire slot. -/
def backendNextWith : BackendState where
  rat := ratNext s.rat (backendRatInput cp s input)
  phyf := phyRegfileNext s.phyf (backendPhyfInput cp s input)
  commit := commitNext s.commit (backendCommitInput cp s input)
  rob := s.rob.next (backendUpdate cp s input)
    (popCount s.commit (backendCommitInput cp s input))
    (pushedEntries (backendRenameInput cp s input))
    (commitRobFlush s.commit (backendCommitInput cp s input)) (backendRobInput cp s input)
  wbPort := wbCommitPortNext (backendFeedback cp s input) input.executeWb

end Cycle

/-- The checkpoint rename computed for the instruction in retire slot `i`. -/
def entryCheckpoint (s : BackendState) (i : Nat) : Checkpoint :=
  ((s.rob.entries[i]?).map (·.tag.checkpoint)).getD Checkpoint.zero

/-- One cycle in which every checkpoint still holds what rename wrote. -/
def backendNext (s : BackendState) (input : BackendInput) : BackendState :=
  backendNextWith (entryCheckpoint s) s input

end DreamCore.Model
