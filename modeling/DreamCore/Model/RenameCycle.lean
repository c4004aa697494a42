import DreamCore.Cpp.Rename
import DreamCore.Model.Backend

/-!
# One cycle of rename between its neighbours

The alias table, the reorder buffer and the decode FIFO as rename finds them, and what
it leaves in them; commit does nothing in this cycle.  `inOrder` is the table after the
first instructions of the bundle have been renamed one after another.
-/

namespace DreamCore.Model

open DreamCore.Rtl

structure RenameCycle where
  rat : RatState
  rob : RobState
  fifo : List DecodeRenamePack
  cpbuf : Nat → Checkpoint
  issueFeedbackStall : Bool
  commitFeedbackPack : CommitFeedbackPack

namespace RenameCycle

variable (x : RenameCycle)

def slotOp (i : Nat) : DecodeRenamePack := x.fifo.getD i emptySlot

def input : RenameInput where
  decodeRenameFifoDataOut := x.slotOp
  decodeRenameFifoDataOutValid := fun i => decide (i < x.fifo.length)
  cpbufRenameData := fun i => x.cpbuf (x.slotOp i).checkpointId
  ratRenameNewPhyId := ratRenameNewPhyId x.rat
  ratRenameNewPhyIdValid := ratRenameNewPhyIdValid x.rat
  ratRenameMapTableValid := x.rat.mapValid
  ratRenameMapTableVisible := x.rat.mapVisible
  ratRenameReadPhyId := ratReadPhyId x.rat
  robRenameNewId := robRenameNewId x.rob
  robRenameNewIdValid := robRenameNewIdValid x.rob
  issueFeedbackStall := x.issueFeedbackStall
  commitFeedbackPack := x.commitFeedbackPack

/-- `decode_rename_fifo_pop`, `rename_rat_map` and `rename_rob_push` are one signal. -/
def active : Bool := x.input.renameRatMap

/-- `data_out_num` of the decode FIFO, if it pops. -/
def popNum : Nat :=
  if x.active then
    countOneContinuous renameWidth fun i =>
      decide (i < x.fifo.length) && x.input.sendEnable i
  else 0

def robInput : RobInput where
  renameRobData := x.input.robItem
  renameRobDataValid := x.input.renameRobDataValid
  renameRobPush := x.input.renameRobPush
  commitRobInputId := fun _ => 0
  commitRobInputData := fun _ => RobItem.zero
  commitRobInputDataWe := fun _ => false
  commitRobRetireId := fun _ => 0
  commitRobRetirePop := fun _ => false
  commitRobFlush := false

def ratInput : RatInput where
  renameRatPhyId := x.input.newPhyId
  renameRatPhyIdValid := x.input.renameRatPhyIdValid
  renameRatArchId := fun i => (x.input.revPack i).rd
  renameRatMap := x.input.renameRatMap
  commitRatReleasePhyId := fun _ => 0
  commitRatReleasePhyIdValid := fun _ => false
  commitRatReleaseMap := false
  commitRatRestoreNewPhyId := 0
  commitRatRestoreOldPhyId := 0
  commitRatRestoreMap := false
  commitRatMapTableValid := fun _ => false
  commitRatMapTableVisible := fun _ => false
  commitRatMapTableRestore := false

def flushes : Bool := x.commitFeedbackPack.enable && x.commitFeedbackPack.flush

def cppRun : Option Cpp.RenameRun :=
  Cpp.renameRun x.rat x.cpbuf (Cpp.robOfRtl x.rob) x.fifo x.issueFeedbackStall x.flushes

end RenameCycle

/-! ## One after another -/

/-- A fresh row stands for a register, the row that stood for it no longer does. -/
def remap (t : RatState) (arch phy : Nat) : RatState where
  mapTable := Function.update t.mapTable phy arch
  mapValid := Function.update t.mapValid phy true
  mapVisible := Function.update (Function.update t.mapVisible phy true) (ratReadPhyId t arch) false

/-- The table after the first `n` instructions, of which those with `need` are renamed. -/
def inOrder (s : RatState) (need : Nat → Bool) (arch phy : Nat → Nat) : Nat → RatState
  | 0 => s
  | n + 1 =>
      if need n then remap (inOrder s need arch phy n) (arch n) (phy n)
      else inOrder s need arch phy n

end DreamCore.Model
