import DreamCore.Cpp.Rob
import DreamCore.Rtl.Rat

/-!
# The rename stage of the C++ model (`rename.cpp`, `rat.h`)

`rename::run` renames up to four instructions in a loop.  It reads the alias table as
it was before the cycle, queues `set_map` requests, and keeps a copy of the table up to
date for the checkpoints.  A failed assertion ends the run without a result.
-/

namespace DreamCore.Cpp

open DreamCore.Rtl

/-! ## The alias table -/

section Rat

variable (s : RatState)

/-- The loop of `get_free_phy_id` with `rows` rows left. -/
def freeScan (num : Nat) : Nat → List Nat → List Nat
  | 0, found => found
  | rows + 1, found =>
      if s.mapValid (phyRegNum - (rows + 1)) then freeScan num rows found
      else if num ≤ found.length + 1 then found ++ [phyRegNum - (rows + 1)]
      else freeScan num rows (found ++ [phyRegNum - (rows + 1)])

def getFreePhyId (num : Nat) : List Nat := freeScan s num phyRegNum []

/-- `get_phy_id` and `cp_get_phy_id`: the row that stands for a register, if any. -/
def findPhyId (arch : Nat) : Option (Option Nat) :=
  if 0 < arch ∧ arch < archRegNum then
    match (List.range phyRegNum).filter (camArchIdCmp s arch) with
    | [] => some none
    | [p] => some (some p)
    | _ => none
  else none

/-- `get_phy_id` under the assertion that it finds a row. -/
def getPhyId (arch : Nat) : Option Nat := (findPhyId s arch).bind id

/-- The writes that `set_map` and `cp_set_map` share. -/
def setRow (arch phy : Nat) (old : Option Nat) : RatState where
  mapTable := Function.update s.mapTable phy arch
  mapValid := Function.update s.mapValid phy true
  mapVisible :=
    match old with
    | some p => Function.update (Function.update s.mapVisible phy true) p false
    | none => Function.update s.mapVisible phy true

def cpSetMap (arch phy : Nat) : Option RatState :=
  if phy < phyRegNum ∧ s.mapValid phy = false then
    (findPhyId s arch).map (setRow s arch phy)
  else none

def setMap (arch phy : Nat) : Option RatState :=
  if phy < phyRegNum ∧ s.mapValid phy = false then
    (getPhyId s arch).map fun old => setRow s arch phy (some old)
  else none

/-- The assertions of `set_map_sync`. -/
def setMapSyncAllowed (arch phy : Nat) : Bool :=
  decide (phy < phyRegNum) && decide (0 < arch) && decide (arch < archRegNum)

/-- `sync`: the queued requests, in order. -/
def syncMaps (requests : List (Nat × Nat)) : Option RatState :=
  requests.foldlM (fun t request => setMap t request.1 request.2) s

end Rat

/-! ## The reorder buffer -/

def Rob.getSize (r : Rob) : Nat :=
  if r.isFull then r.size else (r.wptr + r.size - r.rptr) % r.size

def Rob.getFreeSpace (r : Rob) : Nat := r.size - r.getSize

/-- The id a pushed entry gets and the pointers behind it. -/
def Rob.push (r : Rob) : Option (Nat × Rob) :=
  if r.isFull then none
  else if r.size ≤ r.wptr + 1 then some (r.wptr, { r with wptr := 0, wstage := !r.wstage })
  else some (r.wptr, { r with wptr := r.wptr + 1 })

/-! ## The mapping loop -/

/-- The variables of the loop and what it has queued so far: the rest of
`decode_rename_fifo`, the pushed entries with their ids, `send_pack.op_info`, the
`set_map_sync` requests, `global_cp` and the checkpoints written. -/
structure RenameRun where
  fifo : List DecodeRenamePack
  phyRegReqCnt : Nat
  usedPhyRegCnt : Nat
  rob : Rob
  robItems : List (Nat × RobItem)
  opInfo : List RenameReadregOpInfo
  setMaps : List (Nat × Nat)
  globalCp : RatState
  cpWrites : List (Nat × Checkpoint)

def renameStart (s : RatState) (rob : Rob) (fifo : List DecodeRenamePack) : RenameRun where
  fifo := fifo
  phyRegReqCnt := 0
  usedPhyRegCnt := 0
  rob := rob
  robItems := []
  opInfo := []
  setMaps := []
  globalCp := s
  cpWrites := []

/-- What the branch `rev_pack.need_rename` leaves: `rob_item.old_phy_reg_id_valid`,
`rob_item.old_phy_reg_id` and `rd_phy`. -/
structure Destination where
  oldPhyRegIdValid : Bool
  oldPhyRegId : Nat
  rdPhy : Nat

/-- The old register feedback: the newest renamed instruction with this destination. -/
def oldPhyFeedback (sent : List RenameReadregOpInfo) (rd old : Nat) : Nat :=
  match sent.reverse.find? fun op =>
      op.enable && op.valid && op.needRename && decide (rd = op.rd) with
  | some op => op.rdPhy
  | none => old

/-- The source register feedback: later instructions overwrite earlier ones. -/
def srcPhyFeedback (sent : List RenameReadregOpInfo) (arch phy : Nat) : Nat :=
  sent.foldl (fun phy op =>
    if op.enable && op.valid && op.rdEnable && decide (arch = op.rd) then op.rdPhy else phy) phy

section Loop

variable (s : RatState) (cpbuf : Nat → Checkpoint)

def renameDestination (r : RenameRun) (rev : DecodeRenamePack) (newPhyRegId : List Nat) :
    Option (Destination × RenameRun) :=
  if rev.valid && rev.needRename then
    (getPhyId s rev.rd).bind fun old =>
      let rdPhy := newPhyRegId.getD r.usedPhyRegCnt 0
      if setMapSyncAllowed rev.rd rdPhy then
        (cpSetMap r.globalCp rev.rd rdPhy).map fun cp =>
          (⟨true, oldPhyFeedback r.opInfo rev.rd old, rdPhy⟩,
            { r with
              usedPhyRegCnt := r.usedPhyRegCnt + 1
              setMaps := r.setMaps ++ [(rev.rd, rdPhy)]
              globalCp := cp })
      else none
  else some (⟨false, 0, 0⟩, r)

/-- The entry for the reorder buffer; the other members stay zero. -/
def renameRobItem (rev : DecodeRenamePack) (d : Destination) : RobItem :=
  { RobItem.zero with
    newPhyRegId := d.rdPhy
    oldPhyRegId := d.oldPhyRegId
    oldPhyRegIdValid := d.oldPhyRegIdValid
    finish := false
    pc := rev.pc
    instValue := rev.value
    hasException := rev.hasException
    exceptionId := rev.exceptionId
    exceptionValue := rev.exceptionValue
    isMret := decide (rev.op = .mret)
    csrAddr := rev.csr }

/-- A source register: the table's row, then the feedback of an accepted instruction. -/
def renameSource (r : RenameRun) (rev : DecodeRenamePack) (needMap : Bool) (arch : Nat) :
    Option Nat :=
  if needMap then
    (getPhyId s arch).map fun phy =>
      if rev.valid then srcPhyFeedback r.opInfo arch phy else phy
  else some 0

/-- The checkpoint of a predicted branch: the copy of the table with its old histories. -/
def renameCheckpoint (globalCp : RatState) (rev : DecodeRenamePack) :
    List (Nat × Checkpoint) :=
  if rev.valid && rev.predicted && rev.checkpointIdValid then
    [(rev.checkpointId,
      { ratPhyMapTableValid := globalCp.mapValid
        ratPhyMapTableVisible := globalCp.mapVisible
        globalHistory := (cpbuf rev.checkpointId).globalHistory
        localHistory := (cpbuf rev.checkpointId).localHistory })]
  else []

/-- The body of the loop behind the `pop`. -/
def renameOne (r : RenameRun) (rev : DecodeRenamePack) (newPhyRegId : List Nat) :
    Option RenameRun :=
  if rev.enable then
    (renameDestination s r rev newPhyRegId).bind fun (d, next) =>
      (Rob.push r.rob).bind fun (id, rob) =>
        (renameSource s r rev rev.rs1NeedMap rev.rs1).bind fun rs1Phy =>
          (renameSource s r rev rev.rs2NeedMap rev.rs2).map fun rs2Phy =>
            { next with
              rob := rob
              robItems := r.robItems ++ [(id, renameRobItem rev d)]
              opInfo := r.opInfo ++ [⟨rev, id, rs1Phy, rs2Phy, d.rdPhy⟩]
              cpWrites := r.cpWrites ++ renameCheckpoint cpbuf next.globalCp rev }
  else some { r with opInfo := r.opInfo ++ [⟨rev, 0, 0, 0, 0⟩] }

/-- The loop with `slots` iterations left. -/
def renameLoop : Nat → RenameRun → Option RenameRun
  | 0, r => some r
  | slots + 1, r =>
      match r.fifo with
      | [] => some r
      | rev :: rest =>
          let need := rev.enable && rev.valid && rev.needRename
          let r := { r with phyRegReqCnt := r.phyRegReqCnt + need.toNat }
          let newPhyRegId := getFreePhyId s r.phyRegReqCnt
          if r.phyRegReqCnt ≤ newPhyRegId.length ∧ 1 ≤ r.rob.getFreeSpace then
            (renameOne s cpbuf { r with fifo := rest } rev newPhyRegId).bind (renameLoop slots)
          else some r

/-- `rename::run`: nothing is renamed while issue stalls or commit flushes. -/
def renameRun (rob : Rob) (fifo : List DecodeRenamePack) (stall flush : Bool) :
    Option RenameRun :=
  if !flush && !stall then renameLoop s cpbuf renameWidth (renameStart s rob fifo)
  else some (renameStart s rob fifo)

end Loop

end DreamCore.Cpp
