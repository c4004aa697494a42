import DreamCore.Proofs.CheckpointContents
import DreamCore.Proofs.CppRename
import DreamCore.Proofs.RegisterMap
import DreamCore.Proofs.Results

/-!
# Four at once or one after another

Rename takes up to four instructions a cycle.  When it takes a prefix of the bundle,
has ids and registers for it, and does nothing for a rejected instruction that the loop of
the C++ model does not do, it leaves exactly what that loop leaves.
-/

namespace DreamCore.Proofs

open DreamCore.Cpp DreamCore.Model DreamCore.Ring DreamCore.Rtl

/-! ## The same cycle twice -/

/-- A sent instruction without the ids of registers that its word does not name. -/
def renamedOp (op : RenameReadregOpInfo) : RenameReadregOpInfo :=
  { op with
    rs1Phy := if op.rs1NeedMap then op.rs1Phy else 0
    rs2Phy := if op.rs2NeedMap then op.rs2Phy else 0
    rdPhy := if op.valid && op.needRename then op.rdPhy else 0 }

/-- An entry without the register ids that nobody looks at. -/
def renamedItem (item : RobItem) : RobItem :=
  { item with
    newPhyRegId := if item.oldPhyRegIdValid then item.newPhyRegId else 0
    oldPhyRegId := if item.oldPhyRegIdValid then item.oldPhyRegId else 0 }

/-- The channels whose destination is given a register. -/
def givenRegisters (x : RenameCycle) : List (Nat × Nat) :=
  ((List.range renameWidth).filter fun i => x.active && x.input.renameRatPhyIdValid i).map
    fun i => ((x.input.revPack i).rd, x.input.newPhyId i)

/-- What the write ports of the checkpoint buffer get. -/
def writtenCheckpoints (x : RenameCycle) : List (Nat × Checkpoint) :=
  ((List.range renameWidth).filter x.input.renameCpbufWe).map fun i =>
    ((x.input.revPack i).checkpointId, x.input.newCp i)

/-- The hardware takes as many instructions as the loop, and leaves the same. -/
structure RenamedAs (x : RenameCycle) (out : RenameRun) : Prop where
  enabled : ∀ i, i < renameWidth →
    (x.active && x.input.sendEnable i) = decide (i < out.opInfo.length)
  valid : out.opInfo.length ≤ x.fifo.length
  popped : x.fifo.drop x.popNum = out.fifo
  pointers : robOfRtl (robNext x.rob x.robInput) = out.rob
  entries : out.robItems = (List.range out.opInfo.length).map fun i => (robRenameNewId x.rob i,
    renamedItem ((robNext x.rob x.robInput).buffer (robRenameNewId x.rob i)))
  sent : out.opInfo.map renamedOp =
    (List.range out.opInfo.length).map fun i => renamedOp (x.input.sendPack i)
  given : out.setMaps = givenRegisters x
  tables : ∃ t, syncMaps x.rat out.setMaps = some t ∧ ∀ p, p < phyRegNum →
    (ratNext x.rat x.ratInput).mapTable p = t.mapTable p ∧
      (ratNext x.rat x.ratInput).mapValid p = t.mapValid p ∧
      (ratNext x.rat x.ratInput).mapVisible p = t.mapVisible p
  checkpoints : out.cpWrites = writtenCheckpoints x

def RenamesInOrder (x : RenameCycle) : Prop :=
  ∃ out, x.cppRun = some out ∧ RenamedAs x out

/-- The instruction has a source that stands for this register. -/
def HasSource (op : DecodeRenamePack) (arch : Nat) : Prop :=
  op.rs1NeedMap = true ∧ op.rs1 = arch ∨ op.rs2NeedMap = true ∧ op.rs2 = arch

/-- Nothing stands behind an instruction for which no register is left, and granted ids are
free.  No rejected instruction has a destination or reads the destination of an earlier one,
and checkpoints belong to accepted predicted branches. -/
structure BundleFits (x : RenameCycle) : Prop where
  registers : ∀ i j, i < j → j < renameWidth → Starved x i → ¬Offered x j
  entries : ∀ i, i < renameWidth → Offered x i → robOccupancy x.rob + i < robSize
  accepted : ∀ i, i < renameWidth → Offered x i → ¬RejectedDest x i
  sources : ∀ i, i < renameWidth → Offered x i → (x.slotOp i).valid = false →
    ∀ j, j < i → x.input.newPhyIdNeed j = true → ¬HasSource (x.slotOp i) (x.slotOp j).rd
  checkpoints : ∀ i, i < renameWidth → Offered x i → (x.slotOp i).checkpointIdValid = true →
    (x.slotOp i).valid = true ∧ (x.slotOp i).predicted = true

section Cycle

variable {x : RenameCycle} {m : Nat}

/-! ## Nothing is renamed -/

theorem active_eq (x : RenameCycle) : x.active = (!x.flushes && !x.issueFeedbackStall) := rfl

theorem robNext_idle (h : CycleOk x) (hactive : x.active = false) :
    robOfRtl (robNext x.rob x.robInput) = robOfRtl x.rob := by
  have hr : x.rob.rptr < 2 * robSize := h.rob.rptr_lt
  have hrptr : (robNext x.rob x.robInput).rptr = x.rob.rptr := by
    show (if robEmpty x.rob then x.rob.rptr else (x.rob.rptr + 0) % (2 * robSize)) = _
    rw [Nat.add_zero, Nat.mod_eq_of_lt hr, ite_self]
  have hwptr : (robNext x.rob x.robInput).wptr = x.rob.wptr := by
    show (if robFull x.rob then x.rob.wptr else if x.active then _ else x.rob.wptr) = _
    rw [hactive, if_neg Bool.false_ne_true, ite_self]
  rw [robOfRtl, hrptr, hwptr]
  rfl

/-- The table of the next cycle; commit does nothing to it. -/
theorem ratNext_rows (x : RenameCycle) (p : Nat) :
    (ratNext x.rat x.ratInput).mapTable p =
        (if newArchIdValid x.ratInput p && x.active then newArchId x.ratInput p
        else x.rat.mapTable p) ∧
      (ratNext x.rat x.ratInput).mapValid p =
        (if newArchIdValid x.ratInput p && x.active then true else x.rat.mapValid p) ∧
      (ratNext x.rat x.ratInput).mapVisible p =
        (if hidePhyId x.rat x.ratInput p && x.active then false
        else if visibleEnable x.ratInput p && x.active then true else x.rat.mapVisible p) := by
  have hrestore : x.ratInput.commitRatMapTableRestore = false := rfl
  have hwalk : x.ratInput.commitRatRestoreMap = false := rfl
  have hrelease : x.ratInput.commitRatReleaseMap = false := rfl
  refine ⟨rfl, ?_, ?_⟩
  · simp only [ratNext, mapValidNext, hrestore, hwalk, hrelease, Bool.and_false,
      Bool.false_eq_true, if_false]
    rfl
  · simp only [ratNext, mapVisibleNext, hrestore, hwalk, Bool.and_false, Bool.false_eq_true,
      if_false]
    rfl

theorem renamedAs_idle (h : CycleOk x) (hactive : x.active = false) : RenamesInOrder x := by
  have hrun : x.cppRun = some (renameStart x.rat (robOfRtl x.rob) x.fifo) := by
    rw [RenameCycle.cppRun, renameRun, ← active_eq, hactive, if_neg Bool.false_ne_true]
  refine ⟨_, hrun, fun i _ => ?_, Nat.zero_le _, ?_, robNext_idle h hactive, rfl, rfl, ?_,
    ⟨x.rat, rfl, fun p _ => ?_⟩, ?_⟩
  · rw [hactive, Bool.false_and]
    rfl
  · rw [RenameCycle.popNum, hactive, if_neg Bool.false_ne_true]
    rfl
  · simp [givenRegisters, hactive, renameStart]
  · simpa only [hactive, Bool.and_false, Bool.false_eq_true, if_false] using ratNext_rows x p
  · have hwe : ∀ i, x.input.renameCpbufWe i = false := fun i => by
      show (x.active && x.input.sendEnable i && _) = false
      rw [hactive, Bool.false_and, Bool.false_and]
    rw [writtenCheckpoints, List.filter_eq_nil_iff.2 fun i _ => by rw [hwe]; decide]
    rfl

/-! ## What the hardware takes -/

/-- The loop takes the first `m` instructions, and `m` is where it has to stop. -/
theorem cppRun_eq (h : CycleOk x) (hactive : x.active = true) :
    ∃ m cnt, x.cppRun = some { loopState x m with phyRegReqCnt := cnt } ∧ m ≤ renameWidth ∧
      m ≤ x.fifo.length ∧ (∀ j, j < m → CanRename x j) ∧
        (m < renameWidth → m < x.fifo.length → ¬CanRename x m) := by
  have hfits : robOccupancy x.rob ≤ robSize := h.rob.fits
  obtain ⟨m, cnt, hrun, _, hm, hlen, hall, hstop⟩ := renameLoop_eq h (Nat.zero_add renameWidth)
    (Nat.zero_le _) (Nat.zero_le _) hfits
  refine ⟨m, cnt, ?_, hm, hlen, fun j hj => hall j (Nat.zero_le j) hj, hstop⟩
  rw [RenameCycle.cppRun, renameRun, ← active_eq, hactive, if_pos rfl, renameStart_eq h, hrun]

theorem canRename_iff (h : CycleOk x) (hm : m < renameWidth) (hlen : m < x.fifo.length)
    (hleft : needBefore x m ≤ (freeList x.rat).length) (hroom : robOccupancy x.rob + m < robSize) :
    CanRename x m ↔ Offered x m := by
  have hgrant : robRenameNewIdValid x.rob m = true := (robNewIdValid_iff h.rob hm).2 (Or.inr hroom)
  rw [CanRename, Offered, Starved, needBefore_succ]
  cases hneed : x.input.newPhyIdNeed m with
  | false => simp [hlen, hgrant, hroom, hleft]
  | true =>
      simp only [hlen, hgrant, hroom, true_and, and_true, Nat.not_le]
      exact Nat.add_one_le_iff

theorem leftBefore (hall : ∀ j, j < m → CanRename x j) :
    needBefore x m ≤ (freeList x.rat).length := by
  cases m with
  | zero => exact Nat.zero_le _
  | succ m => exact (hall m (Nat.lt_succ_self m)).1

/-- Under the conditions the hardware takes what the loop takes. -/
theorem sendEnable_eq (h : CycleOk x) (hfits : BundleFits x) (hm : m ≤ renameWidth)
    (hlen : m ≤ x.fifo.length) (hall : ∀ j, j < m → CanRename x j)
    (hstop : m < renameWidth → m < x.fifo.length → ¬CanRename x m) {i : Nat}
    (hi : i < renameWidth) : x.input.sendEnable i = decide (i < m) := by
  rw [Bool.eq_iff_iff, sendEnable_iff_offered h hi, decide_eq_true_iff]
  constructor
  · intro hoffered
    by_contra hge
    have hroom := hfits.entries i hi hoffered
    have hcan := hstop (by omega) (by have := hoffered.1; omega)
    rw [canRename_iff h (by omega) (by have := hoffered.1; omega) (leftBefore hall)
      (by omega)] at hcan
    by_cases heq : i = m
    · exact hcan (heq ▸ hoffered)
    · refine hfits.registers m i (by omega) hi (by_contra fun hstarved => hcan ?_) hoffered
      exact ⟨by have := hoffered.1; omega, hstarved,
        (robNewIdValid_iff h.rob (by omega)).2 (Or.inr (by omega))⟩
  · intro hlt
    have hcan := hall i hlt
    exact (canRename_iff h hi (by omega) (leftBefore fun j hj => hall j (by omega)) hcan.2).1 hcan

/-! ## What it leaves -/

/-- The hardware takes the first `m` instructions, none of them rejected with a destination. -/
structure Takes (x : RenameCycle) (m : Nat) : Prop where
  active : x.active = true
  width : m ≤ renameWidth
  length : m ≤ x.fifo.length
  can : ∀ j, j < m → CanRename x j
  send : ∀ i, i < renameWidth → x.input.sendEnable i = decide (i < m)
  accepted : ∀ i, i < m → ¬RejectedDest x i

theorem Takes.left (ht : Takes x m) {n : Nat} (hn : n ≤ m) :
    needBefore x n ≤ (freeList x.rat).length :=
  leftBefore fun j hj => ht.can j (by omega)

/-- A register is given to the taken instructions that need one. -/
theorem request_iff (h : CycleOk x) (ht : Takes x m) {i : Nat} (hi : i < renameWidth) :
    x.input.renameRatPhyIdValid i = true ↔ i < m ∧ x.input.newPhyIdNeed i = true := by
  rw [RenameInput.renameRatPhyIdValid, ht.send i hi, Bool.and_eq_true, decide_eq_true_iff,
    need_iff h]
  refine and_congr_right fun him => ⟨fun hneed => ⟨?_, ?_, hneed⟩, fun hneed => hneed.2.2⟩
  · have := ht.length
    omega
  · by_contra hvalid
    exact ht.accepted i him ⟨Bool.eq_false_iff.2 hvalid, hneed⟩

theorem range_filter_lt {n : Nat} (hm : m ≤ n) (p : Nat → Bool) :
    (List.range n).filter (fun j => decide (j < m) && p j) = (List.range m).filter p :=
  filter_range_prefix hm fun _ _ => rfl

theorem given_eq (h : CycleOk x) (ht : Takes x m) : slotRequests x m = givenRegisters x := by
  rw [slotRequests, givenRegisters, ← range_filter_lt ht.width]
  refine congrArg (List.map _) (List.filter_congr fun i hi => ?_)
  rw [ht.active, Bool.true_and, Bool.eq_iff_iff, request_iff h ht (List.mem_range.1 hi),
    Bool.and_eq_true, decide_eq_true_iff]

theorem popNum_eq (ht : Takes x m) : x.popNum = m := by
  have hbits : ∀ i, i < renameWidth →
      (decide (i < x.fifo.length) && x.input.sendEnable i) = decide (i < m) := by
    intro i hi
    rw [ht.send i hi, ← Bool.decide_and, decide_eq_decide]
    have := ht.length
    omega
  have hwidth := ht.width
  rw [RenameCycle.popNum, ht.active, if_pos rfl, countOneContinuous,
    continuousSum_block hbits (by decide)]
  simp only [renameWidth] at *
  omega

/-! ### The reorder buffer -/

theorem dataValid_eq (h : CycleOk x) (ht : Takes x m) {i : Nat} (hi : i < renameWidth) :
    (x.input.renameRobDataValid i && robRenameNewIdValid x.rob i) = decide (i < m) := by
  have hsend := ht.send i hi
  rw [Bool.eq_iff_iff, decide_eq_true_iff, Bool.and_eq_true, RenameInput.renameRobDataValid,
    Bool.and_eq_true, hsend, decide_eq_true_iff]
  refine ⟨fun hall => hall.1.2, fun him => ?_⟩
  have hgrant := ((sendEnable_iff_offered h hi).1 (hsend.trans (decide_eq_true him))).2.2
  exact ⟨⟨hgrant, him⟩, hgrant⟩

theorem robNext_pointers (h : CycleOk x) (ht : Takes x m) :
    robOfRtl (robNext x.rob x.robInput) = robOfRtl (robAfter x.rob m) := by
  have hr : x.rob.rptr < 2 * robSize := h.rob.rptr_lt
  have hnum : robNewNum x.rob x.robInput = m :=
    countOne_block ht.width fun i hi => dataValid_eq h ht hi
  have hrptr : (robNext x.rob x.robInput).rptr = x.rob.rptr := by
    show (if robEmpty x.rob then x.rob.rptr else (x.rob.rptr + 0) % (2 * robSize)) = _
    rw [Nat.add_zero, Nat.mod_eq_of_lt hr, ite_self]
  have hwptr : (robNext x.rob x.robInput).wptr = (robAfter x.rob m).wptr := by
    show (if robFull x.rob then x.rob.wptr else if x.active then
      (x.rob.wptr + robNewNum x.rob x.robInput) % (2 * robSize) else x.rob.wptr) = _
    rw [ht.active, if_pos rfl, hnum]
    split
    · rename_i hfull
      have hocc : robOccupancy x.rob = robSize := by
        rw [robFull, Bool.and_eq_true, decide_eq_true_iff, decide_eq_true_iff] at hfull
        exact (full_iff h.rob.rptr_lt h.rob.wptr_lt).1 hfull
      have hzero : m = 0 := by
        by_contra hpos
        have := (ht.can 0 (by omega)).2
        omega
      rw [hzero, robAfter_zero h.rob]
    · rfl
  rw [robOfRtl, robOfRtl, hrptr, hwptr]
  rfl

theorem pushed_item (h : CycleOk x) (ht : Takes x m) {i : Nat} (hi : i < m) :
    (robNext x.rob x.robInput).buffer (robRenameNewId x.rob i) = x.input.robItem i := by
  have hwidth := ht.width
  have hvalid := dataValid_eq h ht (by omega : i < renameWidth)
  rw [decide_eq_true hi, Bool.and_eq_true] at hvalid
  have hcmp : ∀ j, j < renameWidth + wbWidth →
      (robWritePortAddrCmp x.rob x.robInput (robRenameNewId x.rob i) j = true ↔ j = i) := by
    intro j hj
    rw [robWritePortAddrCmp, robWriteChannelAddr, robWriteChannelEnable]
    by_cases hjw : j < renameWidth
    · rw [if_pos hjw, if_pos hjw, Bool.and_eq_true, decide_eq_true_iff, Bool.and_eq_true]
      constructor
      · rintro ⟨hid, _⟩
        simp only [robRenameNewId, slot, robSize, renameWidth] at *
        omega
      · rintro rfl
        exact ⟨rfl, anyBit_iff.2 ⟨j, hjw, hvalid.1⟩, hvalid.2⟩
    · rw [if_neg hjw, if_neg hjw, Bool.and_eq_true]
      refine iff_of_false (fun hwe => ?_) (by omega)
      exact Bool.false_ne_true hwe.2
  show robBufferNext x.rob x.robInput (robRenameNewId x.rob i) = _
  rw [robBufferNext, if_pos (anyBit_iff.2 ⟨i, by omega, (hcmp i (by omega)).2 rfl⟩),
    dataSelector_single robItem_zero_or robItem_or_zero (by omega) hcmp, robWriteChannelData,
    if_pos (by omega)]
  rfl

/-! ### Register ids -/

/-- The forwarding network reads the table behind the earlier slots. -/
theorem source_eq (h : CycleOk x) (ht : Takes x m) {i : Nat} (hi : i < m) {a : Nat}
    (ha : a ∈ archRegs) {cmp : Nat → Bool} (hcmp : ∀ j, cmp j = true ↔ j < i ∧
      (x.input.revEnable j = true ∧ (x.slotOp j).valid = true ∧ (x.slotOp j).rdEnable = true) ∧
        (x.slotOp j).rd = a) :
    x.input.phyFeedback cmp a = ratReadPhyId (slotTable x i) a := by
  have hwidth := ht.width
  refine phyFeedback_eq h (by omega) (ht.left (Nat.le_of_lt hi)) ha fun j => (hcmp j).trans ?_
  refine and_congr_right fun hj => and_congr_left fun hrd => ?_
  have hlen : j < x.fifo.length := by
    have := ht.length
    omega
  rw [need_iff_writes h hlen ha hrd, revEnable_eq h, decide_eq_true_iff]
  exact and_iff_right hlen

theorem sources_eq (h : CycleOk x) (ht : Takes x m) {i : Nat} (hi : i < m) :
    ((x.slotOp i).rs1NeedMap = true →
        (x.input.sendPack i).rs1Phy = ratReadPhyId (slotTable x i) (x.slotOp i).rs1) ∧
      ((x.slotOp i).rs2NeedMap = true →
        (x.input.sendPack i).rs2Phy = ratReadPhyId (slotTable x i) (x.slotOp i).rs2) := by
  have hlen := ht.length
  obtain ⟨hrs1, hrs2⟩ := slot_sources h (by omega : i < x.fifo.length)
  refine ⟨fun hneed => source_eq h ht hi (hrs1 hneed) fun j => ?_,
    fun hneed => source_eq h ht hi (hrs2 hneed) fun j => ?_⟩
  all_goals
    simp only [RenameInput.rs1PhyFeedbackCmp, RenameInput.rs2PhyFeedbackCmp, Bool.and_eq_true,
      decide_eq_true_eq, and_assoc]
    rfl

/-- The table behind the earlier slots names the old row of a register that none of them
writes, and no other: a new row was free. -/
theorem read_slotTable_iff (h : CycleOk x) {n : Nat} (hn : n ≤ renameWidth)
    (hleft : needBefore x n ≤ (freeList x.rat).length) {a : Nat} (ha : a ∈ archRegs) :
    ratReadPhyId (slotTable x n) a = ratReadPhyId x.rat a ↔
      ∀ j, j < n → x.input.newPhyIdNeed j = true → (x.slotOp j).rd ≠ a := by
  induction n with
  | zero => exact iff_of_true rfl fun j hj => absurd hj (Nat.not_lt_zero j)
  | succ n ih =>
      have hfresh := freshSlots h hn hleft
      rw [read_slotTable_succ h hn hleft ha]
      rw [needBefore_succ] at hleft
      by_cases hlast : x.input.newPhyIdNeed n = true ∧ (x.slotOp n).rd = a
      · rw [if_pos hlast]
        refine iff_of_false (fun heq => ?_) fun hnone =>
          hnone n (Nat.lt_succ_self n) hlast.1 hlast.2
        have hfree := hfresh.free n (Nat.lt_succ_self n) hlast.1
        rw [heq, (read_row h.rat ha).1] at hfree
        cases hfree
      · rw [if_neg hlast, ih (by omega) (by omega)]
        refine ⟨fun hnone j hj hneed => ?_, fun hnone j hj => hnone j (by omega)⟩
        rcases Nat.lt_succ_iff_lt_or_eq.1 hj with hlt | rfl
        · exact hnone j hlt hneed
        · exact fun hrd => hlast ⟨hneed, hrd⟩

/-- The loop names the same row, unless a rejected instruction reads what an earlier one
writes. -/
theorem slotSource_iff (h : CycleOk x) (ht : Takes x m) {i : Nat} (hi : i < m) {a : Nat}
    (ha : a ∈ archRegs) : slotSource x i true a = ratReadPhyId (slotTable x i) a ↔
      ((x.slotOp i).valid = false → ∀ j, j < i → x.input.newPhyIdNeed j = true →
        (x.slotOp j).rd ≠ a) := by
  have hwidth := ht.width
  rw [slotSource, if_pos rfl]
  cases (x.slotOp i).valid with
  | true => exact iff_of_true (if_pos rfl) fun hvalid => Bool.noConfusion hvalid
  | false =>
      rw [if_neg Bool.false_ne_true, eq_comm,
        read_slotTable_iff h (by omega) (ht.left (Nat.le_of_lt hi)) ha]
      exact ⟨fun hnone _ => hnone, fun hnone => hnone rfl⟩

theorem oldPhyRegId_inOrder (h : CycleOk x) (ht : Takes x m) {i : Nat} (hi : i < m)
    (hneed : x.input.newPhyIdNeed i = true) :
    x.input.oldPhyRegId i = ratReadPhyId (slotTable x i) (x.slotOp i).rd := by
  have hwidth := ht.width
  refine phyFeedback_eq h (by omega) (ht.left (Nat.le_of_lt hi)) (slot_rd h hneed) fun j => ?_
  simp only [RenameInput.rdOldPhyFeedbackCmp, Bool.and_eq_true, decide_eq_true_eq, and_assoc]
  rfl

theorem slotNeed_eq (h : CycleOk x) {i : Nat} (hlen : i < x.fifo.length) :
    x.input.newPhyIdNeed i = ((x.slotOp i).valid && (x.slotOp i).needRename) := by
  rw [Bool.eq_iff_iff, need_iff h, Bool.and_eq_true]
  exact and_iff_right hlen

theorem slotDestination_eq (h : CycleOk x) (ht : Takes x m) {i : Nat} (hi : i < m) :
    slotDestination x i =
      if (x.slotOp i).valid && (x.slotOp i).needRename then
        ⟨true, x.input.oldPhyRegId i, x.input.newPhyId i⟩
      else ⟨false, 0, 0⟩ := by
  have hlen := ht.length
  rw [← slotNeed_eq h (by omega), slotDestination]
  cases hneed : x.input.newPhyIdNeed i with
  | false => rfl
  | true => rw [if_pos rfl, if_pos rfl, oldPhyRegId_inOrder h ht hi hneed]

theorem entry_eq (h : CycleOk x) (ht : Takes x m) {i : Nat} (hi : i < m) :
    renamedItem (x.input.robItem i) = renameRobItem (x.slotOp i) (slotDestination x i) := by
  have hlen := ht.length
  have hold : (x.input.robItem i).oldPhyRegIdValid =
      ((x.slotOp i).valid && (x.slotOp i).needRename) := by
    rw [← slotNeed_eq h (by omega)]
    rfl
  rw [slotDestination_eq h ht hi, renamedItem, hold]
  cases (x.slotOp i).valid && (x.slotOp i).needRename with
  | false =>
      simp [renameRobItem, RenameInput.robItem, RobItem.zero, RenameInput.revPack,
        RenameCycle.input]
      rfl
  | true =>
      simp [renameRobItem, RenameInput.robItem, RobItem.zero, RenameInput.revPack,
        RenameCycle.input]
      rfl

/-! ### The instructions sent -/

theorem sendPack_eq (x : RenameCycle) {i : Nat} (hsend : x.input.sendEnable i = true)
    (henable : (x.slotOp i).enable = true) : x.input.sendPack i =
      ⟨x.slotOp i, robRenameNewId x.rob i, (x.input.sendPack i).rs1Phy,
        (x.input.sendPack i).rs2Phy, x.input.newPhyId i⟩ := by
  have hop : (x.input.sendPack i).toDecodeRenamePack = x.slotOp i := by
    show { x.slotOp i with
      toFetchDecodePack := { (x.slotOp i).toFetchDecodePack with
        enable := x.input.sendEnable i } } = x.slotOp i
    rw [hsend, ← henable]
  rw [← hop]
  rfl

/-- What is sent is what the loop sends, but for the sources of rejected instructions. -/
theorem sent_iff (h : CycleOk x) (ht : Takes x m) {i : Nat} (hi : i < m) :
    renamedOp (slotOpInfo x i) = renamedOp (x.input.sendPack i) ↔
      ((x.slotOp i).valid = false → ∀ j, j < i → x.input.newPhyIdNeed j = true →
        ¬HasSource (x.slotOp i) (x.slotOp j).rd) := by
  have hlen := ht.length
  have hwidth := ht.width
  have hsend : x.input.sendEnable i = true := (ht.send i (by omega)).trans (decide_eq_true hi)
  obtain ⟨hrs1, hrs2⟩ := sources_eq h ht hi
  obtain ⟨harch1, harch2⟩ := slot_sources h (by omega : i < x.fifo.length)
  have hsource : ∀ {needMap : Bool} {a phy : Nat}, (needMap = true → a ∈ archRegs) →
      (needMap = true → phy = ratReadPhyId (slotTable x i) a) →
      ((if needMap then slotSource x i needMap a else 0) = (if needMap then phy else 0) ↔
        ((x.slotOp i).valid = false → ∀ j, j < i → x.input.newPhyIdNeed j = true →
          ¬(needMap = true ∧ a = (x.slotOp j).rd))) := by
    intro needMap a phy ha hphy
    cases needMap with
    | false => exact iff_of_true rfl fun _ _ _ _ hmap => Bool.noConfusion hmap.1
    | true =>
        rw [if_pos rfl, if_pos rfl, hphy rfl, slotSource_iff h ht hi (ha rfl)]
        simp only [true_and, eq_comm (a := a), ne_eq]
  rw [sendPack_eq x hsend (h.enabled _ (slotOp_mem (by omega)))]
  simp only [renamedOp, slotOpInfo, slotDestination_eq h ht hi]
  have hdest : (if (x.slotOp i).valid && (x.slotOp i).needRename then
      (if (x.slotOp i).valid && (x.slotOp i).needRename then
        (⟨true, x.input.oldPhyRegId i, x.input.newPhyId i⟩ : Destination)
      else ⟨false, 0, 0⟩).rdPhy else 0) =
      if (x.slotOp i).valid && (x.slotOp i).needRename then x.input.newPhyId i else 0 := by
    split <;> rfl
  rw [hdest]
  simp only [RenameReadregOpInfo.mk.injEq, true_and, and_true, hsource harch1 hrs1,
    hsource harch2 hrs2, HasSource]
  grind

/-! ### The tables -/

theorem ratRequest_iff (h : CycleOk x) (ht : Takes x m) {j : Nat} (hj : j < renameWidth) :
    ratRequest x.ratInput j = true ↔ j < m ∧ x.input.newPhyIdNeed j = true := by
  rw [ratRequest, Bool.and_eq_true]
  exact (and_iff_left ht.active).trans (request_iff h ht hj)

theorem freshRequests (h : CycleOk x) (ht : Takes x m) : RequestsFresh x.rat x.ratInput := by
  have hfresh := freshSlots h ht.width (ht.left (Nat.le_refl m))
  refine ⟨fun j hj hreq => ?_, fun j hj hreq => ?_, fun i j hij hj hi hreq => ?_,
    fun j hj hreq => ?_⟩
  · obtain ⟨hjm, hneed⟩ := (ratRequest_iff h ht hj).1 hreq
    exact hfresh.row_lt j hjm hneed
  · obtain ⟨hjm, hneed⟩ := (ratRequest_iff h ht hj).1 hreq
    exact hfresh.free j hjm hneed
  · obtain ⟨hjm, hneed⟩ := (ratRequest_iff h ht hj).1 hreq
    exact hfresh.distinct i j hij hjm ((ratRequest_iff h ht (by omega)).1 hi).2 hneed
  · obtain ⟨hjm, hneed⟩ := (ratRequest_iff h ht hj).1 hreq
    exact hfresh.arch_mem j hjm hneed

/-- All requests of the cycle at once give the table of one renaming after another. -/
theorem ratNext_inOrder (h : CycleOk x) (ht : Takes x m) {p : Nat} (hp : p < phyRegNum) :
    (ratNext x.rat x.ratInput).mapTable p = (slotTable x m).mapTable p ∧
      (ratNext x.rat x.ratInput).mapValid p = (slotTable x m).mapValid p ∧
      (ratNext x.rat x.ratInput).mapVisible p = (slotTable x m).mapVisible p := by
  have hwidth := ht.width
  have hfresh := freshSlots h ht.width (ht.left (Nat.le_refl m))
  obtain ⟨htable, hvalid, hvisible⟩ := ratNext_rows x p
  have hnew : (newArchIdValid x.ratInput p && x.active) = true ↔
      ∃ j, j < m ∧ x.input.newPhyIdNeed j = true ∧ x.input.newPhyId j = p := by
    refine Iff.trans newArchIdValid_iff ⟨?_, ?_⟩
    · rintro ⟨j, hj, hreq, rfl⟩
      obtain ⟨hjm, hneed⟩ := (ratRequest_iff h ht hj).1 hreq
      exact ⟨j, hjm, hneed, rfl⟩
    · rintro ⟨j, hjm, hneed, rfl⟩
      exact ⟨j, by omega, (ratRequest_iff h ht (by omega)).2 ⟨hjm, hneed⟩, rfl⟩
  refine ⟨?_, ?_, ?_⟩
  · rw [htable]
    by_cases hslot : (newArchIdValid x.ratInput p && x.active) = true
    · obtain ⟨j, hjm, hneed, rfl⟩ := hnew.1 hslot
      rw [if_pos hslot, slotTable, inOrder_table_slot hfresh hjm hneed]
      exact newArchId_eq (freshRequests h ht) (by omega)
        ((ratRequest_iff h ht (by omega)).2 ⟨hjm, hneed⟩)
    · rw [if_neg hslot, slotTable, inOrder_table_other fun j hjm hneed heq =>
        hslot (hnew.2 ⟨j, hjm, hneed, heq⟩)]
  · rw [hvalid, Bool.eq_iff_iff, slotTable, inOrder_valid, ← hnew]
    by_cases hslot : (newArchIdValid x.ratInput p && x.active) = true
    · simp [hslot]
    · simp [hslot]
  · have hhide : (hidePhyId x.rat x.ratInput p && x.active) = true ↔
        (∃ j, j < m ∧ x.input.newPhyIdNeed j = true ∧ (x.slotOp j).rd = x.rat.mapTable p) ∧
          x.rat.mapVisible p = true := by
      refine Iff.trans hidePhyId_iff ⟨?_, ?_⟩
      · rintro ⟨⟨j, hj, hreq, harch⟩, -, hvis⟩
        obtain ⟨hjm, hneed⟩ := (ratRequest_iff h ht hj).1 hreq
        exact ⟨⟨j, hjm, hneed, harch⟩, hvis⟩
      · rintro ⟨⟨j, hjm, hneed, harch⟩, hvis⟩
        exact ⟨⟨j, by omega, (ratRequest_iff h ht (by omega)).2 ⟨hjm, hneed⟩, harch⟩,
          h.rat.allocated p hp hvis, hvis⟩
    have hshow : (visibleEnable x.ratInput p && x.active) = true ↔
        ∃ j, j < m ∧ x.input.newPhyIdNeed j = true ∧ x.input.newPhyId j = p ∧
          ∀ k, j < k → k < m → x.input.newPhyIdNeed k = true →
            (x.slotOp k).rd ≠ (x.slotOp j).rd := by
      refine Iff.trans visibleEnable_iff ⟨?_, ?_⟩
      · rintro ⟨j, hj, hreq, rfl, hlast⟩
        obtain ⟨hjm, hneed⟩ := (ratRequest_iff h ht hj).1 hreq
        exact ⟨j, hjm, hneed, rfl, fun k hjk hk hneedk =>
          hlast k hjk (by omega) ((ratRequest_iff h ht (by omega)).2 ⟨hk, hneedk⟩)⟩
      · rintro ⟨j, hjm, hneed, rfl, hlast⟩
        refine ⟨j, by omega, (ratRequest_iff h ht (by omega)).2 ⟨hjm, hneed⟩, rfl,
          fun k hjk hk hreq => ?_⟩
        obtain ⟨hkm, hneedk⟩ := (ratRequest_iff h ht hk).1 hreq
        exact hlast k hjk hkm hneedk
    rw [hvisible, Bool.eq_iff_iff, slotTable, inOrder_visible h.rat hfresh hp, ← hshow]
    -- a row that is taken was free, so it is not hidden in the same cycle
    have hclash : (visibleEnable x.ratInput p && x.active) = true →
        ¬x.rat.mapVisible p = true := by
      intro henable hvis
      obtain ⟨j, hjm, hneed, rfl, _⟩ := hshow.1 henable
      exact Bool.false_ne_true
        ((hfresh.free j hjm hneed).symm.trans (h.rat.allocated _ hp hvis))
    by_cases hhidden : (hidePhyId x.rat x.ratInput p && x.active) = true
    · obtain ⟨⟨j, hjm, hneed, harch⟩, hvis⟩ := hhide.1 hhidden
      rw [if_pos hhidden]
      refine iff_of_false Bool.false_ne_true ?_
      rintro (henable | ⟨-, hnone⟩)
      · exact hclash henable hvis
      · exact hnone j hjm hneed harch
    · rw [if_neg hhidden]
      by_cases henable : (visibleEnable x.ratInput p && x.active) = true
      · rw [if_pos henable]
        exact iff_of_true rfl (Or.inl henable)
      · rw [if_neg henable, or_iff_right henable]
        refine ⟨fun hvis => ⟨hvis, fun j hjm hneed harch => ?_⟩, And.left⟩
        exact hhidden (hhide.2 ⟨⟨j, hjm, hneed, harch⟩, hvis⟩)
/-! ### The checkpoints -/

theorem renames_need (h : CycleOk x) (ht : Takes x m) {i : Nat} (hi : i < m) :
    x.input.renames i = x.input.newPhyIdNeed i := by
  have hlen := ht.length
  have hwidth := ht.width
  rw [RenameInput.renames, ht.send i (by omega), decide_eq_true hi, Bool.true_and,
    slotNeed_eq h (by omega)]
  rfl

theorem stepTables_eq (h : CycleOk x) (ht : Takes x m) {i : Nat} (hi : i < m) :
    x.input.stepTableValid i (slotTable x i).mapValid = (slotTable x (i + 1)).mapValid ∧
      x.input.stepTableVisible i (slotTable x i).mapVisible =
        (slotTable x (i + 1)).mapVisible := by
  rw [slotTable_succ]
  cases hneed : x.input.newPhyIdNeed i with
  | false =>
      rw [if_neg Bool.false_ne_true]
      constructor
      · funext p
        simp [RenameInput.stepTableValid, renames_need h ht hi, hneed]
      · funext p
        simp [RenameInput.stepTableVisible, renames_need h ht hi, hneed]
  | true =>
      have hfresh := (freshSlots h ht.width (ht.left (Nat.le_refl m))).before hi
      have hprev := oneRow_inOrder h.rat (hfresh.before (Nat.le_succ i))
      have hne : x.input.oldPhyRegId i ≠ x.input.newPhyId i := by
        rw [oldPhyRegId_inOrder h ht hi hneed]
        exact ne_of_free (inOrder_free hfresh hneed) (read_row hprev (slot_rd h hneed)).1
      rw [if_pos rfl]
      constructor
      · funext p
        simp [RenameInput.stepTableValid, renames_need h ht hi, hneed, remap, Function.update_apply]
      · funext p
        simp only [RenameInput.stepTableVisible, renames_need h ht hi, hneed, remap,
          ← oldPhyRegId_inOrder h ht hi hneed, Function.update_apply]
        by_cases hp : p = x.input.newPhyId i
        · simp [hp, hne.symm]
        · simp [hp]

theorem newCpTables_eq (h : CycleOk x) (ht : Takes x m) {i : Nat} (hi : i < m) :
    x.input.newCpTableValid i = (slotTable x (i + 1)).mapValid ∧
      x.input.newCpTableVisible i = (slotTable x (i + 1)).mapVisible := by
  induction i with
  | zero => exact stepTables_eq h ht hi
  | succ i ih =>
      obtain ⟨hvalid, hvisible⟩ := ih (by omega)
      rw [RenameInput.newCpTableValid, RenameInput.newCpTableVisible, hvalid, hvisible]
      exact stepTables_eq h ht hi

/-- Filters of which one keeps more agree if they keep equally many. -/
theorem filter_of_length {α : Type} {p q : α → Bool} {l : List α}
    (hsub : ∀ a ∈ l, q a = true → p a = true)
    (hlen : (l.filter q).length = (l.filter p).length) : ∀ a ∈ l, p a = true → q a = true := by
  have htwice : (l.filter p).filter q = l.filter q := by
    rw [List.filter_filter]
    refine List.filter_congr fun a ha => ?_
    cases hq : q a with
    | false => rfl
    | true => rw [hsub a ha hq, Bool.and_self]
  have hsame : l.filter q = l.filter p := (htwice ▸ List.filter_sublist).eq_of_length hlen
  intro a ha hp
  have hmem : a ∈ l.filter q := hsame ▸ List.mem_filter.2 ⟨ha, hp⟩
  exact (List.mem_filter.1 hmem).2

theorem slotCheckpoints_eq (h : CycleOk x) (ht : Takes x m) {n : Nat} (hn : n ≤ m) :
    slotCheckpoints x n = ((List.range n).filter fun i => (x.slotOp i).valid &&
      (x.slotOp i).predicted && (x.slotOp i).checkpointIdValid).map
        fun i => ((x.input.revPack i).checkpointId, x.input.newCp i) := by
  induction n with
  | zero => rfl
  | succ n ih =>
      obtain ⟨hvalid, hvisible⟩ := newCpTables_eq h ht (by omega : n < m)
      rw [slotCheckpoints, List.range_succ, List.flatMap_append, List.flatMap_singleton,
        List.filter_append, List.map_append, List.filter_singleton, renameCheckpoint, ← hvalid,
        ← hvisible]
      refine congrArg₂ (· ++ ·) (ih (by omega)) ?_
      cases (x.slotOp n).valid && (x.slotOp n).predicted && (x.slotOp n).checkpointIdValid with
      | false => rfl
      | true => rfl

theorem writtenCheckpoints_eq (ht : Takes x m) : writtenCheckpoints x =
    ((List.range m).filter fun i => (x.slotOp i).checkpointIdValid).map
      fun i => ((x.input.revPack i).checkpointId, x.input.newCp i) := by
  rw [writtenCheckpoints, ← range_filter_lt ht.width]
  refine congrArg (List.map _) (List.filter_congr fun i hi => ?_)
  show (x.active && x.input.sendEnable i && (x.slotOp i).checkpointIdValid) = _
  rw [ht.active, ht.send i (List.mem_range.1 hi), Bool.true_and]

/-- The same checkpoints are written, but for those of other instructions. -/
theorem checkpoints_iff (h : CycleOk x) (ht : Takes x m) :
    slotCheckpoints x m = writtenCheckpoints x ↔
      ∀ i, i < m → (x.slotOp i).checkpointIdValid = true →
        (x.slotOp i).valid = true ∧ (x.slotOp i).predicted = true := by
  rw [slotCheckpoints_eq h ht (Nat.le_refl m), writtenCheckpoints_eq ht]
  constructor
  · intro heq i hi hid
    have hlen := congrArg List.length heq
    rw [List.length_map, List.length_map] at hlen
    have hkept := filter_of_length (fun j _ hall => (Bool.and_eq_true_iff.1 hall).2) hlen i
      (List.mem_range.2 hi) hid
    exact Bool.and_eq_true_iff.1 (Bool.and_eq_true_iff.1 hkept).1
  · intro hall
    refine congrArg (List.map _) (List.filter_congr fun i hi => ?_)
    cases hid : (x.slotOp i).checkpointIdValid with
    | false => exact Bool.and_false _
    | true =>
        obtain ⟨hvalid, hpredicted⟩ := hall i (List.mem_range.1 hi) hid
        rw [hvalid, hpredicted]
        rfl

/-! ## All conditions together -/

theorem renamedAs_taken (h : CycleOk x) (ht : Takes x m)
    (hsources : ∀ i, i < m → (x.slotOp i).valid = false → ∀ j, j < i →
      x.input.newPhyIdNeed j = true → ¬HasSource (x.slotOp i) (x.slotOp j).rd)
    (hcheckpoints : ∀ i, i < m → (x.slotOp i).checkpointIdValid = true →
      (x.slotOp i).valid = true ∧ (x.slotOp i).predicted = true) (cnt : Nat) :
    RenamedAs x { loopState x m with phyRegReqCnt := cnt } where
  enabled := fun i hi => by
    rw [ht.active, ht.send i hi, loopState, List.length_map, List.length_range, Bool.true_and]
  valid := by
    rw [loopState, List.length_map, List.length_range]
    exact ht.length
  popped := by
    rw [popNum_eq ht]
    rfl
  pointers := robNext_pointers h ht
  entries := by
    rw [loopState, List.length_map, List.length_range]
    refine List.map_congr_left fun i hi => ?_
    have him := List.mem_range.1 hi
    rw [pushed_item h ht him, entry_eq h ht him]
    rfl
  sent := by
    rw [loopState, List.length_map, List.length_range, List.map_map]
    exact List.map_congr_left fun i hi =>
      (sent_iff h ht (List.mem_range.1 hi)).2 (hsources i (List.mem_range.1 hi))
  given := given_eq h ht
  tables := ⟨slotTable x m, syncMaps_eq h ht.width (ht.left (Nat.le_refl m)),
    fun _ hp => ratNext_inOrder h ht hp⟩
  checkpoints := (checkpoints_iff h ht).2 hcheckpoints

/-- A register given to a rejected instruction shows in the number of registers given. -/
theorem accepted_of_given (h : CycleOk x) (hactive : x.active = true) (hm : m ≤ renameWidth)
    (hlen : m ≤ x.fifo.length)
    (hsend : ∀ i, i < renameWidth → x.input.sendEnable i = decide (i < m))
    (hgiven : slotRequests x m = givenRegisters x) {i : Nat} (hi : i < m) :
    ¬RejectedDest x i := by
  rintro ⟨hvalid, hrename⟩
  have hrequest : ∀ j, j < renameWidth → (x.active && x.input.renameRatPhyIdValid j) =
      (decide (j < m) && (x.slotOp j).needRename) := by
    intro j hj
    show (x.active && (x.input.sendEnable j && (x.slotOp j).needRename)) = _
    rw [hactive, hsend j hj, Bool.true_and]
  have hsame := congrArg List.length hgiven
  rw [slotRequests, givenRegisters, ← range_filter_lt hm, List.length_map, List.length_map] at hsame
  have hneed := filter_of_length (fun j hj hboth => ?_) hsame i (List.mem_range.2 (by omega))
    (by rw [hrequest i (by omega), decide_eq_true hi, hrename]; rfl)
  · rw [slotNeed_eq h (by omega), hvalid, Bool.false_and, Bool.and_false] at hneed
    exact Bool.false_ne_true hneed
  · obtain ⟨hjm, hneedj⟩ := Bool.and_eq_true_iff.1 hboth
    rw [hrequest j (List.mem_range.1 hj), hjm, ((need_iff h).1 hneedj).2.2]
    rfl

theorem bundleFits_of_inOrder (h : CycleOk x) (hactive : x.active = true)
    (hrun : RenamesInOrder x) : BundleFits x := by
  obtain ⟨out, hout, has⟩ := hrun
  obtain ⟨m, cnt, hcpp, hm, hlen, hall, _⟩ := cppRun_eq h hactive
  obtain rfl := Option.some.inj (hout.symm.trans hcpp)
  have hsend : ∀ i, i < renameWidth → x.input.sendEnable i = decide (i < m) := by
    intro i hi
    have henabled := has.enabled i hi
    rwa [hactive, Bool.true_and, loopState, List.length_map, List.length_range] at henabled
  have hoffered : ∀ i, i < renameWidth → (Offered x i ↔ i < m) := fun i hi => by
    rw [← sendEnable_iff_offered h hi, hsend i hi, decide_eq_true_iff]
  have haccepted : ∀ i, i < m → ¬RejectedDest x i := fun i hi =>
    accepted_of_given h hactive hm hlen hsend has.given hi
  have ht : Takes x m := ⟨hactive, hm, hlen, hall, hsend, haccepted⟩
  refine ⟨fun i j hij hj hstarved hofferedj => ?_, fun i hi hofferedi => ?_,
    fun i hi hofferedi => haccepted i ((hoffered i hi).1 hofferedi),
    fun i hi hofferedi => ?_, fun i hi hofferedi => ?_⟩
  · have hjm := (hoffered j hj).1 hofferedj
    exact ((hoffered i (by omega)).2 (by omega)).2.1 hstarved
  · exact (hall i ((hoffered i hi).1 hofferedi)).2
  · have him := (hoffered i hi).1 hofferedi
    have hsent := has.sent
    rw [loopState, List.length_map, List.length_range, List.map_map] at hsent
    exact (sent_iff h ht him).1 (List.map_inj_left.1 hsent i (List.mem_range.2 him))
  · exact (checkpoints_iff h ht).1 has.checkpoints i ((hoffered i hi).1 hofferedi)

/-- The four-wide rename leaves what the loop leaves exactly if the bundle fits, whenever
it renames at all. -/
theorem rename_in_order_iff (x : RenameCycle) (h : CycleOk x) :
    RenamesInOrder x ↔ (x.active = true → BundleFits x) := by
  refine ⟨fun hrun hactive => bundleFits_of_inOrder h hactive hrun, fun hfits => ?_⟩
  cases hactive : x.active with
  | false => exact renamedAs_idle h hactive
  | true =>
      have hbundle := hfits hactive
      obtain ⟨m, cnt, hcpp, hm, hlen, hall, hstop⟩ := cppRun_eq h hactive
      have hsend : ∀ i, i < renameWidth → x.input.sendEnable i = decide (i < m) :=
        fun i hi => sendEnable_eq h hbundle hm hlen hall hstop hi
      have hoffered : ∀ i, i < m → Offered x i := fun i hi =>
        (sendEnable_iff_offered h (by omega)).1
          ((hsend i (by omega)).trans (decide_eq_true hi))
      have ht : Takes x m := ⟨hactive, hm, hlen, hall, hsend, fun i hi =>
        hbundle.accepted i (by omega) (hoffered i hi)⟩
      exact ⟨_, hcpp, renamedAs_taken h ht
        (fun i hi => hbundle.sources i (by omega) (hoffered i hi))
        (fun i hi => hbundle.checkpoints i (by omega) (hoffered i hi)) cnt⟩

end Cycle

/-! ## Bundles that fit and do not fit -/

/-- A cycle without a stall or a flush. -/
def bundleCycle (rat : RatState) (rob : RobState) (packs : List FetchDecodePack) :
    RenameCycle where
  rat := rat
  rob := rob
  fifo := packs.map Rtl.decode
  cpbuf := fun _ => Checkpoint.zero
  issueFeedbackStall := false
  commitFeedbackPack := quietCommitFeedback

theorem bundleCycle_ok {rat : RatState} {rob : RobState} {packs : List FetchDecodePack}
    (hrob : RobWellFormed rob) (hrat : OneRowEach rat) (henable : ∀ p ∈ packs, p.enable = true) :
    CycleOk (bundleCycle rat rob packs) where
  rob := hrob
  rat := hrat
  decoded := fun op hop => by
    obtain ⟨p, _, rfl⟩ := List.mem_map.1 hop
    rfl
  enabled := fun op hop => by
    obtain ⟨p, hp, rfl⟩ := List.mem_map.1 hop
    exact henable p hp

theorem ratReset_oneRow : OneRowEach ratReset := oneRowEach_of_sound ratReset_sound ratReset_bounded

/-- `addi x6, x0, 1` and `addi x5, x6, 2`. -/
def dependentAdds : List FetchDecodePack :=
  [fetched 0x80000000 0x00100313, fetched 0x80000004 0x00230293]

theorem dependentAdds_ok :
    CycleOk (bundleCycle ratReset (robReset fun _ => RobItem.zero) dependentAdds) :=
  bundleCycle_ok (robReset_wellFormed _) ratReset_oneRow (by decide)

theorem rename_in_order_dependentAdds :
    RenamesInOrder (bundleCycle ratReset (robReset fun _ => RobItem.zero) dependentAdds) ↔
      ((bundleCycle ratReset (robReset fun _ => RobItem.zero) dependentAdds).active = true →
        BundleFits (bundleCycle ratReset (robReset fun _ => RobItem.zero) dependentAdds)) :=
  rename_in_order_iff _ dependentAdds_ok

/-- Only row 127 is free. -/
def lastRowFree : RatState := { ratReset with mapValid := fun p => decide (p ≠ 127) }

theorem lastRowFree_oneRow : OneRowEach lastRowFree where
  row := fun a ha => by
    have hrange := mem_archRegs.1 ha
    simp only [archRegNum] at hrange
    refine ⟨a, by simp only [phyRegNum]; omega, fun q hq => ?_⟩
    rw [cam_iff]
    simp only [lastRowFree, ratReset, isResetMapping, archRegNum, Bool.and_eq_true,
      decide_eq_true_eq]
    constructor
    · rintro ⟨-, hreset, htable⟩
      rwa [if_pos hreset] at htable
    · rintro rfl
      exact ⟨by omega, hrange, if_pos hrange⟩
  allocated := fun p _ hvisible => by
    simp only [lastRowFree, ratReset, isResetMapping, archRegNum, Bool.and_eq_true,
      decide_eq_true_eq] at *
    omega

/-- Two additions for one register, and a branch that needs none. -/
def shortOfRegisters : RenameCycle :=
  bundleCycle lastRowFree (robReset fun _ => RobItem.zero)
    (dependentAdds ++ [fetched 0x80000008 0x00000463])

/-- One entry is free, behind the wrap of the ring. -/
def shortOfEntries : RenameCycle :=
  bundleCycle ratReset ⟨1, 64, fun _ => RobItem.zero⟩ dependentAdds

/-- `ld x5, 0(x0)`, which the decoder rejects. -/
def rejectedLoad : RenameCycle :=
  bundleCycle ratReset (robReset fun _ => RobItem.zero) [fetched 0x80000000 0x00003283]

/-- A branch on `x5` without a meaning, behind `addi x5, x0, 1`. -/
def rejectedReader : RenameCycle :=
  bundleCycle ratReset (robReset fun _ => RobItem.zero)
    [fetched 0x80000000 0x00100293, fetched 0x80000004 0x0002a463]

/-- A branch without a meaning for which fetch has taken a checkpoint. -/
def rejectedPredicted : RenameCycle :=
  bundleCycle ratReset (robReset fun _ => RobItem.zero)
    [{ fetched 0x80000000 0x00002063 with predicted := true, checkpointIdValid := true }]

/-- The branch overtakes an addition that gets no register; the second addition takes an
entry that is not free; the rejected load is given a register; the rejected branch reads the
new `x5`; the rejected branch writes its checkpoint. -/
theorem unfit_bundles_differ :
    (CycleOk shortOfRegisters ∧ ¬RenamesInOrder shortOfRegisters) ∧
      (CycleOk shortOfEntries ∧ ¬RenamesInOrder shortOfEntries) ∧
      (CycleOk rejectedLoad ∧ ¬RenamesInOrder rejectedLoad) ∧
      (CycleOk rejectedReader ∧ ¬RenamesInOrder rejectedReader) ∧
      CycleOk rejectedPredicted ∧ ¬RenamesInOrder rejectedPredicted := by
  have hregisters : CycleOk shortOfRegisters :=
    bundleCycle_ok (robReset_wellFormed _) lastRowFree_oneRow (by decide)
  have hentries : CycleOk shortOfEntries :=
    bundleCycle_ok ⟨by decide, by decide, by decide⟩ ratReset_oneRow (by decide)
  have hload : CycleOk rejectedLoad :=
    bundleCycle_ok (robReset_wellFormed _) ratReset_oneRow (by decide)
  have hreader : CycleOk rejectedReader :=
    bundleCycle_ok (robReset_wellFormed _) ratReset_oneRow (by decide)
  have hpredicted : CycleOk rejectedPredicted :=
    bundleCycle_ok (robReset_wellFormed _) ratReset_oneRow (by decide)
  refine ⟨⟨hregisters, fun hrun => ?_⟩, ⟨hentries, fun hrun => ?_⟩, ⟨hload, fun hrun => ?_⟩,
    ⟨hreader, fun hrun => ?_⟩, hpredicted, fun hrun => ?_⟩
  · exact (bundleFits_of_inOrder hregisters rfl hrun).registers 1 2 (by decide) (by decide)
      (by decide +kernel) (by decide +kernel)
  · have hroom := (bundleFits_of_inOrder hentries rfl hrun).entries 1 (by decide)
      (by decide +kernel)
    exact absurd hroom (by decide +kernel)
  · exact (bundleFits_of_inOrder hload rfl hrun).accepted 0 (by decide)
      (by decide +kernel) ⟨by decide +kernel, by decide +kernel⟩
  · exact (bundleFits_of_inOrder hreader rfl hrun).sources 1 (by decide) (by decide +kernel)
      (by decide +kernel) 0 (by decide) (by decide +kernel)
      (Or.inl ⟨by decide +kernel, by decide +kernel⟩)
  · have hvalid := ((bundleFits_of_inOrder hpredicted rfl hrun).checkpoints 0 (by decide)
      (by decide +kernel) (by decide +kernel)).1
    exact absurd hvalid (by decide +kernel)

end DreamCore.Proofs
