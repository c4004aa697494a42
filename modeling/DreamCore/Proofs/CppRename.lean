import DreamCore.Proofs.RenameSlots

/-!
# What the C++ rename loop computes

As long as registers and entries are left, the loop leaves after `n` iterations what
renaming the first `n` instructions one after another gives: although it reads the old
table, the feedback loops make up for it.
-/

namespace DreamCore.Proofs

open DreamCore.Cpp DreamCore.Model DreamCore.Ring DreamCore.Rtl

/-! ## The alias table -/

section Rat

variable {s : RatState}

theorem freeScan_eq (s : RatState) (num : Nat) {rows : Nat} (hrows : rows ≤ phyRegNum)
    {found : List Nat} (hfound : found.length < max num 1) :
    freeScan s num rows found = found ++
      ((List.range' (phyRegNum - rows) rows).filter fun p => !s.mapValid p).take
        (max num 1 - found.length) := by
  induction rows generalizing found with
  | zero => simp [freeScan]
  | succ rows ih =>
      have hnext : phyRegNum - (rows + 1) + 1 = phyRegNum - rows := by omega
      rw [freeScan, List.range'_succ, hnext, List.filter_cons]
      cases hv : s.mapValid (phyRegNum - (rows + 1)) with
      | true =>
          rw [if_pos rfl, ih (by omega) hfound, Bool.not_true, if_neg Bool.false_ne_true]
      | false =>
          rw [if_neg Bool.false_ne_true, Bool.not_false, if_pos rfl]
          have hpos : max num 1 - found.length = max num 1 - found.length - 1 + 1 := by omega
          rw [hpos, List.take_succ_cons]
          by_cases hlast : num ≤ found.length + 1
          · have hzero : max num 1 - found.length - 1 = 0 := by omega
            rw [if_pos hlast, hzero, List.take_zero]
          · rw [if_neg hlast, ih (by omega) (by rw [List.length_append, List.length_singleton]; omega),
              List.length_append, List.length_singleton, Nat.sub_sub, List.append_assoc]
            rfl

theorem getFreePhyId_eq (s : RatState) (num : Nat) :
    getFreePhyId s num = (freeList s).take (max num 1) := by
  rw [getFreePhyId, freeScan_eq s num (Nat.le_refl _) (by simp)]
  simp [freeList, List.range_eq_range']

theorem findPhyId_eq (h : OneRowEach s) {a : Nat} (ha : a ∈ archRegs) :
    findPhyId s a = some (some (ratReadPhyId s a)) := by
  have hfilter : (List.range phyRegNum).filter (camArchIdCmp s a) = [ratReadPhyId s a] := by
    have hcongr : (List.range phyRegNum).filter (camArchIdCmp s a) =
        (List.range phyRegNum).filter (· = ratReadPhyId s a) := by
      refine List.filter_congr fun p hp => ?_
      rw [Bool.eq_iff_iff, cam_iff_read h ha (List.mem_range.1 hp), decide_eq_true_iff]
    rw [hcongr, List.filter_eq, List.count_eq_one_of_mem List.nodup_range
      (List.mem_range.2 (readPhyId_lt h ha))]
    rfl
  have hrange : 0 < a ∧ a < archRegNum := mem_archRegs.1 ha
  rw [findPhyId, if_pos hrange, hfilter]

theorem getPhyId_eq (h : OneRowEach s) {a : Nat} (ha : a ∈ archRegs) :
    getPhyId s a = some (ratReadPhyId s a) := by
  rw [getPhyId, findPhyId_eq h ha]
  rfl

theorem cpSetMap_eq (h : OneRowEach s) {a p : Nat} (ha : a ∈ archRegs) (hp : p < phyRegNum)
    (hfree : s.mapValid p = false) : cpSetMap s a p = some (remap s a p) := by
  rw [cpSetMap, if_pos ⟨hp, hfree⟩, findPhyId_eq h ha]
  rfl

theorem setMap_eq (h : OneRowEach s) {a p : Nat} (ha : a ∈ archRegs) (hp : p < phyRegNum)
    (hfree : s.mapValid p = false) : setMap s a p = some (remap s a p) := by
  rw [setMap, if_pos ⟨hp, hfree⟩, getPhyId_eq h ha]
  rfl

end Rat

/-! ## The reorder buffer -/

/-- The reorder buffer with `n` more entries. -/
def robAfter (s : RobState) (n : Nat) : RobState :=
  { s with wptr := (s.wptr + n) % (2 * robSize) }

section Rob

variable {s : RobState} {n : Nat}

theorem robAfter_zero (h : RobWellFormed s) : robAfter s 0 = s := by
  have hw : s.wptr < 2 * robSize := h.wptr_lt
  rw [robAfter, Nat.add_zero, Nat.mod_eq_of_lt hw]

theorem robAfter_occupancy (h : RobWellFormed s) (hn : robOccupancy s + n ≤ robSize) :
    robOccupancy (robAfter s n) = robOccupancy s + n := by
  obtain ⟨hr, hw, _⟩ := h
  simp only [robOccupancy, robAfter, occupancy, robSize] at *
  omega

theorem robAfter_wellFormed (h : RobWellFormed s) (hn : robOccupancy s + n ≤ robSize) :
    RobWellFormed (robAfter s n) := by
  have hocc := robAfter_occupancy h hn
  refine ⟨h.rptr_lt, Nat.mod_lt _ (by decide), ?_⟩
  show robOccupancy (robAfter s n) ≤ robSize
  omega

theorem getFreeSpace_eq (h : RobWellFormed s) :
    (robOfRtl s).getFreeSpace = robSize - robOccupancy s := by
  obtain ⟨hr, hw, hfit⟩ := h
  simp only [Rob.getFreeSpace, Rob.getSize, Rob.isFull, robOfRtl, robOccupancy] at *
  rw [occupancy_eq hr hw] at *
  simp only [slot_eq hr, slot_eq hw, stage, robSize, Bool.and_eq_true, decide_eq_true_eq, ne_eq,
    decide_eq_decide] at *
  split at hfit
  all_goals
    repeat' split
  all_goals omega

theorem push_eq (h : RobWellFormed s) (hroom : robOccupancy s < robSize) :
    (robOfRtl s).push = some (robRenameNewId s 0, robOfRtl (robAfter s 1)) := by
  have hfull : ¬(robOfRtl s).isFull = true := fun hfull => by
    have hspace := getFreeSpace_eq h
    rw [Rob.getFreeSpace, Rob.getSize, if_pos hfull] at hspace
    simp only [robOfRtl, robSize] at *
    omega
  obtain ⟨hr, hw, _⟩ := h
  have hid : robRenameNewId s 0 = slot robSize s.wptr := by
    rw [robRenameNewId, Nat.add_zero, slot, Nat.mod_mod]
  have hnext : (s.wptr + 1 < 2 * robSize ∧ (robAfter s 1).wptr = s.wptr + 1) ∨
      (s.wptr + 1 = 2 * robSize ∧ (robAfter s 1).wptr = 0) := by
    simp only [robAfter, robSize] at *
    omega
  have hrptr : (robAfter s 1).rptr = s.rptr := rfl
  rw [Rob.push, if_neg hfull, hid]
  by_cases hwrap : (robOfRtl s).size ≤ (robOfRtl s).wptr + 1
  all_goals
    simp only [hwrap, if_true, if_false, Option.some.injEq, Prod.mk.injEq]
    simp only [robOfRtl, slot, stage, robSize] at *
    rcases hnext with ⟨hlast, hnext⟩ | ⟨hlast, hnext⟩
    all_goals
      simp only [hnext, hrptr, Rob.mk.injEq, true_and, and_true, ← decide_not, decide_eq_decide]
      exact ⟨by omega, by omega⟩

theorem push_after (h : RobWellFormed s) (hroom : robOccupancy s + n < robSize) :
    (robOfRtl (robAfter s n)).push =
      some (robRenameNewId s n, robOfRtl (robAfter s (n + 1))) := by
  have hocc := robAfter_occupancy h (Nat.le_of_lt hroom)
  rw [push_eq (robAfter_wellFormed h (Nat.le_of_lt hroom)) (by omega)]
  have hid : robRenameNewId (robAfter s n) 0 = robRenameNewId s n := by
    simp only [robRenameNewId, robAfter, slot, robSize]
    omega
  have hstep : robAfter (robAfter s n) 1 = robAfter s (n + 1) := by
    simp only [robAfter, RobState.mk.injEq, and_true, true_and, robSize]
    omega
  rw [hid, hstep]

end Rob

/-! ## The state after some iterations -/

section State

variable (x : RenameCycle) (n : Nat)

def slotDestination : Destination :=
  if x.input.newPhyIdNeed n then
    ⟨true, ratReadPhyId (slotTable x n) (x.slotOp n).rd, x.input.newPhyId n⟩
  else ⟨false, 0, 0⟩

/-- A source of slot `n`; a rejected instruction does not take part in the feedback. -/
def slotSource (needMap : Bool) (arch : Nat) : Nat :=
  if needMap then
    if (x.slotOp n).valid then ratReadPhyId (slotTable x n) arch else ratReadPhyId x.rat arch
  else 0

def slotOpInfo : RenameReadregOpInfo :=
  ⟨x.slotOp n, robRenameNewId x.rob n, slotSource x n (x.slotOp n).rs1NeedMap (x.slotOp n).rs1,
    slotSource x n (x.slotOp n).rs2NeedMap (x.slotOp n).rs2, (slotDestination x n).rdPhy⟩

def slotRobItem : Nat × RobItem :=
  (robRenameNewId x.rob n, renameRobItem (x.slotOp n) (slotDestination x n))

/-- The registers given to the first `n` slots. -/
def slotRequests : List (Nat × Nat) :=
  ((List.range n).filter x.input.newPhyIdNeed).map fun j => ((x.slotOp j).rd, x.input.newPhyId j)

def slotCheckpoints : List (Nat × Checkpoint) :=
  (List.range n).flatMap fun j => renameCheckpoint x.cpbuf (slotTable x (j + 1)) (x.slotOp j)

def loopState : RenameRun where
  fifo := x.fifo.drop n
  phyRegReqCnt := needBefore x n
  usedPhyRegCnt := needBefore x n
  rob := robOfRtl (robAfter x.rob n)
  robItems := (List.range n).map (slotRobItem x)
  opInfo := (List.range n).map (slotOpInfo x)
  setMaps := slotRequests x n
  globalCp := slotTable x n
  cpWrites := slotCheckpoints x n

end State

section Loop

variable {x : RenameCycle} {n : Nat}

/-- Both feedback loops read the table behind the earlier slots. -/
theorem oldPhyFeedback_eq (h : CycleOk x) (hn : n ≤ renameWidth) (hlen : n ≤ x.fifo.length)
    (hleft : needBefore x n ≤ (freeList x.rat).length) {a : Nat} (ha : a ∈ archRegs) :
    oldPhyFeedback ((List.range n).map (slotOpInfo x)) a (ratReadPhyId x.rat a) =
      ratReadPhyId (slotTable x n) a := by
  induction n with
  | zero => rfl
  | succ n ih =>
      have hcond : ((slotOpInfo x n).enable && (slotOpInfo x n).valid &&
          (slotOpInfo x n).needRename && decide (a = (slotOpInfo x n).rd)) = true ↔
          x.input.newPhyIdNeed n = true ∧ (x.slotOp n).rd = a := by
        have henable : (slotOpInfo x n).enable = true := h.enabled _ (slotOp_mem (by omega))
        rw [need_iff h, henable, Bool.true_and, Bool.and_eq_true, Bool.and_eq_true,
          decide_eq_true_iff, eq_comm (a := a)]
        exact and_congr_left' (and_iff_right (by omega)).symm
      rw [read_slotTable_succ h hn hleft ha, oldPhyFeedback, List.range_succ, List.map_append,
        List.reverse_append, List.map_singleton, List.reverse_singleton, List.singleton_append,
        List.find?_cons]
      rw [needBefore_succ] at hleft
      by_cases hlast : x.input.newPhyIdNeed n = true ∧ (x.slotOp n).rd = a
      · rw [if_pos hlast, hcond.2 hlast]
        show (slotDestination x n).rdPhy = _
        rw [slotDestination, if_pos hlast.1]
      · rw [if_neg hlast, Bool.eq_false_iff.2 (mt hcond.1 hlast)]
        exact ih (by omega) (by omega) (by omega)

theorem srcPhyFeedback_eq (h : CycleOk x) (hn : n ≤ renameWidth) (hlen : n ≤ x.fifo.length)
    (hleft : needBefore x n ≤ (freeList x.rat).length) {a : Nat} (ha : a ∈ archRegs) :
    srcPhyFeedback ((List.range n).map (slotOpInfo x)) a (ratReadPhyId x.rat a) =
      ratReadPhyId (slotTable x n) a := by
  induction n with
  | zero => rfl
  | succ n ih =>
      have hcond : ((slotOpInfo x n).enable && (slotOpInfo x n).valid &&
          (slotOpInfo x n).rdEnable && decide (a = (slotOpInfo x n).rd)) = true ↔
          x.input.newPhyIdNeed n = true ∧ (x.slotOp n).rd = a := by
        have henable : (slotOpInfo x n).enable = true := h.enabled _ (slotOp_mem (by omega))
        rw [henable, Bool.true_and, Bool.and_eq_true, Bool.and_eq_true, decide_eq_true_iff,
          eq_comm (a := a)]
        exact and_congr_left fun hrd => (need_iff_writes h (by omega) ha hrd).symm
      have hprev := hleft
      rw [needBefore_succ] at hprev
      rw [read_slotTable_succ h hn hleft ha, srcPhyFeedback, List.range_succ, List.map_append,
        List.foldl_append, List.map_singleton, List.foldl_cons, List.foldl_nil]
      by_cases hlast : x.input.newPhyIdNeed n = true ∧ (x.slotOp n).rd = a
      · rw [if_pos hlast, if_pos (hcond.2 hlast)]
        show (slotDestination x n).rdPhy = _
        rw [slotDestination, if_pos hlast.1]
      · rw [if_neg hlast, if_neg (mt hcond.1 hlast)]
        exact ih (by omega) (by omega) (by omega)

theorem renameSource_eq (h : CycleOk x) (hn : n ≤ renameWidth) (hlen : n < x.fifo.length)
    (hleft : needBefore x n ≤ (freeList x.rat).length) {r : RenameRun}
    (hsent : r.opInfo = (List.range n).map (slotOpInfo x)) {needMap : Bool} {arch : Nat}
    (harch : needMap = true → arch ∈ archRegs) :
    renameSource x.rat r (x.slotOp n) needMap arch = some (slotSource x n needMap arch) := by
  rw [renameSource, slotSource]
  cases needMap with
  | false => rfl
  | true =>
      have ha := harch rfl
      rw [if_pos rfl, if_pos rfl, getPhyId_eq h.rat ha, Option.map_some, hsent,
        srcPhyFeedback_eq h hn (Nat.le_of_lt hlen) hleft ha]

/-- What the destination branch leaves. -/
theorem renameDestination_eq (h : CycleOk x) (hn : n < renameWidth) (hlen : n < x.fifo.length)
    (hleft : needBefore x (n + 1) ≤ (freeList x.rat).length) {r : RenameRun}
    (hsent : r.opInfo = (List.range n).map (slotOpInfo x)) (hused : r.usedPhyRegCnt = needBefore x n)
    (hmaps : r.setMaps = slotRequests x n) (hcp : r.globalCp = slotTable x n) :
    renameDestination x.rat r (x.slotOp n) (getFreePhyId x.rat (needBefore x (n + 1))) =
      some (slotDestination x n,
        { r with
          usedPhyRegCnt := needBefore x (n + 1)
          setMaps := slotRequests x (n + 1)
          globalCp := slotTable x (n + 1) }) := by
  have hneed : ((x.slotOp n).valid && (x.slotOp n).needRename) = x.input.newPhyIdNeed n := by
    rw [Bool.eq_iff_iff, need_iff h, Bool.and_eq_true]
    exact (and_iff_right hlen).symm
  rw [renameDestination, hneed, slotDestination]
  cases hcase : x.input.newPhyIdNeed n with
  | false =>
      have hrequests : slotRequests x (n + 1) = slotRequests x n := by
        simp [slotRequests, List.range_succ, hcase]
      have htable : slotTable x (n + 1) = slotTable x n := by
        rw [slotTable_succ, hcase, if_neg Bool.false_ne_true]
      rw [if_neg Bool.false_ne_true, if_neg Bool.false_ne_true, needBefore_succ, hcase, hrequests,
        htable, Bool.toNat_false, Nat.add_zero, ← hused, ← hmaps, ← hcp]
  | true =>
      have hfresh := freshSlots h (by omega : n + 1 ≤ renameWidth) hleft
      have hprev : needBefore x n + 1 ≤ (freeList x.rat).length := by
        rwa [needBefore_succ, hcase, Bool.toNat_true] at hleft
      have harch := slot_rd h hcase
      have hrow := hfresh.row_lt n (Nat.lt_succ_self n) hcase
      have hphy : (getFreePhyId x.rat (needBefore x (n + 1))).getD r.usedPhyRegCnt 0 =
          x.input.newPhyId n := by
        rw [getFreePhyId_eq, newPhyId_eq x hn, hused, needBefore_succ, hcase, Bool.toNat_true,
          List.getD_eq_getElem?_getD, List.getElem?_take_of_lt (by omega),
          List.getD_eq_getElem?_getD]
      have hallowed : setMapSyncAllowed (x.slotOp n).rd (x.input.newPhyId n) = true := by
        obtain ⟨hpos, hlt⟩ := mem_archRegs.1 harch
        simp [setMapSyncAllowed, hrow, hlt, (by omega : 0 < (x.slotOp n).rd)]
      have hrequests : slotRequests x (n + 1) =
          slotRequests x n ++ [((x.slotOp n).rd, x.input.newPhyId n)] := by
        simp [slotRequests, List.range_succ, hcase]
      have htable : slotTable x (n + 1) =
          remap (slotTable x n) (x.slotOp n).rd (x.input.newPhyId n) := by
        rw [slotTable_succ, hcase, if_pos rfl]
      have hset : cpSetMap (slotTable x n) (x.slotOp n).rd (x.input.newPhyId n) =
          some (slotTable x (n + 1)) := by
        rw [htable]
        exact cpSetMap_eq (oneRow_inOrder h.rat (hfresh.before (Nat.le_succ n))) harch hrow
          (inOrder_free hfresh hcase)
      rw [if_pos rfl, if_pos rfl, getPhyId_eq h.rat harch, Option.bind_some, hphy, if_pos hallowed,
        hcp, hset, Option.map_some, hsent, oldPhyFeedback_eq h (Nat.le_of_lt hn)
          (Nat.le_of_lt hlen) (by omega) harch, hused, hmaps, hrequests, needBefore_succ, hcase,
        Bool.toNat_true]

/-- Registers and an entry are left for slot `n`. -/
def CanRename (x : RenameCycle) (n : Nat) : Prop :=
  needBefore x (n + 1) ≤ (freeList x.rat).length ∧ robOccupancy x.rob + n < robSize

theorem slot_sources (h : CycleOk x) (hlen : n < x.fifo.length) :
    ((x.slotOp n).rs1NeedMap = true → (x.slotOp n).rs1 ∈ archRegs) ∧
      ((x.slotOp n).rs2NeedMap = true → (x.slotOp n).rs2 ∈ archRegs) := by
  rw [mem_archRegs, mem_archRegs, h.decoded _ (slotOp_mem hlen)]
  exact decode_needMap_sources _

/-- One iteration of the loop. -/
theorem renameOne_eq (h : CycleOk x) (hn : n < renameWidth) (hlen : n < x.fifo.length)
    (hcan : CanRename x n) :
    renameOne x.rat x.cpbuf
        { loopState x n with
          phyRegReqCnt := needBefore x (n + 1)
          fifo := x.fifo.drop (n + 1) }
        (x.slotOp n) (getFreePhyId x.rat (needBefore x (n + 1))) =
      some (loopState x (n + 1)) := by
  obtain ⟨hleft, hroom⟩ := hcan
  have hprev : needBefore x n ≤ (freeList x.rat).length := by
    rw [needBefore_succ] at hleft
    omega
  have henable : (x.slotOp n).enable = true := h.enabled _ (slotOp_mem hlen)
  obtain ⟨hrs1, hrs2⟩ := slot_sources h hlen
  rw [renameOne, if_pos henable, renameDestination_eq h hn hlen hleft rfl rfl rfl rfl,
    Option.bind_some]
  show (Rob.push (robOfRtl (robAfter x.rob n))).bind _ = _
  rw [push_after h.rob hroom, Option.bind_some]
  show (renameSource _ _ _ _ _).bind _ = _
  rw [renameSource_eq h (Nat.le_of_lt hn) hlen hprev rfl hrs1, Option.bind_some,
    renameSource_eq h (Nat.le_of_lt hn) hlen hprev rfl hrs2, Option.map_some]
  simp [loopState, slotCheckpoints, List.range_succ, slotOpInfo, slotRobItem]

/-- The test at the head of an iteration. -/
theorem renameLoop_next (h : CycleOk x) {slots : Nat} (hlt : n < x.fifo.length) :
    renameLoop x.rat x.cpbuf (slots + 1) (loopState x n) =
      if needBefore x (n + 1) ≤ (getFreePhyId x.rat (needBefore x (n + 1))).length ∧
          1 ≤ (robOfRtl (robAfter x.rob n)).getFreeSpace then
        (renameOne x.rat x.cpbuf
          { loopState x n with
            phyRegReqCnt := needBefore x (n + 1)
            fifo := x.fifo.drop (n + 1) }
          (x.slotOp n) (getFreePhyId x.rat (needBefore x (n + 1)))).bind
            (renameLoop x.rat x.cpbuf slots)
      else some { loopState x n with phyRegReqCnt := needBefore x (n + 1) } := by
  have hfifo : (loopState x n).fifo = x.slotOp n :: x.fifo.drop (n + 1) := by
    show x.fifo.drop n = _
    rw [RenameCycle.slotOp, List.getD_eq_getElem _ _ hlt, List.drop_eq_getElem_cons hlt]
  have hneed : ((x.slotOp n).enable && (x.slotOp n).valid && (x.slotOp n).needRename) =
      x.input.newPhyIdNeed n := by
    rw [h.enabled _ (slotOp_mem hlt), Bool.true_and, Bool.eq_iff_iff, need_iff h, Bool.and_eq_true]
    exact (and_iff_right hlt).symm
  rw [renameLoop, hfifo]
  simp only [hneed]
  rw [← hfifo]
  rfl

/-- The loop stops after `m` instructions: at four, at the end of the FIFO, or because no
register or no entry is left. -/
theorem renameLoop_eq (h : CycleOk x) {slots : Nat} (hslots : n + slots = renameWidth)
    (hlen : n ≤ x.fifo.length) (hleft : needBefore x n ≤ (freeList x.rat).length)
    (hroom : robOccupancy x.rob + n ≤ robSize) :
    ∃ m cnt, renameLoop x.rat x.cpbuf slots (loopState x n) =
        some { loopState x m with phyRegReqCnt := cnt } ∧
      n ≤ m ∧ m ≤ renameWidth ∧ m ≤ x.fifo.length ∧ (∀ j, n ≤ j → j < m → CanRename x j) ∧
        (m < renameWidth → m < x.fifo.length → ¬CanRename x m) := by
  induction slots generalizing n with
  | zero =>
      exact ⟨n, needBefore x n, rfl, Nat.le_refl n, by omega, hlen, fun j _ _ => by omega,
        fun _ => by omega⟩
  | succ slots ih =>
      rcases Nat.lt_or_ge n x.fifo.length with hlt | hge
      · have hspace : (robOfRtl (robAfter x.rob n)).getFreeSpace =
            robSize - (robOccupancy x.rob + n) := by
          rw [getFreeSpace_eq (robAfter_wellFormed h.rob hroom), robAfter_occupancy h.rob hroom]
        have hcond : (needBefore x (n + 1) ≤ (getFreePhyId x.rat (needBefore x (n + 1))).length ∧
            1 ≤ (robOfRtl (robAfter x.rob n)).getFreeSpace) ↔ CanRename x n := by
          rw [getFreePhyId_eq, List.length_take, hspace, CanRename]
          omega
        rw [renameLoop_next h hlt]
        by_cases hcan : CanRename x n
        · rw [if_pos (hcond.2 hcan), renameOne_eq h (by omega) hlt hcan, Option.bind_some]
          obtain ⟨m, cnt, hrun, hnm, hm, hmlen, hall, hstop⟩ :=
            ih (by omega) hlt hcan.1 (by have := hcan.2; omega)
          refine ⟨m, cnt, hrun, by omega, hm, hmlen, fun j hj hjm => ?_, hstop⟩
          by_cases hjn : j = n
          · exact hjn ▸ hcan
          · exact hall j (by omega) hjm
        · rw [if_neg (mt hcond.1 hcan)]
          exact ⟨n, needBefore x (n + 1), rfl, Nat.le_refl n, by omega, hlen, fun j _ _ => by omega,
            fun _ _ => hcan⟩
      · have hfifo : (loopState x n).fifo = [] := List.drop_eq_nil_of_le hge
        rw [renameLoop, hfifo]
        exact ⟨n, needBefore x n, rfl, Nat.le_refl n, by omega, hlen, fun j _ _ => by omega,
          fun _ hlt => by omega⟩

theorem renameStart_eq (h : CycleOk x) :
    renameStart x.rat (robOfRtl x.rob) x.fifo = loopState x 0 := by
  rw [loopState, robAfter_zero h.rob]
  rfl

/-- The requests queued by the loop give the table of the sequence. -/
theorem syncMaps_eq (h : CycleOk x) (hn : n ≤ renameWidth)
    (hleft : needBefore x n ≤ (freeList x.rat).length) :
    syncMaps x.rat (slotRequests x n) = some (slotTable x n) := by
  induction n with
  | zero => rfl
  | succ n ih =>
      have hprev := ih (by omega) (by rw [needBefore_succ] at hleft; omega)
      rw [slotRequests, List.range_succ, List.filter_append, List.map_append, syncMaps,
        List.foldlM_append]
      rw [syncMaps, slotRequests] at hprev
      rw [hprev, slotTable_succ]
      cases hcase : x.input.newPhyIdNeed n with
      | false => simp [hcase]
      | true =>
          have hfresh := freshSlots h hn hleft
          have hset : setMap (slotTable x n) (x.slotOp n).rd (x.input.newPhyId n) =
              some (remap (slotTable x n) (x.slotOp n).rd (x.input.newPhyId n)) :=
            setMap_eq (oneRow_inOrder h.rat (hfresh.before (Nat.le_succ n)))
              (slot_rd h hcase) (hfresh.row_lt n (Nat.lt_succ_self n) hcase)
              (inOrder_free hfresh hcase)
          simpa [hcase] using hset

end Loop

end DreamCore.Proofs
