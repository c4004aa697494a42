import DreamCore.Proofs.RenameBundle
import DreamCore.Proofs.RobGrants
import DreamCore.Proofs.SequentialTable
import Mathlib.Data.List.GetD

/-!
# The slots of one rename cycle

What each slot of the bundle is offered: the free rows are handed out in order to the
instructions that need one, and the forwarding network finds for a source what the
table would hold if the earlier slots had been renamed one after another.
-/

namespace DreamCore.Proofs

open DreamCore.Model DreamCore.Rtl

/-- The table and the reorder buffer are as their assertions have them, and the FIFO
holds decoder outputs. -/
structure CycleOk (x : RenameCycle) : Prop where
  rob : RobWellFormed x.rob
  rat : OneRowEach x.rat
  decoded : ∀ op ∈ x.fifo, op = decode op.toFetchDecodePack
  enabled : ∀ op ∈ x.fifo, op.enable = true

/-! ## The free list -/

def freeList (s : RatState) : List Nat := (List.range phyRegNum).filter fun p => !s.mapValid p

/-- Channel `k` carries the free row of rank `k`; without one it carries 0. -/
theorem newPhyIdTemp_list (mapValid : Nat → Bool) (i : Nat) {k : Nat} (hk : k < renameWidth) :
    (newPhyIdTemp mapValid i).1 k =
      ((List.range (i + 1)).filter fun p => !mapValid p).getD k 0 := by
  induction i with
  | zero => cases hv : mapValid 0 <;> cases k <;> simp [newPhyIdTemp, hv]
  | succ i ih =>
      have hcount := (newPhyIdTemp_spec mapValid i).1
      rw [countOne_eq_filter] at hcount
      rw [newPhyIdTemp, List.range_succ, List.filter_append]
      generalize hlist : ((List.range (i + 1)).filter fun p => !mapValid p) = free at ih hcount ⊢
      generalize newPhyIdTemp mapValid i = found at ih hcount ⊢
      cases hv : mapValid (i + 1) with
      | true => simpa [hv] using ih
      | false =>
          have htail : ([i + 1].filter fun p => !mapValid p) = [i + 1] := by simp [hv]
          rw [htail]
          by_cases hfull : found.2 < renameWidth
          · have hlen : found.2 = free.length := by omega
            rw [if_pos (by simp [hfull])]
            by_cases heq : k = found.2
            · simp [heq, hlen]
            · refine (if_neg heq).trans (ih.trans ?_)
              rcases Nat.lt_or_ge k free.length with hlt | hge
              · exact (List.getD_append _ _ _ _ hlt).symm
              · rw [List.getD_eq_default _ _ hge, List.getD_eq_default]
                simp only [List.length_append, List.length_singleton]
                omega
          · rw [if_neg (by simp [hfull]), ih, List.getD_append]
            omega

theorem ratRenameNewPhyId_eq (s : RatState) {k : Nat} (hk : k < renameWidth) :
    ratRenameNewPhyId s k = (freeList s).getD k 0 :=
  newPhyIdTemp_list s.mapValid (phyRegNum - 1) hk

theorem ratRenameNewPhyIdValid_iff (s : RatState) {k : Nat} (hk : k < renameWidth) :
    ratRenameNewPhyIdValid s k = true ↔ k < (freeList s).length := by
  have hcount := (newPhyIdTemp_spec s.mapValid (phyRegNum - 1)).1
  rw [countOne_eq_filter] at hcount
  rw [ratRenameNewPhyIdValid, decide_eq_true_iff, hcount]
  exact ⟨fun h => (lt_min_iff.1 h).2, fun h => lt_min hk h⟩

/-! ## What a slot is offered -/

section Slot

variable (x : RenameCycle) (i : Nat)

/-- The instructions before slot `i` that take a register. -/
def needBefore : Nat := countOne i x.input.newPhyIdNeed

/-- No register is left for the instruction. -/
def Starved : Prop :=
  x.input.newPhyIdNeed i = true ∧ (freeList x.rat).length ≤ needBefore x i

/-- There is an instruction, a register if it needs one, and an id for it. -/
def Offered : Prop :=
  i < x.fifo.length ∧ ¬Starved x i ∧ robRenameNewIdValid x.rob i = true

/-- A rejected instruction with a destination register. -/
def RejectedDest : Prop :=
  (x.slotOp i).valid = false ∧ (x.slotOp i).needRename = true

instance : Decidable (Starved x i) := inferInstanceAs (Decidable (_ ∧ _))

instance : Decidable (Offered x i) := inferInstanceAs (Decidable (_ ∧ _))

end Slot

section Slots

variable {x : RenameCycle} {i : Nat}

theorem slotOp_mem (hi : i < x.fifo.length) : x.slotOp i ∈ x.fifo := by
  rw [RenameCycle.slotOp, List.getD_eq_getElem _ _ hi]
  exact List.getElem_mem hi

theorem revEnable_eq (h : CycleOk x) (i : Nat) :
    x.input.revEnable i = decide (i < x.fifo.length) := by
  by_cases hi : i < x.fifo.length
  · have henable : (x.slotOp i).enable = true := h.enabled _ (slotOp_mem hi)
    exact (congrArg (decide (i < x.fifo.length) && ·) henable).trans (Bool.and_true _)
  · show (decide (i < x.fifo.length) && _) = _
    rw [decide_eq_false hi, Bool.false_and]

theorem need_iff (h : CycleOk x) : x.input.newPhyIdNeed i = true ↔
    i < x.fifo.length ∧ (x.slotOp i).valid = true ∧ (x.slotOp i).needRename = true := by
  rw [RenameInput.newPhyIdNeed, revEnable_eq h, Bool.and_eq_true, Bool.and_eq_true,
    decide_eq_true_iff, and_assoc]
  rfl

theorem needBefore_lt (x : RenameCycle) (hi : i < renameWidth) :
    needBefore x i < renameWidth :=
  Nat.lt_of_le_of_lt (countOne_le i _) hi

theorem needBefore_succ (x : RenameCycle) (i : Nat) :
    needBefore x (i + 1) = needBefore x i + (x.input.newPhyIdNeed i).toNat := rfl

theorem newPhyId_eq (x : RenameCycle) (hi : i < renameWidth) :
    x.input.newPhyId i = (freeList x.rat).getD (needBefore x i) 0 := by
  rw [RenameInput.newPhyId, newPhyIdChannelIndex_eq _ hi]
  exact ratRenameNewPhyId_eq x.rat (needBefore_lt x hi)

theorem sendEnable_iff_offered (h : CycleOk x) (hi : i < renameWidth) :
    x.input.sendEnable i = true ↔ Offered x i := by
  have hvalid : x.input.newPhyIdValid i = true ↔ needBefore x i < (freeList x.rat).length := by
    rw [RenameInput.newPhyIdValid, newPhyIdChannelIndex_eq _ hi]
    exact ratRenameNewPhyIdValid_iff x.rat (needBefore_lt x hi)
  rw [RenameInput.sendEnable, revEnable_eq h, Bool.and_eq_true, Bool.and_eq_true,
    decide_eq_true_iff, and_assoc, Offered]
  refine and_congr_right fun hlt => and_congr_left fun _ => ?_
  rw [Starved, need_iff h, ← not_lt, ← hvalid]
  cases x.input.newPhyIdValid i <;> cases hv : (x.input.revPack i).valid <;>
    cases hn : (x.input.revPack i).needRename <;>
      simp_all [RenameInput.revPack, RenameCycle.input]

/-! ## Decoder outputs -/

theorem slot_rd (h : CycleOk x) (hneed : x.input.newPhyIdNeed i = true) :
    (x.slotOp i).rd ∈ archRegs := by
  obtain ⟨hi, _, hrename⟩ := (need_iff h).1 hneed
  rw [h.decoded _ (slotOp_mem hi)] at hrename ⊢
  exact mem_archRegs.2 (decode_needRename_rd hrename)

/-- An accepted instruction that writes a renamed register needs a new one. -/
theorem need_iff_writes (h : CycleOk x) (hi : i < x.fifo.length) {a : Nat} (ha : a ∈ archRegs)
    (hrd : (x.slotOp i).rd = a) : x.input.newPhyIdNeed i = true ↔
      (x.slotOp i).valid = true ∧ (x.slotOp i).rdEnable = true := by
  have hne : (x.slotOp i).rd ≠ 0 := by
    have := (mem_archRegs.1 ha).1
    omega
  have hrename : (x.slotOp i).needRename = (x.slotOp i).rdEnable := by
    rw [h.decoded _ (slotOp_mem hi)] at hne ⊢
    have hrd' : (decodeFields (x.slotOp i).value (x.slotOp i).hasException).rd ≠ 0 := hne
    simp [decode, hrd']
  rw [need_iff h, hrename]
  exact and_iff_right hi

/-! ## The rows handed out -/

/-- While registers are left the renamed instructions take different free rows. -/
theorem freshSlots (h : CycleOk x) {n : Nat} (hn : n ≤ renameWidth)
    (hleft : needBefore x n ≤ (freeList x.rat).length) :
    FreshSlots x.rat x.input.newPhyIdNeed (fun j => (x.slotOp j).rd) x.input.newPhyId n := by
  have hmono : ∀ {j k}, j < k → k ≤ n → x.input.newPhyIdNeed j = true →
      needBefore x j < needBefore x k := by
    intro j k hjk hk hneed
    induction k with
    | zero => omega
    | succ k ih =>
        rw [needBefore_succ]
        by_cases heq : j = k
        · subst heq
          rw [hneed, Bool.toNat_true]
          omega
        · have := ih (by omega) (by omega)
          omega
  have hmem : ∀ {j}, j < n → x.input.newPhyIdNeed j = true →
      ∃ hlt : needBefore x j < (freeList x.rat).length,
        x.input.newPhyId j = (freeList x.rat)[needBefore x j] := by
    intro j hj hneed
    have hlt : needBefore x j < (freeList x.rat).length := by
      have := hmono hj (Nat.le_refl n) hneed
      omega
    exact ⟨hlt, (newPhyId_eq x (by omega)).trans (List.getD_eq_getElem _ _ hlt)⟩
  have hrow : ∀ {j}, j < n → x.input.newPhyIdNeed j = true →
      x.input.newPhyId j < phyRegNum ∧ x.rat.mapValid (x.input.newPhyId j) = false := by
    intro j hj hneed
    obtain ⟨hlt, heq⟩ := hmem hj hneed
    obtain ⟨hrange, hfree⟩ := List.mem_filter.1 (List.getElem_mem hlt)
    rw [heq]
    exact ⟨List.mem_range.1 hrange, by simpa using hfree⟩
  refine ⟨fun j _ hneed => slot_rd h hneed, fun j hj hneed => (hrow hj hneed).1,
    fun j hj hneed => (hrow hj hneed).2, fun i j hij hj hneedi hneedj heq => ?_⟩
  obtain ⟨hi', hi⟩ := hmem (by omega : i < n) hneedi
  obtain ⟨hj', hj''⟩ := hmem hj hneedj
  have hnodup : (freeList x.rat).Nodup := List.nodup_range.filter _
  have hsame := hnodup.getElem_inj_iff.1 ((hi.symm.trans heq).trans hj'')
  have := hmono hij (by omega) hneedi
  omega

/-! ## Forwarding inside the bundle -/

/-- The table after the first `n` slots. -/
def slotTable (x : RenameCycle) (n : Nat) : RatState :=
  inOrder x.rat x.input.newPhyIdNeed (fun j => (x.slotOp j).rd) x.input.newPhyId n

theorem slotTable_succ (x : RenameCycle) (n : Nat) : slotTable x (n + 1) =
    if x.input.newPhyIdNeed n then remap (slotTable x n) (x.slotOp n).rd (x.input.newPhyId n)
    else slotTable x n := rfl

theorem read_slotTable_succ (h : CycleOk x) {n : Nat} (hn : n + 1 ≤ renameWidth)
    (hleft : needBefore x (n + 1) ≤ (freeList x.rat).length) {a : Nat} (ha : a ∈ archRegs) :
    ratReadPhyId (slotTable x (n + 1)) a =
      if x.input.newPhyIdNeed n = true ∧ (x.slotOp n).rd = a then x.input.newPhyId n
      else ratReadPhyId (slotTable x n) a :=
  read_inOrder_succ h.rat (freshSlots h hn hleft) ha

/-- Forwarding from the newest earlier slot that renames a register reads the table
behind the earlier slots. -/
theorem phyFeedback_eq (h : CycleOk x) {n : Nat} (hn : n ≤ renameWidth)
    (hleft : needBefore x n ≤ (freeList x.rat).length) {a : Nat} (ha : a ∈ archRegs)
    {cmp : Nat → Bool} (hcmp : ∀ j, cmp j = true ↔
      j < n ∧ x.input.newPhyIdNeed j = true ∧ (x.slotOp j).rd = a) :
    x.input.phyFeedback cmp a = ratReadPhyId (slotTable x n) a := by
  induction n generalizing cmp with
  | zero =>
      have hnone : anyBit renameWidth cmp = false := anyBit_eq_false_iff.2 fun j _ =>
        Bool.eq_false_iff.2 fun hj => absurd ((hcmp j).1 hj).1 (Nat.not_lt_zero j)
      rw [RenameInput.phyFeedback, hnone, if_neg Bool.false_ne_true]
      rfl
  | succ n ih =>
      rw [read_slotTable_succ h hn hleft ha]
      by_cases hlast : x.input.newPhyIdNeed n = true ∧ (x.slotOp n).rd = a
      · have hbit : cmp n = true := (hcmp n).2 ⟨Nat.lt_succ_self n, hlast⟩
        have hindex : priorityFinderLast renameWidth cmp = n :=
          lastIndexTemp_eq (by omega) hbit fun j hj _ => Bool.eq_false_iff.2 fun hcmpj => by
            have := ((hcmp j).1 hcmpj).1
            omega
        rw [if_pos hlast, RenameInput.phyFeedback, if_pos (anyBit_iff.2 ⟨n, by omega, hbit⟩),
          hindex]
      · rw [if_neg hlast]
        rw [needBefore_succ] at hleft
        refine ih (by omega) (by omega) fun j => (hcmp j).trans ⟨?_, ?_⟩
        · rintro ⟨hj, hmatch⟩
          refine ⟨Nat.lt_of_le_of_ne (Nat.le_of_lt_succ hj) ?_, hmatch⟩
          rintro rfl
          exact hlast hmatch
        · rintro ⟨hj, hmatch⟩
          exact ⟨by omega, hmatch⟩

end Slots

end DreamCore.Proofs
