import DreamCore.Proofs.RetireCycle
import DreamCore.Rtl.Wb

/-!
# Results and entries of the list

The execution units answer in any order, each instruction in flight at most once; a
result rewrites the one entry it names.  The entries of the next cycle are those
that did not retire, perhaps rewritten, and the pushed ones.
-/

namespace DreamCore.Proofs

open DreamCore.Model DreamCore.Rtl

variable {γ : Type}

theorem robItem_zero_or (item : RobItem) : Packed.or (Packed.zero : RobItem) item = item := by
  simp [Packed.or, Packed.zero, RobItem.or, RobItem.zero]

theorem robItem_or_zero (item : RobItem) : Packed.or item (Packed.zero : RobItem) = item := by
  simp [Packed.or, Packed.zero, RobItem.or, RobItem.zero]

/-- Every enabled pack is the only one for an unfinished instruction in flight, and
related to its entry by `R`. -/
structure Answers (R : Entry γ → ExecuteWbPack → Prop) (r : IdealRob γ)
    (packs : Nat → ExecuteWbPack) : Prop where
  inFlight : ∀ j, j < wbWidth → (packs j).enable = true →
    ∃ k, ∃ hk : k < r.entries.length, (packs j).robId = r.idAt k ∧
      r.entries[k].item.finish = false ∧ R r.entries[k] (packs j)
  once : ∀ i, i < wbWidth → ∀ j, j < wbWidth → (packs i).enable = true →
    (packs j).enable = true → (packs i).robId = (packs j).robId → i = j

instance (R : Entry γ → ExecuteWbPack → Prop) [∀ e w, Decidable (R e w)] (r : IdealRob γ)
    (packs : Nat → ExecuteWbPack) : Decidable (Answers R r packs) :=
  decidable_of_iff ((∀ j, j < wbWidth → (packs j).enable = true →
      ∃ k, ∃ hk : k < r.entries.length, (packs j).robId = r.idAt k ∧
        r.entries[k].item.finish = false ∧ R r.entries[k] (packs j)) ∧
      ∀ i, i < wbWidth → ∀ j, j < wbWidth → (packs i).enable = true →
        (packs j).enable = true → (packs i).robId = (packs j).robId → i = j)
    ⟨fun h => ⟨h.1, h.2⟩, fun h => ⟨h.inFlight, h.once⟩⟩

theorem answers_zero (R : Entry γ → ExecuteWbPack → Prop) (r : IdealRob γ) :
    Answers R r fun _ => ExecuteWbPack.zero :=
  ⟨fun _ _ h => absurd h Bool.false_ne_true, fun _ _ _ _ h => absurd h Bool.false_ne_true⟩

/-- The entry's item after a result. -/
def finishedItem (item : RobItem) (w : ExecuteWbPack) : RobItem :=
  { item with
    finish := true
    hasException := w.hasException
    exceptionId := w.exceptionId
    exceptionValue := w.exceptionValue
    predicted := w.predicted
    predictedJump := w.predictedJump
    predictedNextPc := w.predictedNextPc
    checkpointIdValid := w.checkpointIdValid
    checkpointId := w.checkpointId
    bruOp := decide (w.opUnit = .bru)
    bruJump := w.bruJump
    bruNextPc := w.bruNextPc
    csrNewvalue := w.csrNewvalue
    csrNewvalueValid := w.csrNewvalueValid }

section Write

variable {R : Entry γ → ExecuteWbPack → Prop} {s : CommitState} {c : CommitInput}
  {r : IdealRob γ}

/-- An entry keeps its item or takes the result of the one pack that names it. -/
theorem robItemWritten_cases (hview : Shows c.rob r)
    (hport : Answers R r c.wbCommitPortDataOut) {k : Nat} (hk : k < r.entries.length) :
    (robItemWritten s c (r.idAt k) r.entries[k].item = r.entries[k].item ∧
      ∀ j, j < wbWidth → commitRobInputDataWe s c j = true →
        (c.wbCommitPortDataOut j).robId ≠ r.idAt k) ∨
    ∃ j, j < wbWidth ∧ commitRobInputDataWe s c j = true ∧
      (c.wbCommitPortDataOut j).robId = r.idAt k ∧
      R r.entries[k] (c.wbCommitPortDataOut j) ∧
      robItemWritten s c (r.idAt k) r.entries[k].item =
        finishedItem r.entries[k].item (c.wbCommitPortDataOut j) := by
  have hwf := hview.wf
  have hsize := hwf.2
  have henable : ∀ {j}, commitRobInputDataWe s c j = true →
      (c.wbCommitPortDataOut j).enable = true := fun h => (Bool.and_eq_true_iff.1 h).2
  by_cases hany : ∃ j, j < wbWidth ∧ commitRobInputDataWe s c j = true ∧
      (c.wbCommitPortDataOut j).robId = r.idAt k
  · right
    obtain ⟨j, hj, hwe, hid⟩ := hany
    obtain ⟨k', hk', hid', _, hresult⟩ := hport.inFlight j hj (henable hwe)
    have heq : k' = k := idAt_inj hwf (by omega) (by omega) (hid'.symm.trans hid)
    subst heq
    refine ⟨j, hj, hwe, hid, hresult, ?_⟩
    have hcmp : ∀ i, i < wbWidth →
        ((decide ((c.wbCommitPortDataOut i).robId = r.idAt k') && commitRobInputDataWe s c i) =
          true ↔ i = j) := by
      intro i hi
      rw [Bool.and_eq_true, decide_eq_true_iff]
      constructor
      · rintro ⟨hidi, hwei⟩
        exact hport.once i hi j hj (henable hwei) (henable hwe) (hidi.trans hid.symm)
      · rintro rfl
        exact ⟨hid, hwe⟩
    rw [robItemWritten, if_pos (anyBit_iff.2 ⟨j, hj, (hcmp j hj).2 rfl⟩),
      dataSelector_single robItem_zero_or robItem_or_zero hj hcmp]
    have hdata : c.rob.data (c.wbCommitPortDataOut j).robId = r.entries[k'].item := by
      rw [hid, hview.data k' hk']
    rw [inputRobItem, hdata]
    rfl
  · left
    have hnone : ∀ j, j < wbWidth → commitRobInputDataWe s c j = true →
        (c.wbCommitPortDataOut j).robId ≠ r.idAt k :=
      fun j hj hwe hid => hany ⟨j, hj, hwe, hid⟩
    refine ⟨?_, hnone⟩
    rw [robItemWritten, if_neg]
    rintro hcmp
    obtain ⟨j, hj, h⟩ := anyBit_iff.1 hcmp
    rw [Bool.and_eq_true, decide_eq_true_iff] at h
    exact hnone j hj h.2 h.1

end Write

/-! ## The entries of the next cycle -/

section Next

variable {r : IdealRob γ} {update : Nat → Entry γ → Entry γ} {n : Nat} {pushed : List (Entry γ)}

theorem entries_next_list :
    (r.next update n pushed false).entries = (r.entries.mapIdx update).drop n ++ pushed := by
  simp [IdealRob.next]

theorem entries_cleared : (r.next update n pushed true).entries = [] := by
  simp [IdealRob.next]

theorem idAt_next_list (k : Nat) :
    (r.next update n pushed false).idAt k = r.idAt (n + k) := by
  simp only [IdealRob.idAt, IdealRob.next, Bool.false_eq_true, if_false, robSize]
  omega

variable (update pushed) in
/-- An entry that does not retire moves towards the head. -/
theorem getElem_next_list {k : Nat} (hk : k < r.entries.length) (hn : n ≤ k) :
    ∃ hk' : k - n < (r.next update n pushed false).entries.length,
      (r.next update n pushed false).entries[k - n] = update k r.entries[k] := by
  have hlen : k - n < ((r.entries.mapIdx update).drop n).length := by
    simp only [List.length_drop, List.length_mapIdx]
    omega
  have heq : (r.next update n pushed false).entries = _ := entries_next_list
  refine ⟨by rw [heq, List.length_append]; omega, ?_⟩
  simp only [heq, List.getElem_append_left hlen, List.getElem_drop, List.getElem_mapIdx]
  congr 1
  · omega
  · congr 1
    omega

/-- An entry of the next cycle is an older one, perhaps rewritten, or a new one. -/
theorem getElem_next_cases {i : Nat}
    (hi : i < (r.next update n pushed false).entries.length) :
    (∃ hk : n + i < r.entries.length,
      (r.next update n pushed false).entries[i] = update (n + i) r.entries[n + i]) ∨
    (r.entries.length ≤ n + i ∧ (r.next update n pushed false).entries[i] ∈ pushed) := by
  rcases Nat.lt_or_ge (n + i) r.entries.length with hlt | hge
  · left
    refine ⟨hlt, ?_⟩
    obtain ⟨hk', hget⟩ := getElem_next_list update pushed hlt (Nat.le_add_right n i)
    rw [← hget]
    congr 1
    omega
  · right
    refine ⟨hge, ?_⟩
    have hlen : ((r.entries.mapIdx update).drop n).length ≤ i := by
      simp only [List.length_drop, List.length_mapIdx]
      omega
    simp only [entries_next_list, List.getElem_append_right hlen]
    exact List.getElem_mem _

theorem wellFormed_next_list
    (hfit : r.entries.length - n + pushed.length ≤ robSize) :
    (r.next update n pushed false).WellFormed := by
  refine ⟨?_, ?_⟩
  · simp only [IdealRob.next, Bool.false_eq_true, if_false]
    exact Nat.mod_lt _ (by decide)
  · rw [entries_next_list, List.length_append, List.length_drop, List.length_mapIdx]
    exact hfit

theorem wellFormed_cleared : (r.next update n pushed true).WellFormed := by
  refine ⟨?_, ?_⟩ <;> simp [IdealRob.next]

end Next

end DreamCore.Proofs
