import DreamCore.Proofs.Dispatch

/-!
# The list of enabled items

Walking around the ring from the start on, the set positions of the mask are met in the
order of the list: entry `i` is the position met as number `i`.
-/

namespace DreamCore.Proofs

open DreamCore.Compaction DreamCore.Rtl

/-- The set positions met on a walk around the ring from `startPos` on. -/
def cyclicEnabled (n : Nat) (seq : Nat → Bool) (startPos : Nat) : List Nat :=
  ((List.range n).map fun j => (startPos + j) % n).filter seq

section Walk

variable {n m startPos : Nat} {seq : Nat → Bool}

theorem cyclicEnabled_eq (hstart : startPos < n) : cyclicEnabled n seq startPos =
    (kept (seqShifted n seq startPos) n).map fun j => (startPos + j) % n := by
  rw [cyclicEnabled, List.filter_map, kept]
  congr 1
  exact List.filter_congr fun j hj => (seqShifted_eq hstart (List.mem_range.1 hj)).symm

theorem length_cyclicEnabled (hstart : startPos < n) :
    (cyclicEnabled n seq startPos).length = countOne n seq := by
  rw [cyclicEnabled_eq hstart, List.length_map, countOne_eq_shifted hstart]
  rfl

/-- A set position is in the list at the number of set positions met before it. -/
theorem enabledItemId_rank (hn : n = 2 ^ m) (hstart : startPos < n) {j : Nat} (hj : j < n)
    (hbit : seqShifted n seq startPos j = true) :
    enabledItemId n seq startPos (rank (seqShifted n seq startPos) j) = (startPos + j) % n := by
  have hlt : rank (seqShifted n seq startPos) j < countOne n seq := by
    rw [countOne_eq_shifted hstart]
    exact (List.getElem?_eq_some_iff.1 (kept_getElem?_rank hj hbit)).1
  obtain ⟨i, hi, hrank, hitem, hset⟩ := enabledItemId_spec hn hstart hlt
  rw [hitem, rank_inj ((seqShifted_eq hstart hi).trans hset) hbit hrank]

end Walk

/-- For every power of two, start and mask: the list is the walk, without repetition, and
holds every set position. -/
theorem enabled_items_cyclic {n m startPos : Nat} (hn : n = 2 ^ m) (hstart : startPos < n)
    (seq : Nat → Bool) :
    (∀ i, i < countOne n seq →
      (cyclicEnabled n seq startPos)[i]? = some (enabledItemId n seq startPos i)) ∧
    (cyclicEnabled n seq startPos).length = countOne n seq ∧
    (∀ i k, i < countOne n seq → k < countOne n seq →
      enabledItemId n seq startPos i = enabledItemId n seq startPos k → i = k) ∧
    ∀ p, p < n → (seq p = true ↔ ∃ i, i < countOne n seq ∧ enabledItemId n seq startPos i = p) := by
  have hlen := @length_cyclicEnabled n startPos seq hstart
  have hlist : (List.range (countOne n seq)).map (enabledItemId n seq startPos) =
      cyclicEnabled n seq startPos := by
    rw [cyclicEnabled_eq hstart, countOne_eq_shifted hstart]
    exact map_moved fun j hj hbit => enabledItemId_rank hn hstart hj hbit
  refine ⟨fun i hi => ?_, hlen, fun i k hi hk => enabledItemId_inj hn hstart hi hk, fun p hp => ?_⟩
  · rw [← hlist, List.getElem?_map, List.getElem?_range hi]
    rfl
  · have hmem : seq p = true ↔ p ∈ cyclicEnabled n seq startPos := by
      rw [cyclicEnabled, List.mem_filter, List.mem_map]
      refine ⟨fun hset => ⟨⟨(p + n - startPos) % n, List.mem_range.2 (Nat.mod_lt _ (by omega)), ?_⟩,
        hset⟩, fun h => h.2⟩
      rw [Nat.add_mod_mod, Nat.add_sub_cancel' (by omega), Nat.add_mod_right, Nat.mod_eq_of_lt hp]
    rw [hmem, ← hlist, List.mem_map]
    exact exists_congr fun i => and_congr_left' List.mem_range

theorem enabled_items_cyclic_eight :
    (cyclicEnabled 8 (fun i => decide (i ≠ 2)) 6)[2]? =
        some (enabledItemId 8 (fun i => decide (i ≠ 2)) 6 2) ∧
      enabledItemId 8 (fun i => decide (i ≠ 2)) 6 2 = 0 :=
  ⟨(@enabled_items_cyclic 8 3 6 rfl (by decide) fun i => decide (i ≠ 2)).1 2 (by decide),
    by decide⟩

end DreamCore.Proofs
