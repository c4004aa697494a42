import Mathlib.Data.List.Basic

/-!
# Compaction

A mask says which positions of an array are kept.  Every kept position moves down to
its rank, the number of kept positions before it; read back in order, the moved
contents are the kept ones.
-/

namespace DreamCore.Compaction

/-- The kept positions below `n`, in order. -/
def kept (keep : Nat → Bool) (n : Nat) : List Nat := (List.range n).filter keep

/-- Where a kept position moves to. -/
def rank (keep : Nat → Bool) (j : Nat) : Nat := (kept keep j).length

section Rank

variable {keep : Nat → Bool} {j n : Nat}

theorem mem_kept : j ∈ kept keep n ↔ j < n ∧ keep j = true := by
  rw [kept, List.mem_filter, List.mem_range]

@[simp] theorem rank_zero : rank keep 0 = 0 := rfl

theorem kept_succ (keep : Nat → Bool) (n : Nat) :
    kept keep (n + 1) = kept keep n ++ if keep n then [n] else [] := by
  rw [kept, List.range_succ, List.filter_append]
  cases hn : keep n <;> simp [hn, kept]

theorem rank_succ (keep : Nat → Bool) (n : Nat) :
    rank keep (n + 1) = rank keep n + if keep n then 1 else 0 := by
  rw [rank, kept_succ, List.length_append]
  cases keep n <;> rfl

theorem rank_le (keep : Nat → Bool) (n : Nat) : rank keep n ≤ n := by
  induction n with
  | zero => exact Nat.le_refl 0
  | succ n ih =>
      rw [rank_succ]
      split <;> omega

theorem rank_all {n : Nat} (h : ∀ j, j < n → keep j = true) : rank keep n = n := by
  induction n with
  | zero => rfl
  | succ n ih => rw [rank_succ, ih fun j hj => h j (by omega), if_pos (h n (Nat.lt_succ_self n))]

/-- Every position is kept or dropped. -/
theorem rank_add_dropped (keep : Nat → Bool) (n : Nat) :
    rank keep n + rank (fun j => !keep j) n = n := by
  induction n with
  | zero => rfl
  | succ n ih =>
      rw [rank_succ, rank_succ]
      cases keep n <;> simp <;> omega

theorem kept_getElem?_rank (hj : j < n) (hkeep : keep j = true) :
    (kept keep n)[rank keep j]? = some j := by
  induction n with
  | zero => omega
  | succ n ih =>
      rw [kept_succ]
      rcases Nat.lt_succ_iff_lt_or_eq.1 hj with hlt | rfl
      · have hat := ih hlt
        have hlen := (List.getElem?_eq_some_iff.1 hat).1
        rw [List.getElem?_append_left hlen]
        exact hat
      · rw [hkeep, if_pos rfl, rank, List.getElem?_append_right (Nat.le_refl _), Nat.sub_self]
        rfl

/-- Kept positions move to different places. -/
theorem rank_inj {i : Nat} (hi : keep i = true) (hj : keep j = true)
    (h : rank keep i = rank keep j) : i = j := by
  have hiat := kept_getElem?_rank (n := max i j + 1) (by omega) hi
  have hjat := kept_getElem?_rank (n := max i j + 1) (by omega) hj
  rw [h, hjat, Option.some_inj] at hiat
  exact hiat.symm

/-- Every place below the number of kept positions is taken. -/
theorem exists_rank {p : Nat} (hp : p < (kept keep n).length) :
    ∃ j, j < n ∧ keep j = true ∧ rank keep j = p := by
  induction n with
  | zero => exact absurd hp (Nat.not_lt_zero p)
  | succ n ih =>
      rw [kept_succ, List.length_append] at hp
      by_cases hlt : p < (kept keep n).length
      · obtain ⟨j, hj, hkeep, hrank⟩ := ih hlt
        exact ⟨j, by omega, hkeep, hrank⟩
      · cases hn : keep n with
        | false =>
            rw [hn] at hp
            simp only [Bool.false_eq_true, if_false, List.length_nil] at hp
            omega
        | true =>
            rw [hn] at hp
            simp only [if_true, List.length_singleton] at hp
            exact ⟨n, Nat.lt_succ_self n, hn, by rw [rank]; omega⟩

/-- Moved contents, read in order, are the kept contents. -/
theorem map_moved {α : Type} {f g : Nat → α}
    (h : ∀ j, j < n → keep j = true → f (rank keep j) = g j) :
    (List.range (kept keep n).length).map f = (kept keep n).map g := by
  refine List.ext_getElem (by simp) fun p hp hp' => ?_
  have hlen : p < (kept keep n).length := by simpa using hp
  obtain ⟨j, hj, hkeep, rfl⟩ := exists_rank hlen
  have hat := kept_getElem?_rank hj hkeep
  rw [List.getElem?_eq_getElem hlen, Option.some_inj] at hat
  rw [List.getElem_map, List.getElem_map, List.getElem_range, hat]
  exact h j hj hkeep

/-- Behind `n` nothing is kept. -/
theorem kept_of_le {m : Nat} (hm : m ≤ n) (h : ∀ j, keep j = true → j < m) :
    kept keep n = kept keep m := by
  obtain ⟨k, rfl⟩ := Nat.exists_eq_add_of_le hm
  rw [kept, kept, List.range_eq_range', ← List.range'_append_1, List.filter_append,
    ← List.range_eq_range', Nat.zero_add, List.append_right_eq_self, List.filter_eq_nil_iff]
  intro j hj hkeep
  have := (List.mem_range'_1.1 hj).1
  have := h j hkeep
  omega

/-- Behind `n` everything is kept. -/
theorem kept_add {m : Nat} (h : ∀ j, n ≤ j → keep j = true) :
    kept keep (n + m) = kept keep n ++ List.range' n m := by
  rw [kept, kept, List.range_eq_range', ← List.range'_append_1, List.filter_append,
    ← List.range_eq_range', Nat.zero_add]
  congr 1
  rw [List.filter_eq_self]
  exact fun j hj => h j (List.mem_range'_1.1 hj).1

end Rank

end DreamCore.Compaction
