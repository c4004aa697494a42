import Mathlib.Data.Nat.ModEq

/-!
# Ring pointers with a wrap bit

A circular buffer of `n` slots kept with two pointers below `2 * n`: the slot is
the pointer modulo `n`, and the bit above it tells a full buffer from an empty
one.  Only the occupancy decides what the two pointers mean.
-/

namespace DreamCore.Ring

/-- Number of slots between the read and the write pointer. -/
def occupancy (n rptr wptr : Nat) : Nat := (wptr + 2 * n - rptr) % (2 * n)

/-- The slot a pointer designates. -/
def slot (n ptr : Nat) : Nat := ptr % n

/-- The wrap bit of a pointer below `2 * n`. -/
def stage (n ptr : Nat) : Bool := decide (n ≤ ptr)

/-- A slot is live when it lies between the pointers. -/
def Live (n rptr wptr id : Nat) : Prop :=
  ∃ k, k < occupancy n rptr wptr ∧ id = slot n (rptr + k)

/-- Pointers a ring of `n` slots can hold. -/
structure WellFormed (n rptr wptr : Nat) : Prop where
  rptr_lt : rptr < 2 * n
  wptr_lt : wptr < 2 * n
  fits : occupancy n rptr wptr ≤ n

theorem mod_of_lt_two_mul {m a : Nat} (h : a < 2 * m) :
    a % m = if a < m then a else a - m := by
  split
  · exact Nat.mod_eq_of_lt ‹_›
  · rw [Nat.mod_eq_sub_mod (by omega), Nat.mod_eq_of_lt (by omega)]

theorem slot_eq {n ptr : Nat} (h : ptr < 2 * n) :
    slot n ptr = if ptr < n then ptr else ptr - n := mod_of_lt_two_mul h

theorem slot_of_lt_three_mul {n ptr : Nat} (h : ptr < 3 * n) :
    slot n ptr =
      if ptr < n then ptr else if ptr < 2 * n then ptr - n else ptr - 2 * n := by
  by_cases hlow : ptr < 2 * n
  · rw [slot_eq hlow]
    split <;> simp_all
  · rw [slot, Nat.mod_eq_sub_mod (by omega), mod_of_lt_two_mul (by omega)]
    repeat' split
    all_goals omega

theorem slot_next (n ptr : Nat) : (slot n ptr + 1) % n = slot n (ptr + 1) := Nat.mod_add_mod ptr n 1

theorem slot_lt {n ptr : Nat} (hn : 0 < n) : slot n ptr < n := Nat.mod_lt _ hn

theorem occupancy_eq {n rptr wptr : Nat} (hr : rptr < 2 * n) (hw : wptr < 2 * n) :
    occupancy n rptr wptr =
      if rptr ≤ wptr then wptr - rptr else wptr + 2 * n - rptr := by
  rw [occupancy, mod_of_lt_two_mul (by omega)]
  split <;> split <;> omega

theorem occupancy_eq_zero_iff {n rptr wptr : Nat} (hr : rptr < 2 * n)
    (hw : wptr < 2 * n) : occupancy n rptr wptr = 0 ↔ rptr = wptr := by
  rw [occupancy_eq hr hw]
  split <;> omega

/-- The usual full test: equal slots and different wrap bits. -/
theorem full_iff {n rptr wptr : Nat} (hr : rptr < 2 * n) (hw : wptr < 2 * n) :
    (stage n rptr ≠ stage n wptr ∧ slot n rptr = slot n wptr) ↔
      occupancy n rptr wptr = n := by
  rw [occupancy_eq hr hw, slot_eq hr, slot_eq hw]
  simp only [stage, ne_eq, decide_eq_decide]
  repeat' split
  all_goals omega

/-- Advancing the write pointer by what still fits adds to the occupancy. -/
theorem occupancy_push {n rptr wptr k : Nat} (hr : rptr < 2 * n)
    (hw : wptr < 2 * n) (hfit : occupancy n rptr wptr + k < 2 * n) :
    occupancy n rptr ((wptr + k) % (2 * n)) = occupancy n rptr wptr + k := by
  rw [occupancy_eq hr hw] at *
  have hk : k < 2 * n := by split at hfit <;> omega
  rw [mod_of_lt_two_mul (by omega : wptr + k < 2 * (2 * n)),
    occupancy_eq hr (by split <;> omega)]
  repeat' split
  all_goals (repeat' split at hfit)
  all_goals omega

/-- Advancing the read pointer by what is there takes from the occupancy. -/
theorem occupancy_pop {n rptr wptr k : Nat} (hr : rptr < 2 * n)
    (hw : wptr < 2 * n) (hfit : k ≤ occupancy n rptr wptr) :
    occupancy n ((rptr + k) % (2 * n)) wptr = occupancy n rptr wptr - k := by
  rw [occupancy_eq hr hw] at *
  have hk : k < 2 * n := by split at hfit <;> omega
  rw [mod_of_lt_two_mul (by omega : rptr + k < 2 * (2 * n)),
    occupancy_eq (by split <;> omega) hw]
  repeat' split
  all_goals (repeat' split at hfit)
  all_goals omega

/-- Slots at different distances from the read pointer are different. -/
theorem slot_add_inj {n rptr j k : Nat} (hj : j < n) (hk : k < n)
    (h : slot n (rptr + j) = slot n (rptr + k)) : j = k := by
  have hmod : Nat.ModEq n (rptr + j) (rptr + k) := h
  exact (Nat.ModEq.add_left_cancel' rptr hmod).eq_of_lt_of_lt hj hk

theorem live_iff {n rptr wptr id : Nat} (h : WellFormed n rptr wptr) (hid : id < n) :
    Live n rptr wptr id ↔
      if slot n rptr < slot n wptr then slot n rptr ≤ id ∧ id < slot n wptr
      else (slot n rptr ≤ id ∨ id < slot n wptr) ∧ rptr ≠ wptr := by
  obtain ⟨hr, hw, hfit⟩ := h
  have hocc := occupancy_eq hr hw
  rw [slot_eq hr, slot_eq hw]
  constructor
  · rintro ⟨k, hk, rfl⟩
    have hslot := slot_of_lt_three_mul (by omega : rptr + k < 3 * n)
    rw [hocc] at hk hfit
    rw [hslot] at hid ⊢
    repeat' split
    all_goals (repeat' split at hk)
    all_goals (repeat' split at hfit)
    all_goals omega
  · intro hin
    -- The distance of `id` from the read slot, measured upwards around the ring.
    refine ⟨if slot n rptr ≤ id then id - slot n rptr else id + n - slot n rptr, ?_, ?_⟩
    · rw [hocc, slot_eq hr]
      rw [hocc] at hfit
      repeat' split at hin
      all_goals (repeat' split)
      all_goals (repeat' split at hfit)
      all_goals omega
    · rw [slot_eq hr]
      have hlt : rptr + (if (if rptr < n then rptr else rptr - n) ≤ id then
          id - (if rptr < n then rptr else rptr - n)
          else id + n - (if rptr < n then rptr else rptr - n)) < 3 * n := by
        repeat' split
        all_goals omega
      rw [slot_of_lt_three_mul hlt]
      repeat' split
      all_goals omega

/-! ## Contents -/

section Contents

variable {α : Type} {n rptr wptr : Nat} {buffer buffer' : Nat → α}

/-- What the live slots hold, from the read pointer on. -/
def contents (n : Nat) (buffer : Nat → α) (rptr wptr : Nat) : List α :=
  (List.range (occupancy n rptr wptr)).map fun k => buffer (slot n (rptr + k))

@[simp] theorem length_contents (n : Nat) (buffer : Nat → α) (rptr wptr : Nat) :
    (contents n buffer rptr wptr).length = occupancy n rptr wptr := by
  simp [contents]

theorem contents_getElem? {k : Nat} (hk : k < occupancy n rptr wptr) :
    (contents n buffer rptr wptr)[k]? = some (buffer (slot n (rptr + k))) := by
  simp [contents, hk]

theorem slot_mod (n ptr : Nat) : slot n (ptr % (2 * n)) = slot n ptr :=
  Nat.mod_mod_of_dvd ptr (Nat.dvd_mul_left n 2)

theorem slot_add_mod (n a k : Nat) : slot n (a % (2 * n) + k) = slot n (a + k) := by
  have hmod : a % (2 * n) % n = a % n := slot_mod n a
  rw [slot, slot, Nat.add_mod, hmod, ← Nat.add_mod]

/-- The write pointer designates the slot behind the last live one. -/
theorem slot_wptr (h : WellFormed n rptr wptr) :
    slot n wptr = slot n (rptr + occupancy n rptr wptr) := by
  obtain ⟨hr, hw, _⟩ := h
  rw [occupancy_eq hr hw]
  split
  · rw [Nat.add_sub_cancel' ‹_›]
  · rw [Nat.add_sub_cancel' (by omega), slot, slot, Nat.add_mul_mod_self_right]

theorem wptr_eq (h : WellFormed n rptr wptr) :
    wptr = (rptr + occupancy n rptr wptr) % (2 * n) := by
  obtain ⟨hr, hw, _⟩ := h
  rw [occupancy_eq hr hw]
  split
  · rw [Nat.add_sub_cancel' ‹_›, Nat.mod_eq_of_lt hw]
  · rw [Nat.add_sub_cancel' (by omega), Nat.add_mod_right, Nat.mod_eq_of_lt hw]

/-- The pointer `k` slots behind the read pointer leaves `k` slots live. -/
theorem occupancy_cut {k : Nat} (hr : rptr < 2 * n) (hk : k < 2 * n) :
    occupancy n rptr ((rptr + k) % (2 * n)) = k := by
  have hself : occupancy n rptr rptr = 0 := (occupancy_eq_zero_iff hr hr).2 rfl
  rw [occupancy_push hr hr (by omega), hself, Nat.zero_add]

theorem contents_map {f : α → α}
    (h : ∀ k, k < occupancy n rptr wptr →
      buffer' (slot n (rptr + k)) = f (buffer (slot n (rptr + k)))) :
    contents n buffer' rptr wptr = (contents n buffer rptr wptr).map f := by
  rw [contents, contents, List.map_map]
  exact List.map_congr_left fun k hk => h k (List.mem_range.1 hk)

theorem contents_cut {k : Nat} (hr : rptr < 2 * n) (hk : k ≤ occupancy n rptr wptr)
    (hn : k < 2 * n) :
    contents n buffer rptr ((rptr + k) % (2 * n)) = (contents n buffer rptr wptr).take k := by
  rw [contents, occupancy_cut hr hn, contents, ← List.map_take, List.take_range,
    Nat.min_eq_left hk]

theorem contents_pop {k : Nat} (h : WellFormed n rptr wptr) (hk : k ≤ occupancy n rptr wptr) :
    contents n buffer ((rptr + k) % (2 * n)) wptr = (contents n buffer rptr wptr).drop k := by
  obtain ⟨hr, hw, _⟩ := h
  apply List.ext_getElem?
  intro i
  rw [List.getElem?_drop]
  rcases Nat.lt_or_ge i (occupancy n rptr wptr - k) with hlt | hge
  · rw [contents_getElem? (by rw [occupancy_pop hr hw hk]; exact hlt),
      contents_getElem? (by omega), slot_add_mod, Nat.add_assoc]
  · rw [List.getElem?_eq_none, List.getElem?_eq_none]
    · rw [length_contents]
      omega
    · rw [length_contents, occupancy_pop hr hw hk]
      exact hge

theorem contents_push (h : WellFormed n rptr wptr) (hfit : occupancy n rptr wptr < n) :
    contents n buffer rptr ((wptr + 1) % (2 * n)) =
      contents n buffer rptr wptr ++ [buffer (slot n wptr)] := by
  obtain ⟨hr, hw, hle⟩ := h
  rw [contents, occupancy_push hr hw (by omega), List.range_succ, List.map_append,
    slot_wptr ⟨hr, hw, hle⟩]
  rfl

/-- Writing a group of items behind the live ones appends them. -/
theorem contents_append {items : Nat → α} {k : Nat} (h : WellFormed n rptr wptr)
    (hfit : occupancy n rptr wptr + k ≤ n)
    (hlive : ∀ i, i < occupancy n rptr wptr →
      buffer' (slot n (rptr + i)) = buffer (slot n (rptr + i)))
    (hnew : ∀ j, j < k → buffer' (slot n (wptr + j)) = items j) :
    contents n buffer' rptr ((wptr + k) % (2 * n)) =
      contents n buffer rptr wptr ++ (List.range k).map items := by
  obtain ⟨hr, hw, hle⟩ := h
  rcases Nat.eq_zero_or_pos n with rfl | hn
  · omega
  have hslot : ∀ j, slot n (rptr + (occupancy n rptr wptr + j)) = slot n (wptr + j) := by
    intro j
    have hmod : Nat.ModEq n wptr (rptr + occupancy n rptr wptr) := slot_wptr ⟨hr, hw, hle⟩
    rw [← Nat.add_assoc]
    exact (hmod.add_right j).symm
  rw [contents, occupancy_push hr hw (by omega), List.range_add, List.map_append, List.map_map]
  congr 1
  · exact List.map_congr_left fun i hi => hlive i (List.mem_range.1 hi)
  · refine List.map_congr_left fun j hj => ?_
    show buffer' (slot n (rptr + (occupancy n rptr wptr + j))) = items j
    rw [hslot, hnew j (List.mem_range.1 hj)]

/-- The slot behind the live ones is none of them. -/
theorem slot_wptr_ne (h : WellFormed n rptr wptr) (hfit : occupancy n rptr wptr < n) {k : Nat}
    (hk : k < occupancy n rptr wptr) : slot n (rptr + k) ≠ slot n wptr := by
  intro heq
  rw [slot_wptr h] at heq
  have := slot_add_inj (by omega) hfit heq
  omega

theorem live_slot {k : Nat} (hk : k < occupancy n rptr wptr) :
    Live n rptr wptr (slot n (rptr + k)) := ⟨k, hk, rfl⟩

end Contents

/-! ## Slot and stage kept apart -/

section Apart

variable {n ptr rptr wptr : Nat}

/-- The slot is counted up to `n` and then starts again at 0. -/
theorem slot_succ (hptr : ptr < 2 * n) :
    (if slot n ptr + 1 ≥ n then 0 else slot n ptr + 1) = slot n ((ptr + 1) % (2 * n)) := by
  rw [slot_mod, slot_eq hptr, slot_of_lt_three_mul (by omega : ptr + 1 < 3 * n)]
  repeat' split
  all_goals omega

/-- The stage turns over where the slot starts again. -/
theorem stage_succ (hptr : ptr < 2 * n) :
    (if slot n ptr + 1 ≥ n then !stage n ptr else stage n ptr) =
      stage n ((ptr + 1) % (2 * n)) := by
  rw [mod_of_lt_two_mul (by omega), slot_eq hptr, Bool.eq_iff_iff]
  simp only [stage]
  repeat' split
  all_goals simp only [Bool.not_eq_true', decide_eq_false_iff_not, decide_eq_true_eq]
  all_goals omega

/-- The distance of the slots is the occupancy, up to a full ring. -/
theorem slot_distance (h : WellFormed n rptr wptr) (hfree : occupancy n rptr wptr < n) :
    (slot n wptr + n - slot n rptr) % n = occupancy n rptr wptr := by
  obtain ⟨hr, hw, _⟩ := h
  have hlt : slot n wptr + n - slot n rptr < 2 * n := by
    have : slot n wptr < n := slot_lt (by omega)
    omega
  rw [mod_of_lt_two_mul hlt]
  rw [occupancy_eq hr hw] at *
  rw [slot_eq hr, slot_eq hw]
  repeat' split
  all_goals (repeat' split at hfree)
  all_goals omega

end Apart

end DreamCore.Ring
