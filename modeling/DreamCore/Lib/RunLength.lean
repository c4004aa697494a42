import Mathlib.Data.List.Basic

/-!
# Stacks of runs

A stack kept as runs: entry `i`, counted from the bottom, stands for `count i` copies of
`item i`, and only the entries below the top pointer count.
-/

namespace DreamCore.RunLength

variable {α : Type} {item item' : Nat → α} {count count' : Nat → Nat} {n : Nat}

/-- The stack the lowest `n` runs stand for, its head first. -/
def stack (item : Nat → α) (count : Nat → Nat) : Nat → List α
  | 0 => []
  | n + 1 => List.replicate (count n) (item n) ++ stack item count n

theorem stack_congr (h : ∀ i, i < n → item i = item' i ∧ count i = count' i) :
    stack item count n = stack item' count' n := by
  induction n with
  | zero => rfl
  | succ n ih =>
      obtain ⟨hitem, hcount⟩ := h n (Nat.lt_succ_self n)
      rw [stack, stack, hitem, hcount, ih fun i hi => h i (Nat.lt_succ_of_lt hi)]

/-- A run of one on top is a push. -/
theorem stack_push (hbelow : ∀ i, i < n → item' i = item i ∧ count' i = count i)
    (hone : count' n = 1) :
    stack item' count' (n + 1) = item' n :: stack item count n := by
  rw [stack, hone, stack_congr hbelow]
  rfl

/-- One more copy of the head is a push of it. -/
theorem stack_succ (hbelow : ∀ i, i < n → item' i = item i ∧ count' i = count i)
    (hitem : item' n = item n) (hcount : count' n = count n + 1) :
    stack item' count' (n + 1) = item n :: stack item count (n + 1) := by
  rw [stack, stack, hitem, hcount, List.replicate_succ, stack_congr hbelow]
  rfl

theorem stack_head (h : 1 ≤ count n) : (stack item count (n + 1)).head? = some (item n) := by
  obtain ⟨k, hk⟩ := Nat.exists_eq_add_of_le' h
  rw [stack, hk]
  rfl

/-- One copy fewer is a pop. -/
theorem stack_pred (hbelow : ∀ i, i < n → item' i = item i ∧ count' i = count i)
    (hitem : item' n = item n) (hcount : count n = count' n + 1) :
    stack item' count' (n + 1) = (stack item count (n + 1)).tail := by
  rw [stack_succ (fun i hi => ⟨(hbelow i hi).1.symm, (hbelow i hi).2.symm⟩) hitem.symm hcount]
  rfl

/-- Dropping a run of one is a pop. -/
theorem stack_pop (h : count n = 1) :
    (stack item count (n + 1)).tail = stack item count n := by
  rw [stack, h]
  rfl

theorem stack_shift (n : Nat) :
    stack item count (n + 1) =
      stack (fun i => item (i + 1)) (fun i => count (i + 1)) n ++
        List.replicate (count 0) (item 0) := by
  induction n with
  | zero => exact (List.append_nil _)
  | succ n ih => rw [stack, ih, stack, List.append_assoc]

/-- Without the run at the bottom. -/
theorem stack_drop (n : Nat) :
    stack (fun i => item (i + 1)) (fun i => count (i + 1)) n =
      (stack item count (n + 1)).take ((stack item count (n + 1)).length - count 0) := by
  rw [stack_shift, List.length_append, List.length_replicate, Nat.add_sub_cancel,
    List.take_left]

end DreamCore.RunLength
