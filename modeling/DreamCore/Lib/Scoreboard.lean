import Mathlib.Logic.Function.Basic

/-!
# Cells that wait for a value

A cell has no value from its allocation until something is delivered to it.  In one round
values are delivered first and cells are allocated afterwards; each rule says what a cell
holds after the round.
-/

namespace DreamCore.Scoreboard

variable {P V : Type} [DecidableEq P]

def deliverAll (r : P → Option V) (deliveries : List (P × V)) : P → Option V :=
  deliveries.foldl (fun r d => Function.update r d.1 (some d.2)) r

def allocateAll (r : P → Option V) (cells : List P) : P → Option V :=
  cells.foldl (fun r p => Function.update r p none) r

/-- One round. -/
def next (r : P → Option V) (deliveries : List (P × V)) (cells : List P) : P → Option V :=
  allocateAll (deliverAll r deliveries) cells

section Rules

variable {r : P → Option V} {deliveries : List (P × V)} {cells : List P} {p : P} {v : V}

theorem deliverAll_of_not_mem (h : ∀ w, (p, w) ∉ deliveries) :
    deliverAll r deliveries p = r p := by
  induction deliveries generalizing r with
  | nil => rfl
  | cons d deliveries ih =>
      have hne : p ≠ d.1 := fun heq => h d.2 (by rw [heq]; exact List.mem_cons_self ..)
      have htail := @ih (Function.update r d.1 (some d.2)) fun w hw => h w (List.mem_cons_of_mem d hw)
      exact htail.trans (Function.update_of_ne hne _ _)

/-- A cell that only one value is delivered to holds it. -/
theorem deliverAll_of_mem (h : (p, v) ∈ deliveries) (honly : ∀ w, (p, w) ∈ deliveries → w = v) :
    deliverAll r deliveries p = some v := by
  induction deliveries generalizing r with
  | nil => exact absurd h (List.not_mem_nil)
  | cons d deliveries ih =>
      by_cases htail : ∃ w, (p, w) ∈ deliveries
      · obtain ⟨w, hw⟩ := htail
        obtain rfl := honly w (List.mem_cons_of_mem d hw)
        exact ih hw fun w' hw' => honly w' (List.mem_cons_of_mem d hw')
      · have hd : (p, v) = d := (List.mem_cons.1 h).resolve_right fun hw => htail ⟨v, hw⟩
        subst hd
        have hrest := @deliverAll_of_not_mem _ _ _ (Function.update r p (some v)) deliveries p
          fun w hw => htail ⟨w, hw⟩
        exact hrest.trans (Function.update_self _ _ _)

theorem allocateAll_of_not_mem (h : p ∉ cells) : allocateAll r cells p = r p := by
  induction cells generalizing r with
  | nil => rfl
  | cons c cells ih =>
      rw [List.mem_cons, not_or] at h
      exact (@ih (Function.update r c none) h.2).trans (Function.update_of_ne h.1 _ _)

theorem allocateAll_of_mem (h : p ∈ cells) : allocateAll r cells p = none := by
  induction cells generalizing r with
  | nil => exact absurd h (List.not_mem_nil)
  | cons c cells ih =>
      by_cases htail : p ∈ cells
      · exact ih htail
      · have hc : p = c := (List.mem_cons.1 h).resolve_right htail
        subst hc
        exact (allocateAll_of_not_mem htail).trans (Function.update_self _ _ _)

theorem next_of_not_mem (h : p ∉ cells) : next r deliveries cells p = deliverAll r deliveries p :=
  allocateAll_of_not_mem h

theorem next_of_mem (h : p ∈ cells) : next r deliveries cells p = none := allocateAll_of_mem h

end Rules

end DreamCore.Scoreboard
