import DreamCore.Lib.Clocked

/-!
# Handing a bundle on in pieces

A stage holds a list, hands on a front part of it in every cycle and takes the next
list only when the last item has left.  A flush throws the rest away.  Over a run, the
items that entered are those that left or were dropped, then those still pending.
-/

namespace DreamCore.Segments

open DreamCore.Clocked

variable {σ ι α : Type}

/-- What is held, handed on and offered next. -/
structure Stage (σ ι α : Type) where
  pending : σ → List α
  inserted : σ → ι → List α
  arriving : σ → ι → List α
  stall : σ → ι → Bool
  flush : ι → Bool

namespace Stage

variable (p : Stage σ ι α) (state : σ) (input : ι)

/-- What a cycle leaves in the stage. -/
def remaining : List α :=
  if p.flush input then [] else (p.pending state).drop (p.inserted state input).length

def entering : List α :=
  if p.flush input || p.stall state input then [] else p.arriving state input

/-- What leaves the stage, with `true` if it was handed on. -/
def leaving : List (α × Bool) :=
  if p.flush input then (p.pending state).map fun a => (a, false)
  else (p.inserted state input).map fun a => (a, true)

/-- One cycle of such a stage. -/
structure Step (next : σ → ι → σ) : Prop where
  front : p.inserted state input <+: p.pending state
  stalls : p.stall state input = true ↔ p.remaining state input ≠ []
  holds : p.stall state input = true →
    p.pending (next state input) = p.remaining state input
  takes : p.flush input = false → p.stall state input = false →
    p.pending (next state input) = p.arriving state input
  drops : p.flush input = true →
    p.inserted state input = [] ∧ p.pending (next state input) = []

end Stage

variable {p : Stage σ ι α} {next : σ → ι → σ} {state : σ} {input : ι}

/-- The pending items and those that enter are those that leave and those pending next. -/
theorem Stage.Step.flow (h : p.Step state input next) :
    p.pending state ++ p.entering state input =
      (p.leaving state input).map Prod.fst ++ p.pending (next state input) := by
  cases hflush : p.flush input with
  | true =>
      simp [Stage.entering, Stage.leaving, hflush, (h.drops hflush).2, Function.comp_def]
  | false =>
      have hfront : p.inserted state input ++ p.remaining state input = p.pending state := by
        obtain ⟨rest, hrest⟩ := h.front
        simp only [Stage.remaining, hflush, ← hrest, Bool.false_eq_true, if_false,
          List.drop_left]
      have hleaving : (p.leaving state input).map Prod.fst = p.inserted state input := by
        simp [Stage.leaving, hflush, Function.comp_def]
      rw [hleaving, ← hfront]
      cases hstall : p.stall state input with
      | true => simp [Stage.entering, hstall, h.holds hstall]
      | false =>
          have hrest : p.remaining state input = [] := by
            by_contra hne
            rw [h.stalls.2 hne] at hstall
            cases hstall
          simp [Stage.entering, hflush, hstall, hrest, h.takes hflush hstall]

/-- Over a run every item that entered has left once, in order, or is pending. -/
theorem Stage.delivered {inputs : List ι}
    (h : Along next (fun s i => p.Step s i next) state inputs) :
    p.pending state ++ outputs next p.entering state inputs =
      (outputs next p.leaving state inputs).map Prod.fst ++
        p.pending (run next state inputs) := by
  induction inputs generalizing state with
  | nil => simp [outputs]
  | cons input inputs ih =>
      rw [outputs, outputs, ← List.append_assoc, h.1.flow, List.append_assoc, ih h.2,
        List.map_append, List.append_assoc]
      rfl

end DreamCore.Segments
