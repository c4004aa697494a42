import Mathlib.Data.List.Infix

/-!
# Clocked systems

A synchronous circuit is a state type, an input type and a next-state function;
a run is the fold of that function over the inputs of consecutive cycles.  The
rules below turn a one-cycle fact into a fact about every run, under an
assumption on the inputs that may depend on the state they meet.
-/

namespace DreamCore.Clocked

variable {σ τ ι : Type}

/-- The state after the inputs of consecutive cycles. -/
def run (next : σ → ι → σ) (state : σ) (inputs : List ι) : σ :=
  inputs.foldl next state

/-- `P` holds of every pair of a visited state and the input it meets. -/
def Along (next : σ → ι → σ) (P : σ → ι → Prop) : σ → List ι → Prop
  | _, [] => True
  | state, input :: inputs => P state input ∧ Along next P (next state input) inputs

/-- `P` holds of every visited state, the last one included. -/
def Always (next : σ → ι → σ) (P : σ → Prop) : σ → List ι → Prop
  | state, [] => P state
  | state, input :: inputs => P state ∧ Always next P (next state input) inputs

instance decidableAlong {next : σ → ι → σ} {P : σ → ι → Prop} [∀ s i, Decidable (P s i)] :
    ∀ s inputs, Decidable (Along next P s inputs)
  | _, [] => isTrue trivial
  | s, input :: inputs =>
      have : Decidable (Along next P (next s input) inputs) := decidableAlong _ inputs
      inferInstanceAs (Decidable (P s input ∧ Along next P (next s input) inputs))

instance decidableAlways {next : σ → ι → σ} {P : σ → Prop} [∀ s, Decidable (P s)] :
    ∀ s inputs, Decidable (Always next P s inputs)
  | s, [] => inferInstanceAs (Decidable (P s))
  | s, input :: inputs =>
      have : Decidable (Always next P (next s input) inputs) := decidableAlways _ inputs
      inferInstanceAs (Decidable (P s ∧ Always next P (next s input) inputs))

section Run

variable (next : σ → ι → σ)

@[simp] theorem run_nil (state : σ) : run next state [] = state := rfl

@[simp] theorem run_cons (state : σ) (input : ι) (inputs : List ι) :
    run next state (input :: inputs) = run next (next state input) inputs := rfl

theorem run_append (state : σ) (first second : List ι) :
    run next state (first ++ second) = run next (run next state first) second := by
  simp [run]

@[simp] theorem along_nil (P : σ → ι → Prop) (state : σ) :
    Along next P state [] ↔ True := Iff.rfl

@[simp] theorem along_cons (P : σ → ι → Prop) (state : σ) (input : ι)
    (inputs : List ι) :
    Along next P state (input :: inputs) ↔
      P state input ∧ Along next P (next state input) inputs := Iff.rfl

@[simp] theorem always_nil (P : σ → Prop) (state : σ) :
    Always next P state [] ↔ P state := Iff.rfl

@[simp] theorem always_cons (P : σ → Prop) (state : σ) (input : ι)
    (inputs : List ι) :
    Always next P state (input :: inputs) ↔
      P state ∧ Always next P (next state input) inputs := Iff.rfl

theorem along_append (P : σ → ι → Prop) (state : σ) (first second : List ι) :
    Along next P state (first ++ second) ↔
      Along next P state first ∧ Along next P (run next state first) second := by
  induction first generalizing state with
  | nil => simp
  | cons input inputs ih => simp [ih, and_assoc]

end Run

section Rules

variable {next : σ → ι → σ} {P Q : σ → ι → Prop} {Inv : σ → Prop}

theorem Along.mono (himp : ∀ state input, P state input → Q state input)
    {state : σ} {inputs : List ι} (h : Along next P state inputs) :
    Along next Q state inputs := by
  induction inputs generalizing state with
  | nil => trivial
  | cons input inputs ih => exact ⟨himp _ _ h.1, ih h.2⟩

theorem Always.mono {P Q : σ → Prop} {state : σ} {inputs : List ι}
    (h : Always next P state inputs) (himp : ∀ state, P state → Q state) :
    Always next Q state inputs := by
  induction inputs generalizing state with
  | nil => exact himp _ h
  | cons input inputs ih => exact ⟨himp _ h.1, ih h.2⟩

theorem along_of_forall {state : σ} {inputs : List ι}
    (h : ∀ state input, input ∈ inputs → P state input) : Along next P state inputs := by
  induction inputs generalizing state with
  | nil => trivial
  | cons input inputs ih =>
      exact ⟨h _ _ (List.mem_cons_self ..), ih fun _ _ hmem => h _ _ (List.mem_cons_of_mem _ hmem)⟩

theorem Along.and {state : σ} {inputs : List ι} (h : Along next P state inputs)
    (h' : Along next Q state inputs) :
    Along next (fun state input => P state input ∧ Q state input) state inputs := by
  induction inputs generalizing state with
  | nil => trivial
  | cons input inputs ih => exact ⟨⟨h.1, h'.1⟩, ih h.2 h'.2⟩

/-- An invariant kept by every allowed cycle holds after every allowed run. -/
theorem invariant_run (hstep : ∀ state input, Inv state → P state input →
      Inv (next state input))
    {state : σ} (hinit : Inv state) {inputs : List ι}
    (h : Along next P state inputs) : Inv (run next state inputs) := by
  induction inputs generalizing state with
  | nil => exact hinit
  | cons input inputs ih => exact ih (hstep _ _ hinit h.1) h.2

/-- The same rule for the whole path: the invariant may be used in every cycle. -/
theorem Along.strengthen (hstep : ∀ state input, Inv state → P state input →
      Inv (next state input))
    {state : σ} (hinit : Inv state) {inputs : List ι}
    (h : Along next P state inputs) :
    Along next (fun state input => Inv state ∧ P state input) state inputs := by
  induction inputs generalizing state with
  | nil => trivial
  | cons input inputs ih =>
      exact ⟨⟨hinit, h.1⟩, ih (hstep _ _ hinit h.1) h.2⟩

/-- Every visited state satisfies a kept invariant. -/
theorem always_of_step (hstep : ∀ state input, Inv state → P state input →
      Inv (next state input))
    {state : σ} (hinit : Inv state) {inputs : List ι}
    (h : Along next P state inputs) : Always next Inv state inputs := by
  induction inputs generalizing state with
  | nil => exact hinit
  | cons input inputs ih => exact ⟨hinit, ih (hstep _ _ hinit h.1) h.2⟩

/-- Two state predicates that agree under an invariant the second one keeps. -/
theorem always_iff_of_step {Good Cond : σ → Prop}
    (hstep : ∀ state input, Inv state → Cond state → P state input →
      Inv (next state input))
    (hiff : ∀ state, Inv state → (Good state ↔ Cond state))
    {state : σ} (hinit : Inv state) {inputs : List ι}
    (h : Along next P state inputs) :
    Always next Good state inputs ↔ Always next Cond state inputs := by
  induction inputs generalizing state with
  | nil => exact hiff state hinit
  | cons input inputs ih =>
      rw [always_cons, always_cons, hiff state hinit]
      exact and_congr_right fun hcond => ih (hstep _ _ hinit hcond h.1) h.2

/-- Two properties of a cycle that agree under an invariant the second one keeps. -/
theorem along_iff_of_step
    (hstep : ∀ state input, Inv state → Q state input → Inv (next state input))
    (hiff : ∀ state input, Inv state → (P state input ↔ Q state input))
    {state : σ} (hinit : Inv state) (inputs : List ι) :
    Along next P state inputs ↔ Along next Q state inputs := by
  induction inputs generalizing state with
  | nil => exact Iff.rfl
  | cons input inputs ih =>
      rw [along_cons, along_cons, hiff state input hinit]
      exact and_congr_right fun hq => ih (hstep state input hinit hq)

theorem Along.getElem {state : σ} {inputs : List ι} (h : Along next P state inputs) {j : Nat}
    (hj : j < inputs.length) : P (run next state (inputs.take j)) inputs[j] := by
  induction inputs generalizing state j with
  | nil => exact absurd hj (Nat.not_lt_zero j)
  | cons input inputs ih =>
      cases j with
      | zero => exact h.1
      | succ j => exact ih h.2 (Nat.lt_of_succ_lt_succ hj)

theorem Always.last {P : σ → Prop} {state : σ} {inputs : List ι}
    (h : Always next P state inputs) : P (run next state inputs) := by
  induction inputs generalizing state with
  | nil => exact h
  | cons input inputs ih => exact ih h.2

end Rules

section Outputs

variable {ω : Type} {next : σ → ι → σ}

/-- What a circuit emits over the cycles of a run. -/
def outputs (next : σ → ι → σ) (out : σ → ι → List ω) : σ → List ι → List ω
  | _, [] => []
  | state, input :: inputs => out state input ++ outputs next out (next state input) inputs

/-- What enters a queue has left it or is pending, in order. -/
theorem outputs_conserved {Inv : σ → Prop} {P : σ → ι → Prop} {pending : σ → List ω}
    {entering leaving : σ → ι → List ω}
    (hstep : ∀ state input, Inv state → P state input → Inv (next state input))
    (hflow : ∀ state input, Inv state → P state input →
      pending state ++ entering state input = leaving state input ++ pending (next state input))
    {state : σ} (hinit : Inv state) {inputs : List ι} (h : Along next P state inputs) :
    pending state ++ outputs next entering state inputs =
      outputs next leaving state inputs ++ pending (run next state inputs) := by
  induction inputs generalizing state with
  | nil => exact List.append_nil _
  | cons input inputs ih =>
      rw [outputs, outputs, ← List.append_assoc, hflow state input hinit h.1,
        List.append_assoc, ih (hstep state input hinit h.1) h.2, List.append_assoc]
      rfl

theorem outputs_map {ω' : Type} (f : ω → ω') (out : σ → ι → List ω) (state : σ)
    (inputs : List ι) : (outputs next out state inputs).map f =
      outputs next (fun state input => (out state input).map f) state inputs := by
  induction inputs generalizing state with
  | nil => rfl
  | cons input inputs ih => rw [outputs, outputs, List.map_append, ih]

end Outputs

end DreamCore.Clocked
