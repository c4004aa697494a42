import DreamCore.Lib.Ring
import Mathlib.Data.List.Nodup
import Mathlib.Data.Nat.Find
import Mathlib.Data.List.Perm.Subperm
import Mathlib.Data.List.TakeWhile

/-!
# Combinational building blocks

The small modules the pipeline instantiates everywhere: `count_one`,
`data_selector`, `parallel_finder`, `priority_finder`, and the `ptr_in_range`
macro.  A vector of wires is a function of its index.
-/

namespace DreamCore.Rtl

open DreamCore.Ring

/-! ## `count_one` -/

/-- `count_one` with `CONTINUOUS = 0`. -/
def countOne : Nat → (Nat → Bool) → Nat
  | 0, _ => 0
  | width + 1, dataIn => countOne width dataIn + (dataIn width).toNat

def foundBlank (dataIn : Nat → Bool) : Nat → Bool
  | 0 => !dataIn 0
  | i + 1 => foundBlank dataIn i || !dataIn (i + 1)

def continuousSum (dataIn : Nat → Bool) : Nat → Nat
  | 0 => (dataIn 0).toNat
  | i + 1 =>
      continuousSum dataIn i + if foundBlank dataIn i then 0 else (dataIn (i + 1)).toNat

/-- `count_one` with `CONTINUOUS = 1`: only the ones before the first zero count. -/
def countOneContinuous (width : Nat) (dataIn : Nat → Bool) : Nat :=
  continuousSum dataIn (width - 1)

theorem countOne_congr {width : Nat} {f g : Nat → Bool}
    (h : ∀ i, i < width → f i = g i) : countOne width f = countOne width g := by
  induction width with
  | zero => rfl
  | succ width ih =>
      rw [countOne, countOne, ih fun i hi => h i (by omega), h width (by omega)]

/-- Ones confined to the first `bound` positions are at most `bound` many. -/
theorem countOne_le_bound {width bound : Nat} {dataIn : Nat → Bool}
    (h : ∀ i, i < width → dataIn i = true → i < bound) :
    countOne width dataIn ≤ bound := by
  induction width with
  | zero => exact Nat.zero_le _
  | succ width ih =>
      cases hbit : dataIn width with
      | false =>
          have := ih fun i hi => h i (by omega)
          simpa [countOne, hbit] using this
      | true =>
          have hlt := h width (by omega) hbit
          have hle : countOne width dataIn ≤ width := by
            clear ih hbit hlt h
            induction width with
            | zero => exact Nat.zero_le _
            | succ width ih => cases hb : dataIn width <;> simp [countOne, hb] <;> omega
          simp only [countOne, hbit, Bool.toNat_true]
          omega

theorem countOne_le (width : Nat) (dataIn : Nat → Bool) :
    countOne width dataIn ≤ width :=
  countOne_le_bound fun _ hi _ => hi

/-- A block of `count` leading ones counts as `count`. -/
theorem countOne_block {width count : Nat} {dataIn : Nat → Bool} (hle : count ≤ width)
    (h : ∀ i, i < width → dataIn i = decide (i < count)) :
    countOne width dataIn = count := by
  induction width generalizing count with
  | zero => simp [countOne]; omega
  | succ width ih =>
      have hbit := h width (by omega)
      rcases Nat.lt_or_ge width count with hlt | hge
      · have hcount : count = width + 1 := by omega
        subst hcount
        rw [countOne, ih (Nat.le_refl _) fun i hi => ?_, hbit]
        · simp
        · rw [h i (by omega)]
          simp only [decide_eq_decide]
          omega
      · rw [countOne, ih hge fun i hi => h i (by omega), hbit]
        simp only [decide_eq_false (by omega : ¬width < count)]
        rfl

/-- Ones and zeros of a vector add up to its width. -/
theorem countOne_add_not (width : Nat) (dataIn : Nat → Bool) :
    countOne width dataIn + countOne width (fun i => !dataIn i) = width := by
  induction width with
  | zero => rfl
  | succ width ih => cases hbit : dataIn width <;> simp [countOne, hbit] <;> omega

/-- Clearing a bit that is set takes one away. -/
theorem countOne_clear {width k : Nat} {dataIn cleared : Nat → Bool} (hk : k < width)
    (hbit : dataIn k = true) (hclear : cleared k = false)
    (hother : ∀ i, i ≠ k → cleared i = dataIn i) :
    countOne width cleared + 1 = countOne width dataIn := by
  induction width with
  | zero => omega
  | succ width ih =>
      rw [countOne, countOne]
      rcases Nat.lt_succ_iff_lt_or_eq.1 hk with hlt | rfl
      · have hrest := ih hlt
        rw [hother width (by omega)]
        omega
      · have hsame : countOne k cleared = countOne k dataIn :=
          countOne_congr fun i hi => hother i (by omega)
        rw [hsame, hclear, hbit]
        rfl

/-- A filter that only looks at the first elements of a range. -/
theorem filter_range_prefix {n m : Nat} {p q : Nat → Bool} (hn : n ≤ m)
    (h : ∀ i, i < m → p i = (decide (i < n) && q i)) :
    (List.range m).filter p = (List.range n).filter q := by
  obtain ⟨d, rfl⟩ := Nat.exists_eq_add_of_le hn
  have hfirst : (List.range n).filter p = (List.range n).filter q :=
    List.filter_congr fun i hi => by
      have hlt := List.mem_range.1 hi
      rw [h i (by omega), decide_eq_true hlt, Bool.true_and]
  have hrest : ((List.range d).map (n + ·)).filter p = [] :=
    List.filter_eq_nil_iff.2 fun i hi => by
      obtain ⟨k, hk, rfl⟩ := List.mem_map.1 hi
      have hlt := List.mem_range.1 hk
      rw [h (n + k) (by omega), decide_eq_false (by omega), Bool.false_and]
      exact Bool.false_ne_true
  rw [List.range_add, List.filter_append, hfirst, hrest, List.append_nil]

theorem countOne_eq_filter (width : Nat) (dataIn : Nat → Bool) :
    countOne width dataIn = ((List.range width).filter dataIn).length := by
  induction width with
  | zero => rfl
  | succ width ih =>
      rw [countOne, ih, List.range_succ, List.filter_append, List.length_append]
      cases hbit : dataIn width <;> simp [hbit]

/-- A vector whose ones all lie in a list has at most as many ones. -/
theorem countOne_le_length {width : Nat} {dataIn : Nat → Bool} {l : List Nat}
    (h : ∀ i, i < width → dataIn i = true → i ∈ l) : countOne width dataIn ≤ l.length := by
  rw [countOne_eq_filter]
  refine (List.subperm_of_subset (List.nodup_range.filter _) fun i hi => ?_).length_le
  obtain ⟨hrange, hbit⟩ := List.mem_filter.1 hi
  exact h i (List.mem_range.1 hrange) hbit

/-- A vector closed downwards is a block of leading ones. -/
theorem countOne_block_of_closed {width : Nat} {dataIn : Nat → Bool}
    (h : ∀ i, i + 1 < width → dataIn (i + 1) = true → dataIn i = true) :
    ∀ i, i < width → dataIn i = decide (i < countOne width dataIn) := by
  induction width with
  | zero => exact fun i hi => absurd hi (Nat.not_lt_zero i)
  | succ width ih =>
      have hblock := ih fun i hi => h i (by omega)
      have hle := countOne_le width dataIn
      intro i hi
      cases hbit : dataIn width with
      | false =>
          rcases Nat.lt_succ_iff_lt_or_eq.1 hi with hlt | rfl
          · simpa [countOne, hbit] using hblock i hlt
          · simp only [countOne, hbit, Bool.toNat_false, Nat.add_zero]
            exact (decide_eq_false (by omega)).symm
      | true =>
          -- The last one forces every earlier position.
          have hall : countOne width dataIn = width := by
            rcases Nat.eq_zero_or_pos width with rfl | hpos
            · rfl
            · have hprev : dataIn (width - 1) = true := by
                have hw : width - 1 + 1 = width := by omega
                exact h (width - 1) (by omega) (by rw [hw]; exact hbit)
              have := hblock (width - 1) (by omega)
              rw [hprev] at this
              have := of_decide_eq_true this.symm
              omega
          rw [countOne, hall, hbit]
          rcases Nat.lt_succ_iff_lt_or_eq.1 hi with hlt | rfl
          · rw [hblock i hlt, hall]
            simp only [Bool.toNat_true, decide_eq_decide]
            omega
          · simp [hbit]

theorem foundBlank_block {width count : Nat} {dataIn : Nat → Bool}
    (h : ∀ i, i < width → dataIn i = decide (i < count)) {i : Nat} (hi : i < width) :
    foundBlank dataIn i = decide (count ≤ i) := by
  induction i with
  | zero =>
      rw [foundBlank, h 0 hi, ← decide_not, decide_eq_decide]
      omega
  | succ i ih =>
      rw [foundBlank, ih (by omega), h (i + 1) hi, ← decide_not, ← Bool.decide_or,
        decide_eq_decide]
      omega

theorem continuousSum_block {width count : Nat} {dataIn : Nat → Bool}
    (h : ∀ i, i < width → dataIn i = decide (i < count)) {i : Nat} (hi : i < width) :
    continuousSum dataIn i = min (i + 1) count := by
  induction i with
  | zero =>
      rw [continuousSum, h 0 hi]
      by_cases hcount : 0 < count
      · rw [decide_eq_true hcount, Bool.toNat_true]
        omega
      · rw [decide_eq_false hcount, Bool.toNat_false]
        omega
  | succ i ih =>
      rw [continuousSum, ih (by omega), foundBlank_block h (by omega), h (i + 1) hi]
      by_cases hblank : count ≤ i
      · rw [decide_eq_true hblank, if_pos rfl]
        omega
      · rw [decide_eq_false hblank, if_neg Bool.false_ne_true]
        by_cases hcount : i + 1 < count
        · rw [decide_eq_true hcount, Bool.toNat_true]
          omega
        · rw [decide_eq_false hcount, Bool.toNat_false]
          omega

/-- On a block of ones from the bottom both counts agree. -/
theorem countOneContinuous_eq {width : Nat} {dataIn : Nat → Bool} (hwidth : 0 < width)
    (h : ∀ i, i + 1 < width → dataIn (i + 1) = true → dataIn i = true) :
    countOneContinuous width dataIn = countOne width dataIn := by
  have hblock := countOne_block_of_closed h
  have hle := countOne_le width dataIn
  rw [countOneContinuous, continuousSum_block hblock (by omega)]
  omega

theorem foundBlank_all (dataIn : Nat → Bool) (i : Nat) :
    foundBlank dataIn i = !(List.range (i + 1)).all dataIn := by
  induction i with
  | zero => simp [foundBlank]
  | succ i ih =>
      rw [foundBlank, ih, List.range_succ (n := i + 1), List.all_append]
      simp

/-- The continuous count is the length of the leading block of ones. -/
theorem countOneContinuous_leading {width : Nat} (dataIn : Nat → Bool) (hwidth : 0 < width) :
    countOneContinuous width dataIn = ((List.range width).takeWhile dataIn).length := by
  have hsum : ∀ i, continuousSum dataIn i =
      ((List.range (i + 1)).takeWhile dataIn).length := by
    intro i
    induction i with
    | zero => cases h : dataIn 0 <;> simp [continuousSum, h]
    | succ i ih =>
        rw [continuousSum, ih, foundBlank_all, List.range_succ (n := i + 1),
          List.takeWhile_append]
        cases hall : (List.range (i + 1)).all dataIn with
        | true =>
            have hself : (List.range (i + 1)).takeWhile dataIn = List.range (i + 1) :=
              List.takeWhile_eq_self_iff.2 (List.all_eq_true.1 hall)
            rw [hself, if_pos rfl, List.length_append]
            cases h : dataIn (i + 1) <;> simp [h]
        | false =>
            have hne : ((List.range (i + 1)).takeWhile dataIn).length ≠
                (List.range (i + 1)).length := by
              intro hlen
              have hsub : _ <+: List.range (i + 1) := List.takeWhile_prefix dataIn
              have hself := hsub.eq_of_length hlen
              have hall' : (List.range (i + 1)).all dataIn = true :=
                List.all_eq_true.2 (List.takeWhile_eq_self_iff.1 hself)
              exact Bool.false_ne_true (hall.symm.trans hall')
            rw [if_neg hne]
            rfl
  rw [countOneContinuous, hsum, Nat.sub_add_cancel hwidth]

/-! ## `data_selector` -/

/-- A packed type: its all-zero value and the bitwise or of two values. -/
class Packed (α : Type) where
  zero : α
  or : α → α → α

instance : Packed Nat := ⟨0, (· ||| ·)⟩

instance : Packed Bool := ⟨false, (· || ·)⟩

instance (w : Nat) : Packed (BitVec w) := ⟨0, (· ||| ·)⟩

section DataSelector

variable {α : Type} [Packed α]

def dataInFilter (selIn : Nat → Bool) (dataIn : Nat → α) (i : Nat) : α :=
  if selIn i then dataIn i else Packed.zero

def dataOutTemp (selIn : Nat → Bool) (dataIn : Nat → α) : Nat → α
  | 0 => dataInFilter selIn dataIn 0
  | i + 1 => Packed.or (dataOutTemp selIn dataIn i) (dataInFilter selIn dataIn (i + 1))

def dataSelector (selWidth : Nat) (selIn : Nat → Bool) (dataIn : Nat → α) : α :=
  dataOutTemp selIn dataIn (selWidth - 1)

/-- With a single selected channel the selector returns its data. -/
theorem dataSelector_single (hleft : ∀ x : α, Packed.or Packed.zero x = x)
    (hright : ∀ x : α, Packed.or x Packed.zero = x) {selWidth k : Nat}
    {selIn : Nat → Bool} {dataIn : Nat → α} (hk : k < selWidth)
    (h : ∀ j, j < selWidth → (selIn j = true ↔ j = k)) :
    dataSelector selWidth selIn dataIn = dataIn k := by
  have hchain : ∀ j, j < selWidth →
      dataOutTemp selIn dataIn j = if k ≤ j then dataIn k else Packed.zero := by
    intro j
    induction j with
    | zero =>
        intro hj
        simp only [dataOutTemp, dataInFilter, h 0 hj, Nat.le_zero]
        by_cases hzero : k = 0
        · subst hzero
          rfl
        · rw [if_neg (Ne.symm hzero), if_neg hzero]
    | succ j ih =>
        intro hj
        rw [dataOutTemp, ih (by omega), dataInFilter]
        by_cases hsel : j + 1 = k
        · rw [if_neg (by omega), if_pos ((h _ hj).2 hsel), if_pos (by omega), hleft, hsel]
        · rw [if_neg fun hbit => hsel ((h _ hj).1 hbit), hright]
          split <;> split <;> first | rfl | omega
  rw [dataSelector, hchain (selWidth - 1) (by omega), if_pos (by omega)]

end DataSelector

/-- The reduction `|v` of a vector of `width` wires. -/
def anyBit (width : Nat) (v : Nat → Bool) : Bool := (List.range width).any v

theorem anyBit_iff {width : Nat} {v : Nat → Bool} :
    anyBit width v = true ↔ ∃ i, i < width ∧ v i = true := by
  simp [anyBit, List.any_eq_true]

theorem anyBit_eq_false_iff {width : Nat} {v : Nat → Bool} :
    anyBit width v = false ↔ ∀ i, i < width → v i = false := by
  simp [anyBit, List.any_eq_false]

/-- When all selected channels have the same data the selector returns it. -/
theorem dataSelector_same {α : Type} [Packed α]
    (hleft : ∀ x : α, Packed.or Packed.zero x = x) (hright : ∀ x : α, Packed.or x Packed.zero = x)
    (hself : ∀ x : α, Packed.or x x = x) {selWidth : Nat} {selIn : Nat → Bool} {dataIn : Nat → α}
    {value : α} (hpos : 0 < selWidth)
    (h : ∀ j, j < selWidth → selIn j = true → dataIn j = value) :
    dataSelector selWidth selIn dataIn =
      if anyBit selWidth selIn then value else Packed.zero := by
  have hfilter : ∀ j, j < selWidth →
      dataInFilter selIn dataIn j = if selIn j then value else Packed.zero := fun j hj => by
    rw [dataInFilter]
    split_ifs with hsel
    · exact h j hj hsel
    · rfl
  have hchain : ∀ j, j < selWidth →
      dataOutTemp selIn dataIn j = if anyBit (j + 1) selIn then value else Packed.zero := by
    intro j
    induction j with
    | zero =>
        intro hj
        rw [dataOutTemp, hfilter 0 hj]
        simp [anyBit]
    | succ j ih =>
        intro hj
        have hany : anyBit (j + 1 + 1) selIn = (anyBit (j + 1) selIn || selIn (j + 1)) := by
          rw [anyBit, List.range_succ, List.any_append]
          simp [anyBit]
        rw [dataOutTemp, ih (by omega), hfilter (j + 1) hj, hany]
        cases anyBit (j + 1) selIn <;> cases selIn (j + 1) <;> simp [hleft, hright, hself]
  rw [dataSelector, hchain (selWidth - 1) (by omega), Nat.sub_add_cancel hpos]

/-- A vector with at most one bit set. -/
theorem countOne_single {width : Nat} {dataIn : Nat → Bool}
    (h : ∀ i, i < width → ∀ j, j < width → dataIn i = true → dataIn j = true → i = j) :
    countOne width dataIn = (anyBit width dataIn).toNat := by
  cases hany : anyBit width dataIn with
  | false =>
      have hnone := anyBit_eq_false_iff.1 hany
      exact Nat.le_zero.1 (countOne_le_bound fun i hi hbit =>
        absurd ((hnone i hi).symm.trans hbit) Bool.false_ne_true)
  | true =>
      obtain ⟨k, hk, hbit⟩ := anyBit_iff.1 hany
      have hself : (List.range width).filter dataIn = (List.range width).filter (· == k) :=
        List.filter_congr fun i hi => by
          rw [Bool.eq_iff_iff, beq_iff_eq]
          exact ⟨fun hi' => h i (List.mem_range.1 hi) k hk hi' hbit, fun heq => heq ▸ hbit⟩
      rw [countOne_eq_filter, hself, List.filter_beq,
        List.count_eq_one_of_mem List.nodup_range (List.mem_range.2 hk)]
      rfl

/-- A vector with a one has a first one. -/
theorem anyBit_first {width : Nat} {v : Nat → Bool} (h : anyBit width v = true) :
    ∃ k, k < width ∧ v k = true ∧ ∀ j, j < k → v j = false := by
  have hex : ∃ k, k < width ∧ v k = true := anyBit_iff.1 h
  refine ⟨Nat.find hex, (Nat.find_spec hex).1, (Nat.find_spec hex).2, fun j hj => ?_⟩
  have hmin := Nat.find_min hex hj
  have hlt := Nat.lt_trans hj (Nat.find_spec hex).1
  exact Bool.eq_false_iff.2 fun hbit => hmin ⟨hlt, hbit⟩

/-! ## Finders -/

def indexTemp (dataIn : Nat → Bool) : Nat → Nat
  | 0 => 0
  | i + 1 => indexTemp dataIn i ||| if dataIn (i + 1) then i + 1 else 0

/-- The index of `parallel_finder`: the bitwise or of all matching indices. -/
def parallelFinder (width : Nat) (dataIn : Nat → Bool) : Nat :=
  indexTemp dataIn (width - 1)

/-- The index chain of `priority_finder` with `FIRST_PRIORITY = 1`. -/
def firstIndexTemp (dataIn : Nat → Bool) : Nat → Nat
  | 0 => 0
  | i + 1 => if anyBit (i + 1) dataIn then firstIndexTemp dataIn i else i + 1

def priorityFinderFirst (width : Nat) (dataIn : Nat → Bool) : Nat :=
  firstIndexTemp dataIn (width - 1)

/-- The index chain of `priority_finder` with `FIRST_PRIORITY = 0`. -/
def lastIndexTemp (dataIn : Nat → Bool) : Nat → Nat
  | 0 => 0
  | i + 1 => if dataIn (i + 1) then i + 1 else lastIndexTemp dataIn i

def priorityFinderLast (width : Nat) (dataIn : Nat → Bool) : Nat :=
  lastIndexTemp dataIn (width - 1)

/-- With a single match `parallel_finder` returns it. -/
theorem parallelFinder_unique {width k : Nat} {dataIn : Nat → Bool} (hk : k < width)
    (h : ∀ i, i < width → (dataIn i = true ↔ i = k)) :
    parallelFinder width dataIn = k := by
  have hchain : ∀ i, i < width → indexTemp dataIn i = if k ≤ i then k else 0 := by
    intro i
    induction i with
    | zero =>
        intro _
        simp only [indexTemp, Nat.le_zero]
        split <;> omega
    | succ i ih =>
        intro hi
        rw [indexTemp, ih (by omega)]
        by_cases hbit : dataIn (i + 1) = true
        · have heq := (h (i + 1) hi).1 hbit
          rw [if_pos hbit, if_neg (by omega), if_pos (by omega), heq]
          simp
        · have hne : i + 1 ≠ k := fun heq => hbit ((h (i + 1) hi).2 heq)
          rw [if_neg hbit]
          split <;> split <;> first | omega | simp
  rw [parallelFinder, hchain (width - 1) (by omega), if_pos (by omega)]

/-- Without a match it returns 0. -/
theorem parallelFinder_none {width : Nat} {dataIn : Nat → Bool}
    (h : ∀ i, i < width → dataIn i = false) : parallelFinder width dataIn = 0 := by
  have hchain : ∀ i, i < width → indexTemp dataIn i = 0 := by
    intro i
    induction i with
    | zero => exact fun _ => rfl
    | succ i ih =>
        intro hi
        simp [indexTemp, ih (by omega), h (i + 1) hi]
  rcases Nat.eq_zero_or_pos width with rfl | hpos
  · rfl
  · exact hchain (width - 1) (by omega)

theorem firstIndexTemp_eq {dataIn : Nat → Bool} {k i : Nat} (hki : k ≤ i)
    (hk : dataIn k = true) (hbefore : ∀ j, j < k → dataIn j = false) :
    firstIndexTemp dataIn i = k := by
  induction i with
  | zero => simp only [firstIndexTemp]; omega
  | succ i ih =>
      rcases Nat.lt_or_ge i k with hlt | hge
      · have hno : anyBit (i + 1) dataIn = false :=
          anyBit_eq_false_iff.2 fun j hj => hbefore j (by omega)
        simp only [firstIndexTemp, hno, Bool.false_eq_true, if_false]
        omega
      · have hyes : anyBit (i + 1) dataIn = true := anyBit_iff.2 ⟨k, by omega, hk⟩
        simp only [firstIndexTemp, hyes, if_true]
        exact ih hge

theorem firstIndexTemp_le (dataIn : Nat → Bool) (i : Nat) : firstIndexTemp dataIn i ≤ i := by
  induction i with
  | zero => exact Nat.le_refl _
  | succ i ih =>
      rw [firstIndexTemp]
      split
      · exact Nat.le_succ_of_le ih
      · exact Nat.le_refl _

/-- `priority_finder` with `FIRST_PRIORITY = 1` returns the lowest match. -/
theorem priorityFinderFirst_eq {width k : Nat} {dataIn : Nat → Bool} (hk : k < width)
    (hbit : dataIn k = true) (hbefore : ∀ j, j < k → dataIn j = false) :
    priorityFinderFirst width dataIn = k :=
  firstIndexTemp_eq (by omega) hbit hbefore

/-- `priority_finder` with `FIRST_PRIORITY = 0` returns the highest match. -/
theorem lastIndexTemp_eq {dataIn : Nat → Bool} {k i : Nat} (hki : k ≤ i)
    (hk : dataIn k = true) (hafter : ∀ j, k < j → j ≤ i → dataIn j = false) :
    lastIndexTemp dataIn i = k := by
  induction i with
  | zero => simp only [lastIndexTemp]; omega
  | succ i ih =>
      rcases Nat.lt_or_ge i k with hlt | hge
      · have heq : i + 1 = k := by omega
        simp only [lastIndexTemp, heq, hk, if_true]
      · have hno := hafter (i + 1) (by omega) (Nat.le_refl _)
        simp only [lastIndexTemp, hno, Bool.false_eq_true, if_false]
        exact ih hge fun j hj hji => hafter j hj (by omega)

/-! ## `ptr_in_range` -/

/-- The macro `ptr_in_range` on pointers of a ring of `size` slots. -/
def ptrInRange (size x rptr wptr : Nat) : Bool :=
  if slot size rptr < slot size wptr then
    decide (slot size rptr ≤ x) && decide (x < slot size wptr)
  else
    (decide (slot size rptr ≤ x) || decide (x < slot size wptr)) && decide (rptr ≠ wptr)

/-- In a well-formed ring the macro tests liveness. -/
theorem ptrInRange_iff {size x rptr wptr : Nat} (h : WellFormed size rptr wptr)
    (hx : x < size) : ptrInRange size x rptr wptr = true ↔ Live size rptr wptr x := by
  rw [live_iff h hx, ptrInRange]
  split <;> simp

end DreamCore.Rtl
