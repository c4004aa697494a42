import DreamCore.Lib.Clocked
import DreamCore.Model.BoundedQueue
import Mathlib.Tactic.SplitIfs

/-!
# The queue class is a bounded queue

The pointers are read as one ring from the oldest element that still counts to the write
pointer: the popped elements that still count lie before the read pointer, the unread ones
behind it.  Every call keeps this, except that a flush leaves the saved read pointer where
it is: with `pop_status_save` on and a saved pointer away from the start, the flushed queue
still counts elements.  The size query also adds before it subtracts, in 32 bits.
-/

namespace DreamCore.Proofs

open DreamCore.Ring DreamCore.Cpp DreamCore.Model

section FifoQueue

variable {α : Type} {f : Fifo α} {q : BoundedQueue α} {sp wp : Nat}

/-- The members of `f` describe `q`, with the oldest counted element at `sp` and the write
pointer `wp`. -/
structure Represents (f : Fifo α) (q : BoundedQueue α) (sp wp : Nat) : Prop where
  size_eq : f.size = q.size
  size_lt : q.size < 2 ^ 32
  ring : WellFormed q.size sp wp
  contents_eq : contents q.size f.buffer sp wp = q.kept ++ q.unread
  wptr_eq : f.wptr = slot q.size wp
  wstage_eq : f.wstage = stage q.size wp
  rptr_eq : f.rptr = slot q.size ((sp + q.kept.length) % (2 * q.size))
  rstage_eq : f.rstage = stage q.size ((sp + q.kept.length) % (2 * q.size))
  saving_eq : f.popStatusSave = q.saving
  saved_eq : q.saving = true → f.rptrSaved = slot q.size sp ∧ f.rstageSaved = stage q.size sp
  unsaved : q.saving = false → q.kept = []

/-- The pointer the size queries look at, with its stage. -/
def countPtr (f : Fifo α) : Nat × Bool :=
  if f.popStatusSave then (f.rptrSaved, f.rstageSaved) else (f.rptr, f.rstage)

/-- The sum in the size query does not leave 32 bits. -/
def SizeFits (f : Fifo α) : Prop := f.wptr + f.size - (countPtr f).1 < 2 ^ 32

/-- A flush would leave the saved pointer at the start. -/
def SavedAtStart (f : Fifo α) : Prop :=
  f.popStatusSave = true → f.rptrSaved = 0 ∧ f.rstageSaved = false

instance (f : Fifo α) : Decidable (SizeFits f) := inferInstanceAs (Decidable (_ < _))

instance (f : Fifo α) : Decidable (SavedAtStart f) := inferInstanceAs (Decidable (_ → _))

/-! ## Queries -/

theorem Represents.occupancy_eq (h : Represents f q sp wp) :
    occupancy q.size sp wp = q.counted := by
  rw [← length_contents q.size f.buffer, h.contents_eq, List.length_append, BoundedQueue.counted]

theorem Represents.size_pos (h : Represents f q sp wp) : 0 < q.size := by
  have := h.ring.rptr_lt
  omega

theorem Represents.counted_le (h : Represents f q sp wp) : q.counted ≤ q.size := by
  rw [← h.occupancy_eq]
  exact h.ring.fits

/-- The read pointer as one number. -/
def readPtr (q : BoundedQueue α) (sp : Nat) : Nat := (sp + q.kept.length) % (2 * q.size)

theorem Represents.readPtr_lt (h : Represents f q sp wp) : readPtr q sp < 2 * q.size :=
  Nat.mod_lt _ (Nat.mul_pos (by decide) h.size_pos)

theorem Represents.occupancy_unread (h : Represents f q sp wp) :
    occupancy q.size (readPtr q sp) wp = q.unread.length := by
  have hocc := h.occupancy_eq
  rw [readPtr, occupancy_pop h.ring.rptr_lt h.ring.wptr_lt (by rw [hocc]; exact Nat.le_add_right _ _),
    hocc, BoundedQueue.counted, Nat.add_sub_cancel_left]

theorem Represents.readRing (h : Represents f q sp wp) : WellFormed q.size (readPtr q sp) wp :=
  ⟨h.readPtr_lt, h.ring.wptr_lt, by
    rw [h.occupancy_unread]
    exact (Nat.le_add_left _ _).trans h.counted_le⟩

theorem Represents.contents_unread (h : Represents f q sp wp) :
    contents q.size f.buffer (readPtr q sp) wp = q.unread := by
  have hle : q.kept.length ≤ occupancy q.size sp wp := by
    rw [h.occupancy_eq]
    exact Nat.le_add_right _ _
  rw [readPtr, contents_pop h.ring hle, h.contents_eq, List.drop_left]

theorem Represents.isEmpty_eq (h : Represents f q sp wp) : f.isEmpty = q.unread.isEmpty := by
  have hrob : f.toRob = ringOf q.size (readPtr q sp) wp := by
    rw [ringOf, readPtr, ← h.wptr_eq, ← h.wstage_eq, ← h.rptr_eq, ← h.rstage_eq, ← h.size_eq]
  rw [Bool.eq_iff_iff, Fifo.isEmpty, hrob, isEmpty_iff h.readRing,
    ← occupancy_eq_zero_iff h.readPtr_lt h.ring.wptr_lt, h.occupancy_unread, List.isEmpty_iff,
    List.length_eq_zero_iff]

/-- With and without the saved copy the queries look at the oldest counted element. -/
theorem Represents.countPtr_eq (h : Represents f q sp wp) :
    countPtr f = (slot q.size sp, stage q.size sp) := by
  rw [countPtr, h.saving_eq]
  cases hsave : q.saving with
  | true => rw [if_pos rfl, (h.saved_eq hsave).1, (h.saved_eq hsave).2]
  | false =>
      rw [if_neg Bool.false_ne_true, h.rptr_eq, h.rstage_eq, h.unsaved hsave, List.length_nil,
        Nat.add_zero, Nat.mod_eq_of_lt h.ring.rptr_lt]

theorem isFull_eq_countPtr (f : Fifo α) :
    f.isFull = (decide ((countPtr f).1 = f.wptr) && decide ((countPtr f).2 ≠ f.wstage)) := by
  rw [Fifo.isFull, countPtr]
  cases f.popStatusSave <;> rfl

theorem getSize_eq_countPtr (f : Fifo α) :
    f.getSize = if f.isFull then f.size
      else ((f.wptr + f.size + 2 ^ 32 - (countPtr f).1) % 2 ^ 32) % f.size := by
  cases hsave : f.popStatusSave <;>
    simp only [Fifo.getSize, countPtr, hsave, if_true, Bool.false_eq_true, if_false]

theorem Represents.isFull_iff (h : Represents f q sp wp) :
    f.isFull = true ↔ q.counted = q.size := by
  rw [isFull_eq_countPtr, h.countPtr_eq, h.wptr_eq, h.wstage_eq, ← h.occupancy_eq,
    ← full_iff h.ring.rptr_lt h.ring.wptr_lt, Bool.and_eq_true, decide_eq_true_eq,
    decide_eq_true_eq, and_comm]

/-- The size query is right exactly where its sum fits. -/
theorem Represents.getSize_iff (h : Represents f q sp wp) :
    f.getSize = q.counted ↔ SizeFits f := by
  have hsize := h.size_lt
  have hpos := h.size_pos
  have hsp : slot q.size sp < q.size := slot_lt hpos
  have hwp : slot q.size wp < q.size := slot_lt hpos
  rw [getSize_eq_countPtr, SizeFits, h.countPtr_eq, h.wptr_eq, h.size_eq]
  by_cases hfull : f.isFull = true
  · have heq : slot q.size sp = slot q.size wp :=
      ((full_iff h.ring.rptr_lt h.ring.wptr_lt).mpr
        (by rw [h.occupancy_eq]; exact h.isFull_iff.mp hfull)).2
    rw [if_pos hfull, h.isFull_iff.mp hfull]
    refine ⟨fun _ => ?_, fun _ => rfl⟩
    simp only [heq]
    omega
  · have hfree : occupancy q.size sp wp < q.size := by
      have hne := mt h.isFull_iff.mpr hfull
      have := h.counted_le
      rw [h.occupancy_eq]
      omega
    have hdist := slot_distance h.ring hfree
    rw [h.occupancy_eq] at hdist
    rw [if_neg hfull]
    simp only
    rw [← hdist]
    generalize slot q.size sp = s at *
    generalize slot q.size wp = w at *
    by_cases hfit : w + q.size - s < 2 ^ 32
    · have hword : (w + q.size + 2 ^ 32 - s) % 2 ^ 32 = w + q.size - s := by omega
      rw [hword]
      exact iff_of_true rfl hfit
    · -- the sum has lost `2 ^ 32`, which is more than the ring holds
      refine iff_of_false ?_ hfit
      have hword : (w + q.size + 2 ^ 32 - s) % 2 ^ 32 = w + q.size - s - 2 ^ 32 := by omega
      rw [hword, Nat.mod_eq_of_lt (by omega), mod_of_lt_two_mul (by omega : w + q.size - s < 2 * q.size)]
      split_ifs <;> omega

/-! ## Calls -/

theorem Represents.push (h : Represents f q sp wp) (element : α) :
    (f.push element).2 = (q.push element).2 ∧
      ∃ wp', Represents (f.push element).1 (q.push element).1 sp wp' := by
  by_cases hfull : f.isFull = true
  · rw [Fifo.push, if_pos hfull, BoundedQueue.push, if_pos (h.isFull_iff.mp hfull)]
    exact ⟨rfl, wp, h⟩
  · have hroom : occupancy q.size sp wp < q.size := by
      have hne := mt h.isFull_iff.mpr hfull
      have := h.counted_le
      rw [h.occupancy_eq]
      omega
    rw [Fifo.push, if_neg hfull, BoundedQueue.push, if_neg (mt h.isFull_iff.mpr hfull)]
    refine ⟨rfl, (wp + 1) % (2 * q.size), ?_⟩
    have hadd := occupancy_push (k := 1) h.ring.rptr_lt h.ring.wptr_lt (by omega)
    have hfits : occupancy q.size sp ((wp + 1) % (2 * q.size)) ≤ q.size := by omega
    exact
      { h with
        ring := ⟨h.ring.rptr_lt, Nat.mod_lt _ (Nat.mul_pos (by decide) h.size_pos), hfits⟩
        contents_eq := by
          show contents q.size _ sp _ = q.kept ++ (q.unread ++ [element])
          rw [← List.append_assoc, ← h.contents_eq]
          refine @contents_append _ _ _ _ _ _ (fun _ => element) 1 h.ring hroom ?_ ?_
          · intro i hi
            show (if slot q.size (sp + i) = f.wptr then element else f.buffer _) = _
            rw [h.wptr_eq, if_neg (slot_wptr_ne h.ring hroom hi)]
          · intro j hj
            obtain rfl : j = 0 := by omega
            show (if slot q.size (wp + 0) = f.wptr then element else f.buffer _) = element
            rw [h.wptr_eq, Nat.add_zero, if_pos rfl]
        wptr_eq := by
          show (if f.wptr + 1 ≥ f.size then 0 else f.wptr + 1) = _
          rw [h.wptr_eq, h.size_eq, slot_succ h.ring.wptr_lt]
        wstage_eq := by
          show (if f.wptr + 1 ≥ f.size then !f.wstage else f.wstage) = _
          rw [h.wptr_eq, h.wstage_eq, h.size_eq, stage_succ h.ring.wptr_lt] }

/-- The element behind the read pointer is the oldest unread one. -/
theorem Represents.buffer_rptr (h : Represents f q sp wp) {x : α} {xs : List α}
    (hunread : q.unread = x :: xs) : f.buffer f.rptr = x := by
  have hfirst : (contents q.size f.buffer (readPtr q sp) wp)[0]? = some x := by
    rw [h.contents_unread, hunread]
    rfl
  have hlt : 0 < occupancy q.size (readPtr q sp) wp := by
    rw [h.occupancy_unread, hunread]
    exact Nat.succ_pos _
  rw [contents_getElem? hlt, Option.some.injEq] at hfirst
  rw [h.rptr_eq]
  exact hfirst

/-- The state behind a `pop` that found an element. -/
def Fifo.advance (f : Fifo α) : Fifo α :=
  { f with
    rptr := if f.rptr + 1 ≥ f.size then 0 else f.rptr + 1
    rstage := if f.rptr + 1 ≥ f.size then !f.rstage else f.rstage }

theorem Represents.advance_slot (h : Represents f q sp wp) :
    (Fifo.advance f).rptr = slot q.size ((sp + (q.kept.length + 1)) % (2 * q.size)) ∧
      (Fifo.advance f).rstage = stage q.size ((sp + (q.kept.length + 1)) % (2 * q.size)) := by
  have hnext : (readPtr q sp + 1) % (2 * q.size) = (sp + (q.kept.length + 1)) % (2 * q.size) := by
    rw [readPtr, Nat.mod_add_mod, Nat.add_assoc]
  rw [← hnext, ← slot_succ h.readPtr_lt, ← stage_succ h.readPtr_lt, Fifo.advance, readPtr, h.size_eq,
    ← h.rptr_eq, ← h.rstage_eq]
  exact ⟨rfl, rfl⟩

theorem Represents.pop_saving (h : Represents f q sp wp) (hsave : q.saving = true) {x : α}
    {xs : List α} (hunread : q.unread = x :: xs) :
    Represents (Fifo.advance f) { q with unread := xs, kept := q.kept ++ [x] } sp wp := by
  have hlen : (q.kept ++ [x]).length = q.kept.length + 1 := List.length_append
  exact
    { h with
      contents_eq := by
        show contents q.size f.buffer sp wp = (q.kept ++ [x]) ++ xs
        rw [List.append_assoc, List.singleton_append, ← hunread]
        exact h.contents_eq
      rptr_eq := by
        show _ = slot q.size ((sp + (q.kept ++ [x]).length) % (2 * q.size))
        rw [hlen]
        exact h.advance_slot.1
      rstage_eq := by
        show _ = stage q.size ((sp + (q.kept ++ [x]).length) % (2 * q.size))
        rw [hlen]
        exact h.advance_slot.2
      unsaved := fun hfalse => absurd (hsave.symm.trans hfalse) (by decide) }

/-- Nothing is kept, so the oldest counted element moves with the read pointer. -/
theorem Represents.pop_unsaved (h : Represents f q sp wp) (hsave : q.saving = false) {x : α}
    {xs : List α} (hunread : q.unread = x :: xs) :
    Represents (Fifo.advance f) { q with unread := xs, kept := [] } ((sp + 1) % (2 * q.size)) wp := by
  have hkept := h.unsaved hsave
  have hone : 1 ≤ occupancy q.size sp wp := by
    rw [h.occupancy_eq, BoundedQueue.counted, hunread, List.length_cons]
    omega
  have hpop := occupancy_pop h.ring.rptr_lt h.ring.wptr_lt hone
  have hfits : occupancy q.size ((sp + 1) % (2 * q.size)) wp ≤ q.size := by
    have := h.ring.fits
    omega
  have hlt : (sp + 1) % (2 * q.size) < 2 * q.size :=
    Nat.mod_lt _ (Nat.mul_pos (by decide) h.size_pos)
  have hptr : ((sp + 1) % (2 * q.size) + ([] : List α).length) % (2 * q.size) =
      (sp + (q.kept.length + 1)) % (2 * q.size) := by
    rw [hkept, List.length_nil, Nat.add_zero, Nat.mod_mod]
  exact
    { h with
      ring := ⟨hlt, h.ring.wptr_lt, hfits⟩
      contents_eq := by
        show contents q.size f.buffer _ wp = [] ++ xs
        rw [contents_pop h.ring hone, h.contents_eq, hkept, hunread]
        rfl
      rptr_eq := by
        rw [hptr]
        exact h.advance_slot.1
      rstage_eq := by
        rw [hptr]
        exact h.advance_slot.2
      saved_eq := fun htrue => absurd (hsave.symm.trans htrue) (by decide)
      unsaved := fun _ => rfl }

theorem Represents.pop (h : Represents f q sp wp) :
    f.pop.2 = q.pop.2 ∧ ∃ sp', Represents f.pop.1 q.pop.1 sp' wp := by
  cases hunread : q.unread with
  | nil =>
      have hempty : f.isEmpty = true := by rw [h.isEmpty_eq, hunread]; rfl
      have hq : q.pop = (q, none) := by simp only [BoundedQueue.pop, hunread]
      rw [Fifo.pop, if_pos hempty, hq]
      exact ⟨rfl, sp, h⟩
  | cons x xs =>
      have hfilled : ¬ f.isEmpty = true := by rw [h.isEmpty_eq, hunread]; exact Bool.false_ne_true
      have hf : f.pop = (Fifo.advance f, some x) := by
        rw [Fifo.pop, if_neg hfilled, h.buffer_rptr hunread, Fifo.advance]
      cases hsave : q.saving with
      | true =>
          have hq : q.pop = ({ q with unread := xs, kept := q.kept ++ [x] }, some x) := by
            simp only [BoundedQueue.pop, hunread, hsave, if_true]
          rw [hf, hq]
          exact ⟨rfl, sp, h.pop_saving hsave hunread⟩
      | false =>
          have hq : q.pop = ({ q with unread := xs, kept := [] }, some x) := by
            simp only [BoundedQueue.pop, hunread, hsave, Bool.false_eq_true, if_false]
          rw [hf, hq]
          exact ⟨rfl, _, h.pop_unsaved hsave hunread⟩

/-- Taking the read pointer over as the saved one forgets the popped elements. -/
theorem Represents.setPopStatusSave (h : Represents f q sp wp) (value : Bool) :
    Represents (f.setPopStatusSave value) { q with saving := value, kept := [] }
      (readPtr q sp) wp := by
  have hread : (readPtr q sp + 0) % (2 * q.size) = readPtr q sp := Nat.mod_eq_of_lt h.readPtr_lt
  exact
    { h with
      ring := h.readRing
      contents_eq := h.contents_unread
      rptr_eq := by
        show f.rptr = slot q.size ((readPtr q sp + 0) % (2 * q.size))
        rw [hread]
        exact h.rptr_eq
      rstage_eq := by
        show f.rstage = stage q.size ((readPtr q sp + 0) % (2 * q.size))
        rw [hread]
        exact h.rstage_eq
      saving_eq := rfl
      saved_eq := fun _ => ⟨h.rptr_eq, h.rstage_eq⟩
      unsaved := fun _ => rfl }

theorem Represents.resetPopStatus (h : Represents f q sp wp) :
    Represents f.resetPopStatus { q with kept := [] } (readPtr q sp) wp := by
  have hset := h.setPopStatusSave f.popStatusSave
  rw [h.saving_eq] at hset
  have hsame : f.setPopStatusSave q.saving = f.resetPopStatus := by
    rw [← h.saving_eq]
    rfl
  rwa [hsame] at hset

theorem Represents.flush (h : Represents f q sp wp) (hsaved : SavedAtStart f) :
    Represents f.flush { q with unread := [], kept := [] } 0 0 := by
  have hpos := h.size_pos
  have hlt : 0 < 2 * q.size := Nat.mul_pos (by decide) hpos
  have hzero : occupancy q.size 0 0 = 0 := (occupancy_eq_zero_iff hlt hlt).mpr rfl
  have hslot : slot q.size 0 = 0 := Nat.zero_mod _
  have hstage : stage q.size 0 = false := decide_eq_false (by omega)
  have hptr : (0 + ([] : List α).length) % (2 * q.size) = 0 := Nat.zero_mod _
  exact
    { h with
      ring := ⟨hlt, hlt, hzero.le.trans (Nat.zero_le _)⟩
      contents_eq := List.eq_nil_of_length_eq_zero ((length_contents _ _ _ _).trans hzero)
      wptr_eq := hslot.symm
      wstage_eq := hstage.symm
      rptr_eq := by
        rw [hptr]
        exact hslot.symm
      rstage_eq := by
        rw [hptr]
        exact hstage.symm
      saved_eq := by
        intro hsave
        rw [hslot, hstage]
        exact hsaved (h.saving_eq.trans hsave)
      unsaved := fun _ => rfl }

/-! ## Runs -/

/-- Every one of the pushes is accepted. -/
def AcceptsAll : Fifo α → List α → Prop
  | _, [] => True
  | f, x :: xs => (f.push x).2 = true ∧ AcceptsAll (f.push x).1 xs

/-- What a flush or a reset must leave. -/
structure Cleared (f : Fifo α) : Prop where
  isEmpty : f.isEmpty = true
  remainSpace : f.getRemainSpace = f.size
  accepts : ∀ xs : List α, xs.length = f.size → AcceptsAll f xs

/-- The queries before the call and the call itself answer as the bounded queue does. -/
structure CallMeets (s : Fifo α × BoundedQueue α) (c : FifoCall α) : Prop where
  isEmpty : s.1.isEmpty = s.2.unread.isEmpty
  isFull : s.1.isFull = decide (s.2.counted = s.2.size)
  getSize : s.1.getSize = s.2.counted
  remainSpace : s.1.getRemainSpace = s.2.size - s.2.counted
  result : (s.1.call c).2 = (s.2.call c).2
  cleared : c = .flush ∨ c = .reset → Cleared (s.1.call c).1

/-- The exact condition, on the members before the call. -/
structure CallSafe (f : Fifo α) (c : FifoCall α) : Prop where
  sizeFits : SizeFits f
  savedAtStart : c = .flush ∨ c = .reset → SavedAtStart f

/-- Both queues take the same call. -/
def bothCall (s : Fifo α × BoundedQueue α) (c : FifoCall α) : Fifo α × BoundedQueue α :=
  ((s.1.call c).1, (s.2.call c).1)

def Related (s : Fifo α × BoundedQueue α) : Prop := ∃ sp wp, Represents s.1 s.2 sp wp

theorem Represents.acceptsAll (h : Represents f q sp wp) {xs : List α}
    (hroom : q.counted + xs.length ≤ q.size) : AcceptsAll f xs := by
  induction xs generalizing f q wp with
  | nil => trivial
  | cons x xs ih =>
      rw [List.length_cons] at hroom
      have hne : q.counted ≠ q.size := by omega
      have hq : q.push x = ({ q with unread := q.unread ++ [x] }, true) := by
        rw [BoundedQueue.push, if_neg hne]
      obtain ⟨hok, wp', hnext⟩ := h.push x
      rw [hq] at hok hnext
      refine ⟨hok, ih hnext ?_⟩
      show q.kept.length + (q.unread ++ [x]).length + xs.length ≤ q.size
      rw [BoundedQueue.counted] at hroom
      rw [List.length_append, List.length_singleton]
      omega

theorem Represents.cleared (h : Represents f q sp wp) (hsaved : SavedAtStart f) :
    Cleared f.flush := by
  have hflush := h.flush hsaved
  have hfits : SizeFits f.flush := by
    have hlt := h.size_lt
    rw [SizeFits, hflush.countPtr_eq]
    show 0 + f.size - _ < 2 ^ 32
    rw [h.size_eq]
    omega
  have hsize : f.flush.getSize = 0 := hflush.getSize_iff.mpr hfits
  refine ⟨hflush.isEmpty_eq, ?_, ?_⟩
  · rw [Fifo.getRemainSpace, hsize]
    exact Nat.sub_zero _
  · intro xs hxs
    refine hflush.acceptsAll ?_
    show 0 + 0 + xs.length ≤ q.size
    rw [hxs, ← h.size_eq]
    show 0 + 0 + f.size ≤ f.size
    omega

/-- A saved pointer away from the start makes the flushed queue count elements. -/
theorem Represents.flush_counts (h : Represents f q sp wp) (hsaved : ¬ SavedAtStart f) :
    f.flush.getRemainSpace ≠ f.flush.size := by
  obtain ⟨hsave, hmoved⟩ := Classical.not_imp.mp hsaved
  have hpos : 0 < f.size := by
    rw [h.size_eq]
    exact h.size_pos
  have hsize := h.size_lt
  have hptr : f.rptrSaved < f.size := by
    rw [(h.saved_eq (h.saving_eq.symm.trans hsave)).1, h.size_eq]
    exact slot_lt h.size_pos
  have hcount : countPtr f.flush = (f.rptrSaved, f.rstageSaved) := if_pos hsave
  have hget : 0 < f.flush.getSize := by
    rw [getSize_eq_countPtr, isFull_eq_countPtr, hcount]
    show 0 < if (decide (f.rptrSaved = 0) && decide (f.rstageSaved ≠ false)) = true then f.size
      else ((0 + f.size + 2 ^ 32 - f.rptrSaved) % 2 ^ 32) % f.size
    split
    · exact hpos
    · rename_i hnotFull
      have hne : f.rptrSaved ≠ 0 := by
        intro hzero
        cases hstage : f.rstageSaved with
        | false => exact hmoved ⟨hzero, hstage⟩
        | true => exact hnotFull (by rw [hzero, hstage]; rfl)
      have hword : (0 + f.size + 2 ^ 32 - f.rptrSaved) % 2 ^ 32 = f.size - f.rptrSaved := by
        rw [← h.size_eq] at hsize
        omega
      rw [hword, Nat.mod_eq_of_lt (by omega)]
      omega
  rw [Fifo.getRemainSpace]
  show f.size - f.flush.getSize ≠ f.size
  omega

/-- One call keeps the relation, unless it is a flush that leaves the saved pointer away from
the start. -/
theorem related_call {s : Fifo α × BoundedQueue α} {c : FifoCall α} (h : Related s)
    (hsafe : CallSafe s.1 c) : Related (bothCall s c) := by
  obtain ⟨sp, wp, hrep⟩ := h
  cases c with
  | push element =>
      obtain ⟨_, wp', hnext⟩ := hrep.push element
      exact ⟨sp, wp', hnext⟩
  | pop =>
      obtain ⟨_, sp', hnext⟩ := hrep.pop
      exact ⟨sp', wp, hnext⟩
  | flush => exact ⟨0, 0, hrep.flush (hsafe.savedAtStart (.inl rfl))⟩
  | reset => exact ⟨0, 0, hrep.flush (hsafe.savedAtStart (.inr rfl))⟩
  | setPopStatusSave value => exact ⟨_, wp, hrep.setPopStatusSave value⟩
  | resetPopStatus => exact ⟨_, wp, hrep.resetPopStatus⟩

theorem callMeets_iff {s : Fifo α × BoundedQueue α} {c : FifoCall α} (h : Related s) :
    CallMeets s c ↔ CallSafe s.1 c := by
  obtain ⟨sp, wp, hrep⟩ := h
  constructor
  · intro hmeets
    refine ⟨hrep.getSize_iff.mp hmeets.getSize, ?_⟩
    intro hclear
    by_contra hsaved
    refine hrep.flush_counts hsaved ?_
    rcases hclear with rfl | rfl
    · exact (hmeets.cleared (.inl rfl)).remainSpace
    · exact (hmeets.cleared (.inr rfl)).remainSpace
  · intro hsafe
    have hsize := hrep.getSize_iff.mpr hsafe.sizeFits
    refine ⟨hrep.isEmpty_eq, ?_, hsize, ?_, ?_, ?_⟩
    · rw [Bool.eq_iff_iff, hrep.isFull_iff, decide_eq_true_eq]
    · rw [Fifo.getRemainSpace, hsize, hrep.size_eq]
    · cases c with
      | push element => exact congrArg FifoResult.pushed (hrep.push element).1
      | pop => exact congrArg FifoResult.popped hrep.pop.1
      | flush => rfl
      | reset => rfl
      | setPopStatusSave value => rfl
      | resetPopStatus => rfl
    · intro hclear
      have hcleared := hrep.cleared (hsafe.savedAtStart hclear)
      rcases hclear with rfl | rfl <;> exact hcleared

theorem related_new {size : Nat} (hpos : 0 < size) (hlt : size < 2 ^ 32) (buffer : Nat → α)
    (rptrSaved : Nat) (rstageSaved : Bool) :
    Related (Fifo.new size buffer rptrSaved rstageSaved, BoundedQueue.empty size) := by
  have htwo : 0 < 2 * size := Nat.mul_pos (by decide) hpos
  have hzero : occupancy size 0 0 = 0 := (occupancy_eq_zero_iff htwo htwo).mpr rfl
  have hslot : slot size 0 = 0 := Nat.zero_mod _
  have hstage : stage size 0 = false := decide_eq_false (by omega)
  have hptr : (0 + ([] : List α).length) % (2 * size) = 0 := Nat.zero_mod _
  refine ⟨0, 0, rfl, hlt, ⟨htwo, htwo, hzero.le.trans (Nat.zero_le _)⟩, ?_, hslot.symm, hstage.symm,
    ?_, ?_, rfl, ?_, fun _ => rfl⟩
  · exact List.eq_nil_of_length_eq_zero ((length_contents _ _ _ _).trans hzero)
  · exact (congrArg (slot size) hptr).trans hslot |>.symm
  · exact (congrArg (stage size) hptr).trans hstage |>.symm
  · exact fun hfalse => absurd hfalse Bool.false_ne_true

/-- A queue of any size, with any memory found by the constructor, answers every call of a
run as the bounded queue does exactly when no sum of a size query overflows and every flush
meets saving off or the saved pointer at the start. -/
theorem fifo_bounded_queue_iff {size : Nat} (hpos : 0 < size) (hlt : size < 2 ^ 32)
    (buffer : Nat → α) (rptrSaved : Nat) (rstageSaved : Bool) (calls : List (FifoCall α)) :
    Clocked.Along bothCall CallMeets
        (Fifo.new size buffer rptrSaved rstageSaved, BoundedQueue.empty size) calls ↔
      Clocked.Along bothCall (fun s c => CallSafe s.1 c)
        (Fifo.new size buffer rptrSaved rstageSaved, BoundedQueue.empty size) calls :=
  Clocked.along_iff_of_step (fun _ _ h hsafe => related_call h hsafe) (fun _ _ h => callMeets_iff h)
    (related_new hpos hlt buffer rptrSaved rstageSaved) calls

instance (f : Fifo α) (c : FifoCall α) [DecidableEq α] : Decidable (CallSafe f c) :=
  decidable_of_iff (SizeFits f ∧ (c = .flush ∨ c = .reset → SavedAtStart f))
    ⟨fun h => ⟨h.1, h.2⟩, fun h => ⟨h.1, h.2⟩⟩

/-- Two slots filled, read and filled again while the pop status is saved. -/
theorem fifo_bounded_queue_twoSlots :
    Clocked.Along bothCall CallMeets (Fifo.new 2 (fun _ => 0) 7 true, BoundedQueue.empty 2)
      [.push 1, .push 2, .setPopStatusSave true, .pop, .push 3, .resetPopStatus, .push 3, .pop,
        .setPopStatusSave false, .flush] :=
  (fifo_bounded_queue_iff (by decide) (by decide) _ _ _ _).mpr (by decide +kernel)

/-- After a push, a pop and a flush with the pop status saved the empty queue of two slots
counts one element. -/
theorem flush_keeps_saved_pointer :
    ¬ Clocked.Along bothCall CallMeets (Fifo.new 2 (fun _ => 0) 0 false, BoundedQueue.empty 2)
      [.push 1, .pop, .setPopStatusSave true, .flush] := by
  intro h
  have hremain := (h.2.2.2.1.cleared (.inl rfl)).remainSpace
  revert hremain
  decide

end FifoQueue

end DreamCore.Proofs
