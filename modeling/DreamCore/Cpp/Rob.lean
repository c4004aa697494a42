import DreamCore.Rtl.Rob

/-!
# Reorder-buffer ids of the C++ model (`rob.h`, `fifo.h`)

The simulator keeps the slot and the stage bit of each pointer apart.  Its trace
publishes four new ids a cycle by calling `get_new_id` once and then
`get_next_new_id`; these calls are what the hardware grants are compared with.
-/

namespace DreamCore.Cpp

open DreamCore.Ring DreamCore.Rtl

/-- The members of `fifo` the id functions read. -/
structure Rob where
  size : Nat
  wptr : Nat
  wstage : Bool
  rptr : Nat
  rstage : Bool

def Rob.isEmpty (r : Rob) : Bool := decide (r.rptr = r.wptr) && decide (r.rstage = r.wstage)

def Rob.isFull (r : Rob) : Bool := decide (r.rptr = r.wptr) && decide (r.rstage ≠ r.wstage)

def Rob.checkNewIdValid (r : Rob) (id : Nat) : Bool :=
  if r.isFull then false
  else if r.wstage = r.rstage then !(decide (r.rptr ≤ id) && decide (id < r.wptr))
  else !((decide (r.rptr ≤ id) && decide (id < r.size)) || decide (id < r.wptr))

/-- The written `new_id` and the result; `newId` is the caller's variable before. -/
def Rob.getNewId (r : Rob) (newId : Nat) : Nat × Bool :=
  if r.isFull then (newId, false) else (r.wptr, true)

def Rob.getNextNewId (r : Rob) (curNewId : Nat) : Nat × Bool :=
  if r.checkNewIdValid curNewId then
    ((curNewId + 1) % r.size, r.checkNewIdValid ((curNewId + 1) % r.size))
  else (curNewId, false)

/-- The id and the valid bit published for channel `i`. -/
def Rob.publishedNewId (r : Rob) (newId : Nat) : Nat → Nat × Bool
  | 0 => r.getNewId newId
  | i + 1 => r.getNextNewId (r.publishedNewId newId i).1

/-! ## Ids in use -/

def Rob.checkIdValid (r : Rob) (id : Nat) : Bool :=
  if r.isEmpty then false
  else if r.wstage = r.rstage then decide (r.rptr ≤ id) && decide (id < r.wptr)
  else (decide (r.rptr ≤ id) && decide (id < r.size)) || decide (id < r.wptr)

def Rob.getFrontId (r : Rob) : Option Nat := if r.isEmpty then none else some r.rptr

def Rob.getTailId (r : Rob) : Option Nat :=
  if r.isEmpty then none else some ((r.wptr + r.size - 1) % r.size)

/-- The id before, and whether it is in use; `none` is the failed assertion. -/
def Rob.getPrevId (r : Rob) (id : Nat) : Option (Nat × Bool) :=
  if r.checkIdValid id then
    some ((id + r.size - 1) % r.size, r.checkIdValid ((id + r.size - 1) % r.size))
  else none

/-- The id after, and whether it is in use; `none` is the failed assertion. -/
def Rob.getNextId (r : Rob) (id : Nat) : Option (Nat × Bool) :=
  if r.checkIdValid id then
    some ((id + 1) % r.size, r.checkIdValid ((id + 1) % r.size))
  else none

/-! ## The reorder buffer of the hardware -/

/-- The members of a `fifo` with the same live window. -/
def ringOf (size rptr wptr : Nat) : Rob where
  size := size
  wptr := slot size wptr
  wstage := stage size wptr
  rptr := slot size rptr
  rstage := stage size rptr

/-- The C++ reorder buffer with the same live window. -/
def robOfRtl (s : RobState) : Rob where
  size := robSize
  wptr := slot robSize s.wptr
  wstage := stage robSize s.wptr
  rptr := slot robSize s.rptr
  rstage := stage robSize s.rptr

section Window

variable {size rptr wptr : Nat}

theorem isEmpty_iff (h : WellFormed size rptr wptr) :
    (ringOf size rptr wptr).isEmpty = true ↔ rptr = wptr := by
  obtain ⟨hr, hw, _⟩ := h
  simp only [Rob.isEmpty, ringOf, slot_eq hr, slot_eq hw, stage, Bool.and_eq_true,
    decide_eq_true_eq, decide_eq_decide]
  constructor
  · rintro ⟨hslot, hstage⟩
    split at hslot <;> split at hslot <;> omega
  · intro heq
    rw [heq]
    exact ⟨rfl, Iff.rfl⟩

/-- In a well-formed window the check accepts exactly the ids that are not live. -/
theorem ring_checkNewIdValid_iff (h : WellFormed size rptr wptr) {id : Nat} (hid : id < size) :
    (ringOf size rptr wptr).checkNewIdValid id = true ↔ ¬Live size rptr wptr id := by
  rw [live_iff h hid]
  obtain ⟨hr, hw, hfit⟩ := h
  rw [occupancy_eq hr hw] at hfit
  simp only [Rob.checkNewIdValid, Rob.isFull, ringOf, slot_eq hr, slot_eq hw, stage] at *
  repeat' split
  all_goals simp_all
  all_goals (repeat' split at *)
  all_goals omega

/-- The check for used ids accepts exactly the live ones. -/
theorem checkIdValid_iff (h : WellFormed size rptr wptr) {id : Nat} (hid : id < size) :
    (ringOf size rptr wptr).checkIdValid id = true ↔ Live size rptr wptr id := by
  rw [live_iff h hid]
  obtain ⟨hr, hw, hfit⟩ := h
  rw [occupancy_eq hr hw] at hfit
  simp only [Rob.checkIdValid, Rob.isEmpty, ringOf, slot_eq hr, slot_eq hw, stage] at *
  repeat' split
  all_goals simp_all
  all_goals (repeat' split at *)
  all_goals omega

/-- A walk from the front meets the live ids in order and ends behind the last one, in a
full ring at the front again. -/
theorem ring_getNextId (h : WellFormed size rptr wptr) {k : Nat}
    (hk : k < occupancy size rptr wptr) :
    ∃ inUse, (ringOf size rptr wptr).getNextId (slot size (rptr + k)) =
        some (slot size (rptr + (k + 1)), inUse) ∧
      (inUse && decide (slot size (rptr + (k + 1)) ≠ slot size rptr)) =
        decide (k + 1 < occupancy size rptr wptr) := by
  have hfit := h.fits
  have hsize : 0 < size := by omega
  have hvalid : ∀ j, (ringOf size rptr wptr).checkIdValid (slot size (rptr + j)) = true ↔
      Live size rptr wptr (slot size (rptr + j)) := fun j => checkIdValid_iff h (slot_lt hsize)
  have hsucc : (slot size (rptr + k) + 1) % (ringOf size rptr wptr).size =
      slot size (rptr + (k + 1)) := slot_next size (rptr + k)
  refine ⟨_, by rw [Rob.getNextId, if_pos ((hvalid k).2 (live_slot hk)), hsucc], ?_⟩
  rw [Bool.eq_iff_iff, Bool.and_eq_true, hvalid, decide_eq_true_iff, decide_eq_true_iff]
  constructor
  · rintro ⟨⟨j, hj, heq⟩, hne⟩
    rcases Nat.lt_or_ge (k + 1) size with hlt | hge
    · have := slot_add_inj hlt (Nat.lt_of_lt_of_le hj hfit) heq
      omega
    · -- the ring is full and the next slot is the first again
      have hfull : k + 1 = size := by omega
      rw [hfull] at hne
      exact absurd (Nat.add_mod_right rptr size) hne
  · intro hlt
    refine ⟨live_slot hlt, fun heq => ?_⟩
    have := slot_add_inj (j := k + 1) (k := 0) (Nat.lt_of_lt_of_le hlt hfit) hsize heq
    omega

end Window

theorem checkNewIdValid_iff {s : RobState} (h : WellFormed robSize s.rptr s.wptr) {id : Nat}
    (hid : id < robSize) :
    (robOfRtl s).checkNewIdValid id = true ↔ ¬Live robSize s.rptr s.wptr id :=
  ring_checkNewIdValid_iff h hid

/-- In a well-formed window the check for used ids is the hardware's. -/
theorem checkIdValid_eq {s : RobState} (h : WellFormed robSize s.rptr s.wptr) {id : Nat}
    (hid : id < robSize) :
    (robOfRtl s).checkIdValid id = robCommitRetireIdValid s id := by
  rw [Bool.eq_iff_iff, robCommitRetireIdValid, ptrInRange_iff h hid]
  exact checkIdValid_iff h hid

theorem isEmpty_eq {s : RobState} (h : WellFormed robSize s.rptr s.wptr) :
    (robOfRtl s).isEmpty = robEmpty s := by
  rw [Bool.eq_iff_iff, robEmpty, decide_eq_true_iff]
  exact isEmpty_iff h

end DreamCore.Cpp
