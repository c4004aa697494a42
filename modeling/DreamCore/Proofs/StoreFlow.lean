import DreamCore.Model.LoadStore
import DreamCore.Proofs.Results
import DreamCore.Proofs.StoreQueue
import DreamCore.Proofs.RobRefinement

/-!
# Where the stores in flight are

In the normal state the store buffer holds the retired stores that have not left,
and behind them the executed stores of the entries in flight; with the store in the
FIFO these are all the issued ones, in program order.  While commit walks back only
retired stores are left.
-/

namespace DreamCore.Proofs

open DreamCore.Model DreamCore.Rtl

/-! ## Commit as the store buffer sees it -/

section Commit

variable {γ : Type} {s : CommitState} {c : CommitInput} {r : IdealRob γ}

/-- Outside the normal state nothing retires, everything is flushed, and the reorder
buffer is cleared on the way back. -/
theorem walking_quiet (hstate : s.curState ≠ .normal) :
    flushing s c = true ∧ popCount s c = 0 ∧
      (∀ i, (commitFeedbackPack s c).committedRobIdValid i = false) ∧
      (commitNextState s c = .normal → commitRobFlush s c = true) := by
  have hgate : retireGate s c = false := by simp [retireGate, hstate]
  have hpop : popCount s c ≤ 0 := countOne_le_bound fun i _ hi => by
    simp [commitRobRetirePop, hgate] at hi
  have hflush : walkContinues s c = false → commitRobFlush s c = true := by
    unfold walkContinues commitRobFlush
    intro hstop
    cases hvalid : c.rob.flushNextIdValid (commitRobFlushId s c) with
    | false => simp [hstate]
    | true =>
        rw [hvalid, Bool.true_and] at hstop
        have heq : commitRobFlushId s c = s.robItemId := by
          simpa using hstop
        simp [hstate, heq]
  refine ⟨?_, by omega, ?_, ?_⟩
  · cases hcur : s.curState with
    | normal => exact absurd hcur hstate
    | flush => simp [flushing, commitFeedbackPack, hcur, flushingFeedbackPack]
    | interruptFlush => simp [flushing, commitFeedbackPack, hcur, flushingFeedbackPack]
  · intro i
    cases hcur : s.curState with
    | normal => exact absurd hcur hstate
    | flush => simp [commitFeedbackPack, hcur, flushingFeedbackPack]
    | interruptFlush => simp [commitFeedbackPack, hcur, flushingFeedbackPack]
  · intro hnext
    apply hflush
    rw [Bool.eq_false_iff]
    intro hcontinues
    cases hcur : s.curState with
    | normal => exact absurd hcur hstate
    | flush => simp [commitNextState, hcur, hcontinues] at hnext
    | interruptFlush => simp [commitNextState, hcur, hcontinues] at hnext

/-- A cycle that does not flush stays in the normal state and keeps the buffer. -/
theorem keeping_next (hview : Shows c.rob r)
    (hstate : s.curState = .normal) (hflush : flushing s c = false) :
    commitNextState s c = .normal ∧ commitRobFlush s c = false := by
  rw [flushing_normal hstate] at hflush
  have hmiss : retireIsMiss s c = false := by
    rw [Bool.eq_false_iff]
    intro hmiss
    have hempty := (retireIsMiss_spec hview hmiss).1
    simp [hempty, hmiss] at hflush
  refine ⟨?_, by simp [commitRobFlush, hstate, hmiss]⟩
  cases hempty : c.rob.empty with
  | true => simp [commitNextState, hstate, hempty]
  | false =>
      simp only [hempty, Bool.not_false, Bool.true_and, Bool.or_eq_false_iff] at hflush
      simp [commitNextState, hstate, hempty, hflush]

/-- A flushing cycle that stays in the normal state clears the buffer. -/
theorem flushing_cleared (hstate : s.curState = .normal) (hflush : flushing s c = true)
    (hnext : commitNextState s c = .normal) : commitRobFlush s c = true := by
  rw [flushing_normal hstate, Bool.and_eq_true, Bool.or_eq_true, Bool.or_eq_true] at hflush
  obtain ⟨hnonempty, (hint | hexc) | hmiss⟩ := hflush
  · simp [commitNextState, hstate, hnonempty, hint] at hnext
  · cases hint : c.intifCommitHasInterrupt <;>
      simp [commitNextState, hstate, hnonempty, hint, hexc] at hnext
  · simp [commitRobFlush, hstate, hmiss]

/-- Commit reports the entry at position `k`: it retires, or it is the trapping one. -/
theorem reported_iff (hview : Shows c.rob r)
    (hstate : s.curState = .normal) {k : Nat} (hk : k < r.entries.length)
    (hclean : r.entries[k].item.finish = true → r.entries[k].item.hasException = false) :
    (∃ j, j < commitWidth ∧ (commitFeedbackPack s c).committedRobIdValid j = true ∧
        (commitFeedbackPack s c).committedRobId j = r.idAt k) ↔ k < popCount s c := by
  have hwf := hview.wf
  have hsize := hwf.2
  have hpack : commitFeedbackPack s c = normalFeedbackPack s c := by
    simp [commitFeedbackPack, hstate]
  rw [hpack]
  constructor
  · rintro ⟨j, hj, hvalid, hid⟩
    simp only [normalFeedbackPack, Bool.and_eq_true, decide_eq_true_eq] at hvalid hid
    obtain ⟨_, _, hlt, hfinish⟩ := retireValid_spec hview hj hvalid.2
    rw [retireId_eq hview] at hid
    have heq : j = k := idAt_inj hwf (by omega) (by omega) hid
    subst heq
    have hpop : commitRobRetirePop s c j = true := by
      simp [commitRobRetirePop, retireGate, hstate, hvalid, retireData_eq hview hlt,
        hclean hfinish]
    exact of_decide_eq_true ((retirePop_block j hj).symm.trans hpop)
  · intro hlt
    obtain ⟨_, hvalid, _, _, hgate⟩ := popped_spec hview hlt
    refine ⟨k, Nat.lt_of_lt_of_le hlt popCount_le_width, ?_, retireId_eq hview k⟩
    simp only [retireGate, Bool.and_eq_true] at hgate
    simp only [normalFeedbackPack, hgate.2, hvalid, Bool.and_self]

end Commit

/-! ## Stores in flight -/

/-- The entry an executed store puts into the buffer. -/
def storeItem (p : IssueExecutePack) : Option StoreBufferItem :=
  if p.enable && p.valid && !isLoad p.subOp && !p.hasException then
    some ⟨true, false, p.robId, p.lsuAddr, storeData p, accessSize p.subOp⟩
  else none

def entryStore (e : Entry LsuInFlight) : Option StoreBufferItem := e.tag.issued.bind storeItem

def inFlightStores (entries : List (Entry LsuInFlight)) : List StoreBufferItem :=
  entries.filterMap entryStore

section Flow

variable (s : LoadStoreState)

def fifoStores : List StoreBufferItem :=
  if s.lsuFifo.hasData then (storeItem s.lsuFifo.data).toList else []

/-- The retired stores that have not left for the bus. -/
def committedStores : List StoreBufferItem :=
  (storeContents s.stbuf).takeWhile (·.committed)

def pendingStores : List StoreBufferItem :=
  (storeContents s.stbuf).dropWhile (·.committed)

/-- What is known of the entry with this id. -/
structure EntryOk (id : Nat) (e : Entry LsuInFlight) : Prop where
  enable : e.tag.op.enable = true
  issued : ∀ p, e.tag.issued = some p → e.tag.op.opUnit = .lsu ∧ p.robId = id ∧
    p.enable = true ∧ p.valid = e.tag.op.valid ∧ p.subOp = e.tag.op.subOp
  finished : e.item.finish = true → e.tag.op.opUnit = .lsu →
    ∃ p, e.tag.issued = some p ∧ e.item.hasException = p.hasException

/-- The result of a load or store reports the exception found at issue. -/
def LsuResult (e : Entry LsuInFlight) (w : ExecuteWbPack) : Prop :=
  e.tag.op.opUnit = .lsu → ∃ p, e.tag.issued = some p ∧ w.hasException = p.hasException

/-- Loads and stores were issued in program order. -/
def IssuedInOrder (entries : List (Entry LsuInFlight)) : Prop :=
  ∀ j k, ∀ hj : j < entries.length, ∀ hk : k < entries.length, j < k →
    entries[j].tag.op.opUnit = .lsu → entries[k].tag.issued ≠ none → entries[j].tag.issued ≠ none

structure Flowing : Prop where
  rob : RobSound s.rob
  entries : ∀ k, ∀ hk : k < s.rob.entries.length, EntryOk (s.rob.idAt k) s.rob.entries[k]
  order : IssuedInOrder s.rob.entries
  port : Answers LsuResult s.rob.toIdealRob s.wbCommitPort
  result : s.lsuWbPort.enable = true → ∃ k, ∃ hk : k < s.rob.entries.length,
    s.lsuWbPort.robId = s.rob.idAt k ∧ s.rob.entries[k].item.finish = false ∧
      s.rob.entries[k].tag.op.opUnit = .lsu ∧ LsuResult s.rob.entries[k] s.lsuWbPort
  fifo : s.lsuFifo.hasData = true → ∃ k, ∃ hk : k < s.rob.entries.length,
    s.rob.entries[k].tag.issued = some s.lsuFifo.data ∧ s.rob.entries[k].item.finish = false
  resultApart : s.lsuWbPort.enable = true → ∀ j, j < wbWidth →
    (s.wbCommitPort j).enable = true → (s.wbCommitPort j).robId ≠ s.lsuWbPort.robId
  fifoApart : s.lsuFifo.hasData = true →
    (∀ j, j < wbWidth → (s.wbCommitPort j).enable = true →
      (s.wbCommitPort j).robId ≠ s.lsuFifo.data.robId) ∧
    (s.lsuWbPort.enable = true → s.lsuWbPort.robId ≠ s.lsuFifo.data.robId)
  stores : pendingStores s ++ fifoStores s = inFlightStores s.rob.entries

theorem Flowing.wf {s : LoadStoreState} (h : Flowing s) : s.rob.WellFormed := h.rob.wf

structure Draining : Prop where
  fifo : s.lsuFifo.hasData = false
  pending : pendingStores s = []

structure LoadStoreInv : Prop where
  rob : RobSound s.rob
  ring : StoreRing s.stbuf
  enabled : ∀ x ∈ storeContents s.stbuf, x.enable = true
  normal : s.commit.curState = .normal → Flowing s
  walking : s.commit.curState ≠ .normal → Draining s

end Flow

/-! ## Lists -/

section Lists

variable {α β : Type} {f : α → Option β} {g : Nat → α → α} {l : List α}

theorem take_mapIdx (n : Nat) : (l.mapIdx g).take n = (l.take n).mapIdx g := by
  refine List.ext_getElem? fun k => ?_
  by_cases hk : k < n <;> simp [hk]

theorem filterMap_mapIdx_congr (h : ∀ k, ∀ hk : k < l.length, f (g k l[k]) = f l[k]) :
    (l.mapIdx g).filterMap f = l.filterMap f := by
  induction l generalizing g with
  | nil => rfl
  | cons x l ih =>
      have hx : f (g 0 x) = f x := h 0 (by simp)
      have htail : (l.mapIdx fun i => g (i + 1)).filterMap f = l.filterMap f :=
        ih fun k hk => h (k + 1) (by simpa using hk)
      rw [List.mapIdx_cons, List.filterMap_cons, List.filterMap_cons, hx]
      cases f x <;> simp [htail]

/-- Rewriting one element behind all that count adds what it counts for. -/
theorem filterMap_mapIdx_insert {k : Nat} (hk : k < l.length) {b : Option β}
    (hat : f (g k l[k]) = b)
    (hafter : ∀ j, ∀ hj : j < l.length, k ≤ j → f l[j] = none)
    (h : ∀ j, ∀ hj : j < l.length, j ≠ k → f (g j l[j]) = f l[j]) :
    (l.mapIdx g).filterMap f = l.filterMap f ++ b.toList := by
  induction l generalizing g k with
  | nil => simp at hk
  | cons x l ih =>
      rw [List.mapIdx_cons]
      cases k with
      | zero =>
          have hx : f x = none := hafter 0 (by simp) (Nat.le_refl _)
          have hb : f (g 0 x) = b := hat
          have hnone : l.filterMap f = [] := by
            rw [List.filterMap_eq_nil_iff]
            intro y hy
            obtain ⟨j, hj, rfl⟩ := List.mem_iff_getElem.1 hy
            exact hafter (j + 1) (by simpa using hj) (Nat.zero_le _)
          have htail : (l.mapIdx fun i => g (i + 1)).filterMap f = [] := by
            rw [filterMap_mapIdx_congr fun j hj => h (j + 1) (by simpa using hj) (by omega),
              hnone]
          rw [List.filterMap_cons, List.filterMap_cons, hx, hb, htail, hnone]
          cases b <;> rfl
      | succ k =>
          have hx : f (g 0 x) = f x := h 0 (by simp) (by omega)
          have htail := ih (g := fun i => g (i + 1)) (k := k) (by simpa using hk) hat
            (fun j hj hkj => hafter (j + 1) (by simpa using hj) (by omega))
            (fun j hj hne => h (j + 1) (by simpa using hj) (by omega))
          rw [List.filterMap_cons, List.filterMap_cons, hx, htail]
          cases f x <;> simp

/-- A split of a list into marked and unmarked elements is the one `takeWhile` finds. -/
theorem split_unique {p : α → Bool} {marked rest : List α} (hmarked : ∀ x ∈ marked, p x = true)
    (hrest : ∀ x ∈ rest, p x = false) :
    (marked ++ rest).takeWhile p = marked ∧ (marked ++ rest).dropWhile p = rest := by
  rw [List.takeWhile_append_of_pos hmarked, List.dropWhile_append_of_pos hmarked]
  cases rest with
  | nil => simp
  | cons x rest =>
      have hx := hrest x (by simp)
      simp [hx]

end Lists

end DreamCore.Proofs
