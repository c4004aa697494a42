import DreamCore.Model.IdealRob

/-!
# What commit does in one cycle

Where commit sees the in-order list a cycle in the normal state is one of three things: it
retires entries and goes on, it retires up to a mispredicted branch and clears
the list, or it retires up to a trapping entry and leaves the normal state.  In
the other states it visits one entry of the walk.
-/

namespace DreamCore.Proofs

open DreamCore.Model DreamCore.Rtl

variable {γ : Type}

/-! ## Ids and positions -/

theorem indexOf_idAt {r : IdealRob γ} (hwf : r.WellFormed) {k : Nat} (hk : k < robSize) :
    r.indexOf (r.idAt k) = k := by
  have := hwf.1
  simp only [IdealRob.indexOf, IdealRob.idAt, robSize] at *
  omega

theorem idAt_inj {r : IdealRob γ} (hwf : r.WellFormed) {j k : Nat} (hj : j < robSize)
    (hk : k < robSize) (h : r.idAt j = r.idAt k) : j = k := by
  rw [← indexOf_idAt hwf hj, h, indexOf_idAt hwf hk]

theorem inRange_idAt {r : IdealRob γ} (hwf : r.WellFormed) {k : Nat} (hk : k < robSize) :
    r.inRange (r.idAt k) = decide (k < r.entries.length) := by
  rw [IdealRob.inRange, indexOf_idAt hwf hk]

theorem flushTailId_eq {r : IdealRob γ} (hne : r.entries ≠ []) :
    r.flushTailId = r.idAt (r.entries.length - 1) := by
  have hpos := List.length_pos_iff.2 hne
  simp only [IdealRob.flushTailId, IdealRob.idAt, robSize]
  omega

theorem robCommitFlushNextId_idAt {r : IdealRob γ} (k : Nat) :
    robCommitFlushNextId (r.idAt (k + 1)) = r.idAt k := by
  simp only [robCommitFlushNextId, IdealRob.idAt, robSize]
  omega

/-- The view answers commit as the list would. -/
structure Shows (v : RobView) (r : IdealRob γ) : Prop where
  wf : r.WellFormed
  data : ∀ k (hk : k < r.entries.length), v.data (r.idAt k) = r.entries[k].item
  retireIdValid : ∀ k, k < robSize → v.retireIdValid (r.idAt k) = decide (k < r.entries.length)
  retireHeadId : v.retireHeadId = r.headId
  flushTailId : r.entries ≠ [] → v.flushTailId = r.idAt (r.entries.length - 1)
  flushNextIdValid : ∀ k, k + 1 < r.entries.length → v.flushNextIdValid (r.idAt (k + 1)) = true
  empty : v.empty = r.entries.isEmpty

/-- The list's own answers, whatever the other ids read as. -/
theorem shows_list {r : IdealRob γ} (hwf : r.WellFormed) (stale : Nat → RobItem) :
    Shows (r.view stale) r where
  wf := hwf
  data := fun k hk => by
    have hsize := hwf.2
    simp [IdealRob.view, indexOf_idAt hwf (by omega : k < robSize), List.getElem?_eq_getElem hk]
  retireIdValid := fun k hk => inRange_idAt hwf hk
  retireHeadId := rfl
  flushTailId := flushTailId_eq
  flushNextIdValid := fun k hk => by
    have hne : r.entries ≠ [] := List.length_pos_iff.1 (by omega)
    have hsize := hwf.2
    simp only [IdealRob.view, robCommitFlushNextId_idAt, flushTailId_eq hne,
      inRange_idAt hwf (by omega : k < robSize), Bool.and_eq_true, decide_eq_true_eq]
    refine ⟨by omega, fun heq => ?_⟩
    have := idAt_inj hwf (by omega) (by omega) heq
    omega
  empty := rfl

/-! ## Retirement in the normal state -/

section Retire

variable {s : CommitState} {c : CommitInput} {r : IdealRob γ}

theorem retireId_eq (hview : Shows c.rob r) (i : Nat) : retireId c i = r.idAt i := by
  rw [retireId, hview.retireHeadId]
  rfl

theorem retireData_eq (hview : Shows c.rob r) {i : Nat} (hi : i < r.entries.length) :
    retireData c i = r.entries[i].item := by
  rw [retireData, retireId_eq hview, hview.data i hi]

theorem retireValid_spec (hview : Shows c.rob r) {i : Nat}
    (hi : i < commitWidth) (h : commitRobRetireValid s c i = true) :
    s.curState = .normal ∧ c.intifCommitHasInterrupt = false ∧
      ∃ hlt : i < r.entries.length, r.entries[i].item.finish = true := by
  have hsize : i < robSize := by
    simp only [commitWidth, robSize] at *
    omega
  induction i with
  | zero =>
      simp only [commitRobRetireValid, Bool.and_eq_true, decide_eq_true_eq,
        Bool.not_eq_true'] at h
      obtain ⟨⟨⟨hstate, hvalid⟩, hfinish⟩, hint⟩ := h
      rw [retireId_eq hview] at hvalid
      have hlt : 0 < r.entries.length :=
        of_decide_eq_true ((hview.retireIdValid _ hsize).symm.trans hvalid)
      exact ⟨hstate, hint, hlt, by rwa [retireData_eq hview hlt] at hfinish⟩
  | succ i ih =>
      simp only [commitRobRetireValid, Bool.and_eq_true, decide_eq_true_eq,
        Bool.not_eq_true'] at h
      obtain ⟨⟨⟨hstate, hvalid⟩, hfinish⟩, ⟨hprev, _⟩, _⟩ := h
      rw [retireId_eq hview] at hvalid
      have hlt : i + 1 < r.entries.length :=
        of_decide_eq_true ((hview.retireIdValid _ hsize).symm.trans hvalid)
      exact ⟨hstate, (ih (by omega) hprev (by omega)).2.1, hlt,
        by rwa [retireData_eq hview hlt] at hfinish⟩

/-- A slot retires only behind slots without exception and without branch. -/
theorem retireValid_finish {i : Nat} (h : commitRobRetireValid s c i = true) :
    (retireData c i).finish = true := by
  cases i <;> simp only [commitRobRetireValid, Bool.and_eq_true] at h
  · exact h.1.2
  · exact h.1.2

theorem retireValid_succ {i : Nat} (h : commitRobRetireValid s c (i + 1) = true) :
    commitRobRetireValid s c i = true ∧ (retireData c i).hasException = false ∧
      (retireData c i).bruOp = false := by
  simp only [commitRobRetireValid, Bool.and_eq_true, Bool.not_eq_true'] at h
  exact ⟨h.2.1.1, h.2.1.2, h.2.2⟩

theorem retireValid_before {i j : Nat} (hji : j < i) (h : commitRobRetireValid s c i = true) :
    commitRobRetireValid s c j = true ∧ (retireData c j).hasException = false ∧
      (retireData c j).bruOp = false := by
  induction i with
  | zero => omega
  | succ i ih =>
      have hprev := retireValid_succ h
      rcases Nat.lt_succ_iff_lt_or_eq.1 hji with hlt | rfl
      · exact ih hlt hprev.1
      · exact hprev

/-- The popped slots are the first `popCount` ones. -/
theorem retirePop_block : ∀ i, i < commitWidth →
    commitRobRetirePop s c i = decide (i < popCount s c) := by
  refine countOne_block_of_closed fun i _ hpop => ?_
  simp only [commitRobRetirePop, Bool.and_eq_true, Bool.not_eq_true'] at hpop ⊢
  have hprev := retireValid_succ hpop.1.2
  exact ⟨⟨hpop.1.1, hprev.1⟩, hprev.2.1⟩

theorem popCount_le (hview : Shows c.rob r) :
    popCount s c ≤ r.entries.length := by
  refine countOne_le_bound fun i hi hpop => ?_
  simp only [commitRobRetirePop, Bool.and_eq_true] at hpop
  exact (retireValid_spec hview hi hpop.1.2).2.2.1

theorem popCount_le_width : popCount s c ≤ commitWidth := countOne_le _ _

/-- What is known of a popped slot. -/
theorem popped_spec (hview : Shows c.rob r) {i : Nat}
    (hi : i < popCount s c) :
    ∃ hlt : i < r.entries.length, commitRobRetireValid s c i = true ∧
      r.entries[i].item.finish = true ∧ r.entries[i].item.hasException = false ∧
      retireGate s c = true := by
  have hwidth : i < commitWidth := Nat.lt_of_lt_of_le hi popCount_le_width
  have hpop : commitRobRetirePop s c i = true := by
    rw [retirePop_block i hwidth]
    exact decide_eq_true hi
  simp only [commitRobRetirePop, Bool.and_eq_true, Bool.not_eq_true'] at hpop
  obtain ⟨_, _, hlt, hfinish⟩ := retireValid_spec hview hwidth hpop.1.2
  rw [retireData_eq hview hlt] at hpop
  exact ⟨hlt, hpop.1.2, hfinish, hpop.2, hpop.1.1⟩

/-! ## Kinds of cycle -/

/-- Commit drops everything in the pipeline behind it in this cycle. -/
def flushing (s : CommitState) (c : CommitInput) : Bool :=
  (commitFeedbackPack s c).enable && (commitFeedbackPack s c).flush

/-- Retire and go on. -/
structure KeepCycle (s : CommitState) (c : CommitInput) : Prop where
  notFlushing : flushing s c = false
  nextState : commitNextState s c = .normal
  noFlush : commitRobFlush s c = false
  noRestore : commitRatMapTableRestore s c = false
  gate : retireGate s c = true

/-- Retire up to and including a mispredicted branch in slot `i`. -/
structure MissCycle (s : CommitState) (c : CommitInput) (r : IdealRob γ) (i : Nat) : Prop where
  flushing : flushing s c = true
  nextState : commitNextState s c = .normal
  flush : commitRobFlush s c = true
  restore : commitRatMapTableRestore s c = true
  popCount_eq : popCount s c = i + 1
  index : retireHasBruOpIndex s c = i
  gate : retireGate s c = true
  predicted : ∃ hlt : i < r.entries.length,
    r.entries[i].item.bruOp = true ∧ r.entries[i].item.predicted = true

/-- Retire up to a trapping entry, which becomes the head. -/
structure TrapCycle (s : CommitState) (c : CommitInput) (r : IdealRob γ) : Prop where
  flushing : flushing s c = true
  nextState : commitNextState s c ≠ .normal
  noFlush : commitRobFlush s c = false
  noRestore : commitRatMapTableRestore s c = false
  left : popCount s c < r.entries.length
  curRobItem : (commitNext s c).curRobItem = r.entries[popCount s c].item
  robItemId : (commitNext s c).robItemId = r.idAt (popCount s c)

/-- A finished branch never carries an exception. -/
def BranchesClean (r : IdealRob γ) : Prop :=
  ∀ e ∈ r.entries, e.item.finish = true → e.item.bruOp = true → e.item.hasException = false

theorem empty_eq (hview : Shows c.rob r) : c.rob.empty = r.entries.isEmpty :=
  hview.empty

theorem empty_of_length (hview : Shows c.rob r) (h : 0 < r.entries.length) :
    c.rob.empty = false := by
  rw [empty_eq hview, List.isEmpty_eq_false_iff]
  exact List.length_pos_iff.1 h

theorem flushing_normal (hstate : s.curState = .normal) :
    flushing s c = (!c.rob.empty &&
      (c.intifCommitHasInterrupt || retireHasException s c || retireIsMiss s c)) := by
  simp only [flushing, commitFeedbackPack, hstate, normalFeedbackPack]

theorem retireHasException_spec (hview : Shows c.rob r)
    (h : retireHasException s c = true) :
    c.rob.empty = false ∧ c.intifCommitHasInterrupt = false ∧
      ∃ i, i < commitWidth ∧ commitRobRetireValid s c i = true ∧
        (retireData c i).hasException = true ∧ retireHasExceptionIndex s c = i := by
  obtain ⟨i, hi, hcmp⟩ := anyBit_iff.1 h
  simp only [retireHasExceptionCmp, Bool.and_eq_true] at hcmp
  obtain ⟨_, hint, hlt, _⟩ := retireValid_spec hview hi hcmp.1
  refine ⟨empty_of_length hview (by omega), hint, i, hi, hcmp.1, hcmp.2, ?_⟩
  refine priorityFinderFirst_eq hi (by simp [retireHasExceptionCmp, hcmp]) fun j hj => ?_
  simp [retireHasExceptionCmp, (retireValid_before hj hcmp.1).2.1]

theorem retireIsMiss_spec (hview : Shows c.rob r)
    (h : retireIsMiss s c = true) :
    c.rob.empty = false ∧ c.intifCommitHasInterrupt = false ∧
      ∃ i, i < commitWidth ∧ commitRobRetireValid s c i = true ∧
        (retireData c i).bruOp = true ∧ (retireData c i).predicted = true ∧
        retireHasBruOpIndex s c = i := by
  obtain ⟨i, hi, hcmp⟩ := anyBit_iff.1 h
  simp only [retireIsMissCmp, Bool.and_eq_true] at hcmp
  obtain ⟨⟨⟨hvalid, hbru⟩, hpredicted⟩, _⟩ := hcmp
  obtain ⟨_, hint, hlt, _⟩ := retireValid_spec hview hi hvalid
  refine ⟨empty_of_length hview (by omega), hint, i, hi, hvalid, hbru, hpredicted, ?_⟩
  refine priorityFinderFirst_eq hi (by simp [retireHasBruOpCmp, hvalid, hbru]) fun j hj => ?_
  simp [retireHasBruOpCmp, (retireValid_before hj hvalid).2.2]

/-- Slot `i` is the last one that retires if it has an exception. -/
theorem popCount_exception {i : Nat} (hi : i < commitWidth)
    (hgate : retireGate s c = true) (hvalid : commitRobRetireValid s c i = true)
    (hexc : (retireData c i).hasException = true) : popCount s c = i := by
  have hno : commitRobRetirePop s c i = false := by simp [commitRobRetirePop, hexc]
  have hge : ¬i < popCount s c := of_decide_eq_false ((retirePop_block i hi).symm.trans hno)
  rcases Nat.eq_zero_or_pos i with rfl | hpos
  · omega
  · have hprev := retireValid_before (by omega : i - 1 < i) hvalid
    have hpop : commitRobRetirePop s c (i - 1) = true := by
      simp [commitRobRetirePop, hgate, hprev.1, hprev.2.1]
    have := of_decide_eq_true ((retirePop_block (i - 1) (by omega)).symm.trans hpop)
    omega

/-- Slot `i` is the last one that retires if it is a branch. -/
theorem popCount_branch {i : Nat} (hi : i < commitWidth) (hgate : retireGate s c = true)
    (hvalid : commitRobRetireValid s c i = true) (hbru : (retireData c i).bruOp = true)
    (hexc : (retireData c i).hasException = false) : popCount s c = i + 1 := by
  have hpop : commitRobRetirePop s c i = true := by
    simp [commitRobRetirePop, hgate, hvalid, hexc]
  have hlt := of_decide_eq_true ((retirePop_block i hi).symm.trans hpop)
  have hle : popCount s c ≤ i + 1 := by
    refine countOne_le_bound fun j _ hpopj => ?_
    by_contra hgt
    simp only [commitRobRetirePop, Bool.and_eq_true] at hpopj
    have := (retireValid_before (by omega : i < j) hpopj.1.2).2.2
    exact Bool.false_ne_true (this.symm.trans hbru)
  omega

/-- Every cycle in the normal state is of one of the three kinds. -/
theorem normal_cycle (hview : Shows c.rob r)
    (hclean : BranchesClean r) (hstate : s.curState = .normal) :
    KeepCycle s c ∨ (∃ i, MissCycle s c r i) ∨ TrapCycle s c r := by
  have hflushing := flushing_normal (c := c) hstate
  by_cases hint : (!c.rob.empty && c.intifCommitHasInterrupt) = true
  · -- an interrupt with something in flight: nothing retires
    right; right
    have hnext : commitNextState s c = .interruptFlush := by
      simp [commitNextState, hstate, hint]
    simp only [Bool.and_eq_true, Bool.not_eq_true'] at hint
    have hlen : 0 < r.entries.length := by
      rw [empty_eq hview, List.isEmpty_eq_false_iff] at hint
      exact List.length_pos_iff.2 hint.1
    have hnone : ∀ i, i < commitWidth → commitRobRetireValid s c i = false := by
      intro i hi
      rw [Bool.eq_false_iff]
      intro hvalid
      have := (retireValid_spec hview hi hvalid).2.1
      exact Bool.false_ne_true (this.symm.trans hint.2)
    have hpop : popCount s c = 0 := by
      have : popCount s c ≤ 0 := countOne_le_bound fun i hi h => by
        simp [commitRobRetirePop, hnone i hi] at h
      omega
    have hmiss : retireIsMiss s c = false :=
      anyBit_eq_false_iff.2 fun i hi => by simp [retireIsMissCmp, hnone i hi]
    have hgate : retireGate s c = false := by simp [retireGate, hnext]
    refine ⟨?_, by simp [hnext], ?_, by simp [commitRatMapTableRestore, hgate],
      by omega, ?_, ?_⟩
    · simp [hflushing, hint]
    · simp [commitRobFlush, hstate, hmiss]
    · simp [commitNext, hstate, hnext, hpop, retireData_eq hview hlen]
    · simp [commitNext, hstate, hnext, hpop, retireId_eq hview]
  · by_cases hexc : retireHasException s c = true
    · -- an exception in slot `i`: the slots before it retire
      right; right
      obtain ⟨hempty, hnoint, i, hi, hvalid, hdata, hindex⟩ :=
        retireHasException_spec hview hexc
      have hnext : commitNextState s c = .flush := by
        simp [commitNextState, hstate, hempty, hnoint, hexc]
      have hgate : retireGate s c = true := by simp [retireGate, hstate, hnext]
      have hpop := popCount_exception hi hgate hvalid hdata
      obtain ⟨_, _, hlt, hfinish⟩ := retireValid_spec hview hi hvalid
      have hmiss : retireIsMiss s c = false := by
        rw [Bool.eq_false_iff]
        intro hmiss
        obtain ⟨_, _, j, hj, hvalidj, hbru, _, _⟩ := retireIsMiss_spec hview hmiss
        -- a branch ends the bundle, so it would have to be the trapping slot
        rcases Nat.lt_trichotomy i j with hlt' | rfl | hgt
        · exact Bool.false_ne_true ((retireValid_before hlt' hvalidj).2.1.symm.trans hdata)
        · rw [retireData_eq hview hlt] at hbru hdata
          have := hclean _ (List.getElem_mem hlt) hfinish hbru
          exact Bool.false_ne_true (this.symm.trans hdata)
        · exact Bool.false_ne_true ((retireValid_before hgt hvalid).2.2.symm.trans hbru)
      refine ⟨?_, by simp [hnext], ?_, ?_, by omega, ?_, ?_⟩
      · simp [hflushing, hempty, hexc]
      · simp [commitRobFlush, hstate, hmiss]
      · simp [commitRatMapTableRestore, hmiss]
      · simp [commitNext, hstate, hnext, hindex, hpop, retireData_eq hview hlt]
      · simp [commitNext, hstate, hnext, hindex, hpop, retireId_eq hview]
    · have hnext : commitNextState s c = .normal := by
        simp only [commitNextState, hstate]
        rw [if_neg hint, if_neg]
        simp [hexc]
      have hgate : retireGate s c = true := by simp [retireGate, hstate, hnext]
      by_cases hmiss : retireIsMiss s c = true
      · right; left
        obtain ⟨hempty, hnoint, i, hi, hvalid, hbru, hpred, hindex⟩ :=
          retireIsMiss_spec hview hmiss
        obtain ⟨_, _, hlt, hfinish⟩ := retireValid_spec hview hi hvalid
        have hdata := retireData_eq hview hlt
        have hnoexc : (retireData c i).hasException = false := by
          rw [hdata] at hbru ⊢
          exact hclean _ (List.getElem_mem hlt) hfinish hbru
        have hpredicted : retireIsPredicted s c = true :=
          anyBit_iff.2 ⟨i, hi, by simp [retireIsPredictedCmp, hvalid, hbru, hpred]⟩
        refine ⟨i, ?_, hnext, ?_, ?_, popCount_branch hi hgate hvalid hbru hnoexc, hindex,
          hgate, hlt, ?_⟩
        · simp [hflushing, hempty, hmiss]
        · simp [commitRobFlush, hstate, hmiss]
        · simp [commitRatMapTableRestore, hgate, hpredicted, hmiss, hindex, hnoexc]
        · rw [hdata] at hbru hpred
          exact ⟨hbru, hpred⟩
      · left
        refine ⟨?_, hnext, ?_, ?_, hgate⟩
        · rw [hflushing]
          cases hempty : c.rob.empty <;> simp_all
        · simp [commitRobFlush, hstate, hmiss]
        · simp [commitRatMapTableRestore, hmiss]

/-! ## The walk -/

/-- The position the walk has reached, counted from the trapping head. -/
structure WalkAt (s : CommitState) (r : IdealRob γ) (k : Nat) : Prop where
  notNormal : s.curState ≠ .normal
  inList : k < r.entries.length
  restoreRobItemId : s.restoreRobItemId = r.idAt k
  robItemId : s.robItemId = r.idAt 0

section Walk

variable {k : Nat}

theorem walk_flushId (h : WalkAt s r k) : commitRobFlushId s c = r.idAt k := by
  rw [commitRobFlushId, if_neg h.notNormal, h.restoreRobItemId]

theorem walk_flushData (hview : Shows c.rob r) (h : WalkAt s r k)
    (hk : k < r.entries.length) : commitRobFlushData s c = r.entries[k].item := by
  rw [commitRobFlushData, walk_flushId h, hview.data k hk]

theorem walkContinues_iff (hview : Shows c.rob r)
    (h : WalkAt s r k) : walkContinues s c = true ↔ k ≠ 0 := by
  have hsize := hview.wf.2
  have hlen := h.inList
  rw [walkContinues, walk_flushId h, h.robItemId, Bool.and_eq_true, decide_eq_true_iff]
  cases k with
  | zero => simp
  | succ k =>
      refine ⟨fun _ => Nat.succ_ne_zero k, fun _ =>
        ⟨hview.flushNextIdValid k h.inList, fun heq => ?_⟩⟩
      have := idAt_inj hview.wf (by omega) (by decide) heq
      omega

theorem walk_robFlush (hview : Shows c.rob r)
    (h : WalkAt s r k) : commitRobFlush s c = decide (k = 0) := by
  have hiff := walkContinues_iff hview h
  rw [walkContinues] at hiff
  have hdone : commitRobFlush s c = !walkContinues s c := by
    rw [commitRobFlush, walkContinues]
    have := h.notNormal
    cases c.rob.flushNextIdValid (commitRobFlushId s c) <;> simp [this]
  rw [hdone]
  rw [← walkContinues] at hiff
  by_cases hk : k = 0
  · simp [hk, Bool.eq_false_iff.2 (mt hiff.1 (not_not.2 hk))]
  · simp [hk, hiff.2 hk]

/-- A walk cycle retires nothing and restores no checkpoint. -/
theorem walk_quiet (h : WalkAt s r k) :
    retireGate s c = false ∧ popCount s c = 0 ∧ commitRatMapTableRestore s c = false ∧
      flushing s c = true := by
  have hgate : retireGate s c = false := by simp [retireGate, h.notNormal]
  have hpop : popCount s c ≤ 0 := countOne_le_bound fun i _ hi => by
    simp [commitRobRetirePop, hgate] at hi
  refine ⟨hgate, by omega, by simp [commitRatMapTableRestore, hgate], ?_⟩
  cases hstate : s.curState with
  | normal => exact absurd hstate h.notNormal
  | flush => simp [flushing, commitFeedbackPack, hstate, flushingFeedbackPack]
  | interruptFlush => simp [flushing, commitFeedbackPack, hstate, flushingFeedbackPack]

/-- A walk cycle stays in its state while entries are left and then returns to normal. -/
theorem walk_nextState (hview : Shows c.rob r)
    (h : WalkAt s r k) :
    commitNextState s c = if k = 0 then .normal else s.curState := by
  have hiff := walkContinues_iff hview h
  cases hstate : s.curState with
  | normal => exact absurd hstate h.notNormal
  | flush => by_cases hk : k = 0 <;> simp_all [commitNextState]
  | interruptFlush => by_cases hk : k = 0 <;> simp_all [commitNextState]

end Walk

end Retire

end DreamCore.Proofs
