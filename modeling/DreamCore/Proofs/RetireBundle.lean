import DreamCore.Model.Retirement
import DreamCore.Proofs.RetireCycle
import DreamCore.Proofs.RobGrants

/-!
# The retire bundle is sequential retirement

The slots that are valid in a cycle hold the finished instructions from the head up to
the first branch or exception.  Every effect of the cycle selects some of these slots,
and so does retiring the same instructions one after the other.
-/

namespace DreamCore.Proofs

open DreamCore.Model DreamCore.Ring DreamCore.Rtl

/-! ## The instructions a cycle deals with -/

/-- The finished entries at the front, at most `n`, up to a branch or an exception. -/
def handled : Nat → List (Nat × RobItem) → List (Nat × RobItem)
  | 0, _ => []
  | _ + 1, [] => []
  | n + 1, x :: rest =>
      if !x.2.finish then []
      else if x.2.hasException || x.2.bruOp then [x]
      else x :: handled n rest

/-- A missed prediction. -/
def missed (e : RobItem) : Bool := e.bruOp && e.predicted && !predictionHit e

/-- What the handled instructions amount to. -/
def effectsOf (mstatus : Nat) (l : List (Nat × RobItem)) : CommitEffects where
  popped := (l.filter fun x => !x.2.hasException).map (·.1)
  released := (l.filter fun x => !x.2.hasException && x.2.oldPhyRegIdValid).map (·.2.oldPhyRegId)
  invalidated :=
    (l.filter fun x => !x.2.hasException && x.2.oldPhyRegIdValid).map (·.2.oldPhyRegId)
  csrWrites :=
    (l.filter fun x => !x.2.hasException && (x.2.isMret || x.2.csrNewvalueValid)).map fun x =>
      (if x.2.isMret then Csr.mstatus else x.2.csrAddr,
        if x.2.isMret then mretValue mstatus else x.2.csrNewvalue)
  committed := l.map (·.1)
  cpbufPops := (l.filter fun x => x.2.bruOp && (x.2.predicted && predictionHit x.2)).length
  cpbufFlush := l.any fun x => missed x.2
  predictorUpdates := (l.filter fun x => x.2.bruOp && x.2.predicted).map fun x =>
    predictorUpdate x.2 (predictionHit x.2)
  restored := (l.find? fun x => missed x.2).map (·.2.checkpointId)
  undone := []
  robFlush := l.any fun x => missed x.2
  flush := l.any fun x => x.2.hasException || missed x.2
  exceptionPc := none
  jump := (l.find? fun x => x.2.bruOp).bind fun x =>
    if x.2.predicted && predictionHit x.2 then none else some (x.2.bruJump, jumpTarget x.2)
  nextState := if l.any fun x => x.2.hasException then .flush else .normal

/-- No finished branch carries an exception. -/
def NoBranchTraps (l : List (Nat × RobItem)) : Prop :=
  ∀ x ∈ l, x.2.finish = true → x.2.bruOp = true → x.2.hasException = false

section Single

variable {mstatus id : Nat} {e : RobItem}

theorem effectsOf_trap (hexc : e.hasException = true) (hbru : e.bruOp = false) :
    effectsOf mstatus [(id, e)] = trapEffects id := by
  simp [effectsOf, trapEffects, missed, hexc, hbru, CommitEffects.none]

theorem retiredCsrWrites_eq : retiredCsrWrites mstatus e =
    if e.isMret || e.csrNewvalueValid then
      [(if e.isMret then Csr.mstatus else e.csrAddr,
        if e.isMret then mretValue mstatus else e.csrNewvalue)]
    else [] := by
  unfold retiredCsrWrites
  cases e.isMret <;> cases e.csrNewvalueValid <;> rfl

theorem effectsOf_branch (hbru : e.bruOp = true) (hexc : e.hasException = false) :
    effectsOf mstatus [(id, e)] = retireOne mstatus e id (branchEffects e) := by
  unfold effectsOf retireOne branchEffects releasedRegisters missed
  rw [retiredCsrWrites_eq]
  cases hpredicted : e.predicted <;> cases hhit : predictionHit e <;>
    cases hold : e.oldPhyRegIdValid <;> cases hcsr : e.isMret || e.csrNewvalueValid <;>
    simp [hbru, hexc, hpredicted, hhit, hold, hcsr, CommitEffects.none]

theorem effectsOf_cons {l : List (Nat × RobItem)} (hexc : e.hasException = false)
    (hbru : e.bruOp = false) :
    effectsOf mstatus ((id, e) :: l) = retireOne mstatus e id (effectsOf mstatus l) := by
  unfold effectsOf retireOne releasedRegisters missed
  have htrap : (((id, e) :: l).any fun x => x.2.hasException) =
      l.any fun x => x.2.hasException := by simp [hexc]
  rw [retiredCsrWrites_eq, htrap]
  cases hold : e.oldPhyRegIdValid <;> cases hcsr : e.isMret || e.csrNewvalueValid <;>
    simp [hbru, hexc, hold, hcsr]

end Single

theorem retireInOrder_eq {mstatus n : Nat} {l : List (Nat × RobItem)} (h : NoBranchTraps l) :
    retireInOrder mstatus n l = effectsOf mstatus (handled n l) := by
  induction n generalizing l with
  | zero => rfl
  | succ n ih =>
      cases l with
      | nil => rfl
      | cons x rest =>
          obtain ⟨id, e⟩ := x
          unfold retireInOrder handled
          cases hfinish : e.finish with
          | false => rfl
          | true =>
              simp only [Bool.not_true, Bool.false_eq_true, if_false]
              cases hexc : e.hasException with
              | true =>
                  have hbru : e.bruOp = false := by
                    cases hbru : e.bruOp with
                    | false => rfl
                    | true =>
                        have := h (id, e) List.mem_cons_self hfinish hbru
                        exact absurd (this.symm.trans hexc) Bool.false_ne_true
                  simp only [Bool.true_or, if_true]
                  exact (effectsOf_trap hexc hbru).symm
              | false =>
                  cases hbru : e.bruOp with
                  | true =>
                      simp only [Bool.or_true, if_true, Bool.false_eq_true, if_false]
                      exact (effectsOf_branch hbru hexc).symm
                  | false =>
                      simp only [Bool.or_false, Bool.false_eq_true, if_false]
                      rw [ih fun x hx => h x (List.mem_cons_of_mem _ hx),
                        effectsOf_cons hexc hbru]

/-! ## The slots of the bundle -/

def slotEntry (c : CommitInput) (i : Nat) : Nat × RobItem := (retireId c i, retireData c i)

/-- Commit sees these entries with their ids, oldest first. -/
structure Window (c : CommitInput) (entries : List (Nat × RobItem)) : Prop where
  entry : ∀ i, ∀ hi : i < entries.length, slotEntry c i = entries[i]
  valid : ∀ i, i < robSize → c.rob.retireIdValid (retireId c i) = decide (i < entries.length)
  empty : c.rob.empty = entries.isEmpty

section Slots

variable {s : CommitState} {c : CommitInput} {entries : List (Nat × RobItem)}

/-- The slot before `k` lets slot `k` retire. -/
def Reaches (s : CommitState) (c : CommitInput) : Nat → Prop
  | 0 => c.intifCommitHasInterrupt = false
  | k + 1 => commitRobRetireValid s c k = true ∧ (retireData c k).hasException = false ∧
      (retireData c k).bruOp = false

theorem retireValid_reached {k : Nat} (h : Window c entries) (hstate : s.curState = .normal)
    (hk : k < robSize) (hreach : Reaches s c k) :
    commitRobRetireValid s c k = (decide (k < entries.length) && (retireData c k).finish) := by
  cases k with
  | zero =>
      have hint : c.intifCommitHasInterrupt = false := hreach
      rw [commitRobRetireValid, h.valid 0 hk, hint, hstate]
      simp
  | succ k =>
      obtain ⟨hvalid, hexc, hbru⟩ := hreach
      rw [commitRobRetireValid, h.valid (k + 1) hk, hvalid, hexc, hbru, hstate]
      simp

theorem retireValid_after {k j : Nat} (hkj : k < j)
    (h : commitRobRetireValid s c k = false ∨ (retireData c k).hasException = true ∨
      (retireData c k).bruOp = true) : commitRobRetireValid s c j = false := by
  rw [Bool.eq_false_iff]
  intro hvalid
  obtain ⟨hprev, hexc, hbru⟩ := retireValid_before hkj hvalid
  rcases h with h | h | h
  · exact Bool.false_ne_true (h.symm.trans hprev)
  · exact Bool.false_ne_true (hexc.symm.trans h)
  · exact Bool.false_ne_true (hbru.symm.trans h)

theorem filter_range'_none {k n : Nat} {v : Nat → Bool} (h : ∀ j, k ≤ j → v j = false) :
    (List.range' k n).filter v = [] := by
  rw [List.filter_eq_nil_iff]
  intro j hj
  rw [List.mem_range'_1] at hj
  simp [h j hj.1]

/-- From a slot that is reached on, the valid slots hold the handled entries. -/
theorem handled_drop (h : Window c entries) (hstate : s.curState = .normal) {n k : Nat}
    (hfits : k + n < robSize) (hreach : Reaches s c k) : handled n (entries.drop k) =
      ((List.range' k n).filter (commitRobRetireValid s c)).map (slotEntry c) := by
  induction n generalizing k with
  | zero => rfl
  | succ n ih =>
      have hvalid := retireValid_reached h hstate (by omega : k < robSize) hreach
      rw [List.range'_succ]
      by_cases hk : k < entries.length
      · have hentry : entries[k].2 = retireData c k := by rw [← h.entry k hk]; rfl
        rw [List.drop_eq_getElem_cons hk, handled, hentry]
        simp only [hk, decide_true, Bool.true_and] at hvalid
        cases hfinish : (retireData c k).finish with
        | false =>
            rw [hfinish] at hvalid
            rw [List.filter_cons_of_neg (by simp [hvalid]),
              filter_range'_none fun j hj => retireValid_after hj (.inl hvalid)]
            rfl
        | true =>
            rw [hfinish] at hvalid
            rw [List.filter_cons_of_pos hvalid, List.map_cons, ← h.entry k hk]
            simp only [Bool.not_true, Bool.false_eq_true, if_false]
            cases hstop : (retireData c k).hasException || (retireData c k).bruOp with
            | true =>
                rw [filter_range'_none fun j hj =>
                  retireValid_after hj (.inr (Bool.or_eq_true _ _ ▸ hstop))]
                rfl
            | false =>
                rw [Bool.or_eq_false_iff] at hstop
                simp only [Bool.false_eq_true, if_false]
                have hnext : Reaches s c (k + 1) := ⟨hvalid, hstop⟩
                rw [ih (by omega) hnext]
      · simp only [hk, decide_false, Bool.false_and] at hvalid
        rw [List.drop_eq_nil_of_le (by omega), List.filter_cons_of_neg (by simp [hvalid]),
          filter_range'_none fun j hj => retireValid_after hj (.inl hvalid)]
        rfl

/-- The valid slots of a bundle hold the handled entries. -/
theorem handled_slots (h : Window c entries) (hstate : s.curState = .normal)
    (hint : c.intifCommitHasInterrupt = false) : handled commitWidth entries =
      (slots (commitRobRetireValid s c)).map (slotEntry c) := by
  have hall := handled_drop h hstate (by decide : 0 + commitWidth < robSize) hint
  rw [List.drop_zero] at hall
  rw [hall, slots, List.range_eq_range']

end Slots

/-! ## The effects of the bundle -/

section Effects

variable {β : Type} {s : CommitState} {c : CommitInput}

/-- The entries of the valid slots. -/
def validEntries (s : CommitState) (c : CommitInput) : List (Nat × RobItem) :=
  (slots (commitRobRetireValid s c)).map (slotEntry c)

/-- A condition on the valid slots selects among their entries. -/
theorem selected {v : Nat → Bool} (p : RobItem → Bool) (g : Nat × RobItem → β)
    (hv : ∀ i, i < commitWidth → v i = (commitRobRetireValid s c i && p (retireData c i))) :
    (slots v).map (fun i => g (slotEntry c i)) =
      ((validEntries s c).filter fun x => p x.2).map g := by
  have hslots : slots v =
      slots fun i => p (retireData c i) && commitRobRetireValid s c i := by
    unfold slots
    refine List.filter_congr fun i hi => ?_
    rw [hv i (List.mem_range.1 hi), Bool.and_comm]
  rw [hslots, validEntries, List.filter_map, List.map_map]
  unfold slots
  rw [List.filter_filter]
  rfl

theorem selected_any {v : Nat → Bool} (p : RobItem → Bool)
    (hv : ∀ i, i < commitWidth → v i = (commitRobRetireValid s c i && p (retireData c i))) :
    anyBit commitWidth v = (validEntries s c).any fun x => p x.2 := by
  rw [Bool.eq_iff_iff, anyBit_iff, List.any_eq_true]
  constructor
  · rintro ⟨i, hi, hbit⟩
    rw [hv i hi, Bool.and_eq_true] at hbit
    refine ⟨slotEntry c i, List.mem_map.2 ⟨i, ?_, rfl⟩, hbit.2⟩
    exact List.mem_filter.2 ⟨List.mem_range.2 hi, hbit.1⟩
  · rintro ⟨x, hx, hp⟩
    obtain ⟨i, hi, rfl⟩ := List.mem_map.1 hx
    obtain ⟨hrange, hvalid⟩ := List.mem_filter.1 hi
    have hwidth := List.mem_range.1 hrange
    refine ⟨i, hwidth, ?_⟩
    rw [hv i hwidth, hvalid]
    exact hp

theorem predictionHit_eq (i : Nat) : predictionHit (retireData c i) = bruOpIsHit c i := rfl

theorem retireIsMiss_any : retireIsMiss s c = (validEntries s c).any fun x => missed x.2 := by
  refine selected_any missed fun i _ => ?_
  rw [retireIsMissCmp, missed, predictionHit_eq]
  simp only [Bool.and_assoc]

theorem retireHasException_any :
    retireHasException s c = (validEntries s c).any fun x => x.2.hasException :=
  selected_any (·.hasException) fun _ _ => rfl

theorem retireHasBruOp_any : retireHasBruOp s c = (validEntries s c).any fun x => x.2.bruOp :=
  selected_any (·.bruOp) fun _ _ => rfl

theorem retireIsPredicted_any :
    retireIsPredicted s c = (validEntries s c).any fun x => x.2.bruOp && x.2.predicted := by
  refine selected_any (fun e => e.bruOp && e.predicted) fun i _ => ?_
  rw [retireIsPredictedCmp, Bool.and_assoc]

theorem bruOp_of_missed (e : RobItem) (h : missed e = true) : e.bruOp = true := by
  simp only [missed, Bool.and_eq_true] at h
  exact h.1.1

/-- At most one valid slot holds a branch. -/
theorem branch_slot_unique {i j : Nat} (hi : commitRobRetireValid s c i = true)
    (hj : commitRobRetireValid s c j = true) (hbi : (retireData c i).bruOp = true)
    (hbj : (retireData c j).bruOp = true) : i = j := by
  rcases Nat.lt_trichotomy i j with hlt | heq | hlt
  · exact absurd ((retireValid_before hlt hj).2.2.symm.trans hbi) Bool.false_ne_true
  · exact heq
  · exact absurd ((retireValid_before hlt hi).2.2.symm.trans hbj) Bool.false_ne_true

/-- The branch of the bundle, if it has one, is in the slot commit looks it up in. -/
theorem branch_found (p : RobItem → Bool) (hp : ∀ e, p e = true → e.bruOp = true) :
    ((validEntries s c).find? fun x => p x.2) =
      if (validEntries s c).any fun x => p x.2 then
        some (slotEntry c (retireHasBruOpIndex s c))
      else none := by
  cases hany : (validEntries s c).any fun x => p x.2 with
  | false =>
      rw [List.any_eq_false] at hany
      exact List.find?_eq_none.2 hany
  | true =>
      have hsome : ((validEntries s c).find? fun x => p x.2).isSome := by
        rw [List.find?_isSome]
        simpa [List.any_eq_true] using hany
      obtain ⟨x, hx⟩ := Option.isSome_iff_exists.1 hsome
      rw [hx, if_pos rfl, Option.some_inj]
      obtain ⟨i, hi, rfl⟩ := List.mem_map.1 (List.mem_of_find?_eq_some hx)
      obtain ⟨hrange, hvalid⟩ := List.mem_filter.1 hi
      have hpi := List.find?_some hx
      have hbru : (retireData c i).bruOp = true := hp _ hpi
      congr 1
      refine (priorityFinderFirst_eq (List.mem_range.1 hrange) ?_ fun j hj => ?_).symm
      · rw [retireHasBruOpCmp, hvalid, hbru]
        rfl
      · rw [retireHasBruOpCmp, (retireValid_before hj hvalid).2.2, Bool.and_false]

/-- With a branch in the bundle a condition on branches is one on its slot. -/
theorem any_branch {i : Nat} (hi : i < commitWidth) (hvalid : commitRobRetireValid s c i = true)
    (hbru : (retireData c i).bruOp = true) (p : RobItem → Bool)
    (hp : ∀ e, p e = true → e.bruOp = true) :
    ((validEntries s c).any fun x => p x.2) = p (retireData c i) := by
  rw [Bool.eq_iff_iff, List.any_eq_true]
  constructor
  · rintro ⟨x, hx, hpx⟩
    obtain ⟨j, hj, rfl⟩ := List.mem_map.1 hx
    have hsame := branch_slot_unique hvalid (List.mem_filter.1 hj).2 hbru (hp _ hpx)
    rw [hsame]
    exact hpx
  · intro hpi
    refine ⟨slotEntry c i, List.mem_map.2 ⟨i, ?_, rfl⟩, hpi⟩
    exact List.mem_filter.2 ⟨List.mem_range.2 hi, hvalid⟩

theorem branch_index (h : retireHasBruOp s c = true) :
    retireHasBruOpIndex s c < commitWidth ∧
      commitRobRetireValid s c (retireHasBruOpIndex s c) = true ∧
      (retireData c (retireHasBruOpIndex s c)).bruOp = true := by
  obtain ⟨i, hi, hcmp, hbefore⟩ := anyBit_first h
  have hindex : retireHasBruOpIndex s c = i := priorityFinderFirst_eq hi hcmp hbefore
  rw [retireHasBruOpCmp, Bool.and_eq_true] at hcmp
  rw [hindex]
  exact ⟨hi, hcmp.1, hcmp.2⟩

end Effects

/-! ## A cycle in the normal state -/

/-- Commit is in the normal state, sees these entries and takes no interrupt. -/
structure Retiring (s : CommitState) (c : CommitInput) (entries : List (Nat × RobItem)) :
    Prop where
  window : Window c entries
  state : s.curState = .normal
  noInterrupt : c.intifCommitHasInterrupt = false
  clean : NoBranchTraps entries

namespace Retiring

variable {s : CommitState} {c : CommitInput} {entries : List (Nat × RobItem)}
  (h : Retiring s c entries)

include h

theorem validEntries_eq : validEntries s c = handled commitWidth entries :=
  (handled_slots h.window h.state h.noInterrupt).symm

theorem next_ne : commitNextState s c ≠ .interruptFlush := by
  unfold commitNextState
  rw [h.state, h.noInterrupt]
  simp only [Bool.and_false, Bool.false_eq_true, if_false]
  split <;> simp

theorem gate : retireGate s c = true := by simp [retireGate, h.state, h.next_ne]

theorem feedback : commitFeedbackPack s c = normalFeedbackPack s c := by
  rw [commitFeedbackPack, h.state]

omit h in
theorem slot_finish {i : Nat} (hvalid : commitRobRetireValid s c i = true) :
    (retireData c i).finish = true := by
  cases i <;> (rw [commitRobRetireValid] at hvalid; simp only [Bool.and_eq_true] at hvalid)
  · exact hvalid.1.2
  · exact hvalid.1.2

theorem slot_inside {i : Nat} (hi : i < commitWidth)
    (hvalid : commitRobRetireValid s c i = true) : i < entries.length := by
  have hsize : i < robSize := Nat.lt_of_lt_of_le hi (by decide)
  have hid : c.rob.retireIdValid (retireId c i) = true := by
    cases i <;> (rw [commitRobRetireValid] at hvalid; simp only [Bool.and_eq_true] at hvalid)
    · exact hvalid.1.1.2
    · exact hvalid.1.1.2
  rw [h.window.valid i hsize] at hid
  exact of_decide_eq_true hid

/-- A valid slot lies in a buffer that is not empty. -/
theorem slot_live {i : Nat} (hi : i < commitWidth)
    (hvalid : commitRobRetireValid s c i = true) : c.rob.empty = false := by
  have hinside := h.slot_inside hi hvalid
  rw [h.window.empty, List.isEmpty_eq_false_iff]
  exact List.length_pos_iff.1 (by omega)

theorem slot_clean {i : Nat} (hi : i < commitWidth)
    (hvalid : commitRobRetireValid s c i = true) (hbru : (retireData c i).bruOp = true) :
    (retireData c i).hasException = false := by
  have hinside := h.slot_inside hi hvalid
  have hmem : slotEntry c i ∈ entries := by
    rw [h.window.entry i hinside]
    exact List.getElem_mem hinside
  exact h.clean _ hmem (slot_finish hvalid) hbru

/-! ### The lists -/

theorem popped_eq : (slots (commitRobRetirePop s c)).map (retireId c) =
    ((validEntries s c).filter fun x => !x.2.hasException).map (·.1) := by
  refine selected (fun e => !e.hasException) (·.1) fun i _ => ?_
  rw [commitRobRetirePop, h.gate, Bool.true_and]

theorem released_eq : (slots fun i => commitRatReleaseMap s c &&
      commitRatReleasePhyIdValid s c i).map (commitRatReleasePhyId c) =
    ((validEntries s c).filter fun x => !x.2.hasException && x.2.oldPhyRegIdValid).map
      (·.2.oldPhyRegId) := by
  refine selected (fun e => !e.hasException && e.oldPhyRegIdValid) (·.2.oldPhyRegId) fun i _ => ?_
  rw [commitRatReleaseMap, h.gate, Bool.true_and, commitRatReleasePhyIdValid, Bool.and_assoc]

theorem invalidated_eq : (slots (commitPhyfInvalid s c)).map (commitRatReleasePhyId c) =
    ((validEntries s c).filter fun x => !x.2.hasException && x.2.oldPhyRegIdValid).map
      (·.2.oldPhyRegId) := by
  refine selected (fun e => !e.hasException && e.oldPhyRegIdValid) (·.2.oldPhyRegId) fun i _ => ?_
  rw [commitPhyfInvalid, h.gate, Bool.true_and, Bool.and_assoc]

theorem csrWrites_eq : ((slots fun i => (commitCsrfWrite s c i).we).map fun i =>
      ((commitCsrfWrite s c i).addr, (commitCsrfWrite s c i).data)) =
    ((validEntries s c).filter fun x =>
        !x.2.hasException && (x.2.isMret || x.2.csrNewvalueValid)).map fun x =>
      (if x.2.isMret then Csr.mstatus else x.2.csrAddr,
        if x.2.isMret then mretValue c.csrfAllMstatusData else x.2.csrNewvalue) := by
  have hnormal : ∀ i, commitCsrfWrite s c i = normalCsrfWrite s c i := fun i => by
    rw [commitCsrfWrite, h.state]
  simp only [hnormal]
  refine selected (fun e => !e.hasException && (e.isMret || e.csrNewvalueValid))
    (fun x => (if x.2.isMret then Csr.mstatus else x.2.csrAddr,
      if x.2.isMret then mretValue c.csrfAllMstatusData else x.2.csrNewvalue)) fun i _ => ?_
  simp only [normalCsrfWrite, h.gate, Bool.true_and, Bool.and_assoc]

theorem committed_eq : ((slots fun i => (normalFeedbackPack s c).enable &&
      (normalFeedbackPack s c).committedRobIdValid i).map
        (normalFeedbackPack s c).committedRobId) = (validEntries s c).map (·.1) := by
  have hvalid : ∀ i, i < commitWidth → ((normalFeedbackPack s c).enable &&
      (normalFeedbackPack s c).committedRobIdValid i) =
        (commitRobRetireValid s c i && true) := by
    intro i hi
    simp only [normalFeedbackPack, h.next_ne, ne_eq, not_false_eq_true, decide_true,
      Bool.true_and, Bool.and_true]
    cases hvalid : commitRobRetireValid s c i with
    | false => rw [Bool.and_false]
    | true => rw [h.slot_live hi hvalid]; rfl
  have hall := selected (fun _ => true) (·.1) hvalid
  rw [List.filter_true] at hall
  exact hall

theorem branch_selected {i : Nat} (hi : i < commitWidth) (q : RobItem → Bool) :
    (retireGate s c && commitRobRetireValid s c i && !(retireData c i).hasException &&
        (commitRobRetireValid s c i && (retireData c i).bruOp && q (retireData c i))) =
      (commitRobRetireValid s c i && ((retireData c i).bruOp && q (retireData c i))) := by
  rw [h.gate]
  cases hvalid : commitRobRetireValid s c i with
  | false => rfl
  | true =>
      cases hbru : (retireData c i).bruOp with
      | false => simp
      | true => simp [h.slot_clean hi hvalid hbru]

theorem cpbufPops_eq : (slots (commitCpbufPop s c)).length =
    ((validEntries s c).filter fun x =>
      x.2.bruOp && (x.2.predicted && predictionHit x.2)).length := by
  have hall := selected (s := s) (c := c) (v := commitCpbufPop s c)
    (fun e => e.bruOp && (e.predicted && predictionHit e)) id fun i hi => ?_
  · have hlen := congrArg List.length hall
    simpa only [List.length_map] using hlen
  · rw [← h.branch_selected hi fun e => e.predicted && predictionHit e]
    simp only [commitCpbufPop, retireIsHitCmp, predictionHit_eq, Bool.and_assoc]

theorem predictorUpdates_eq : ((slots (commitBpValid s c)).map fun i =>
      predictorUpdate (retireData c i) (bruOpIsHit c i)) =
    ((validEntries s c).filter fun x => x.2.bruOp && x.2.predicted).map fun x =>
      predictorUpdate x.2 (predictionHit x.2) := by
  refine selected (fun e => e.bruOp && e.predicted)
    (fun x => predictorUpdate x.2 (predictionHit x.2)) fun i hi => ?_
  rw [← h.branch_selected hi fun e => e.predicted]
  rfl

/-! ### The flags -/

theorem robFlush_eq : commitRobFlush s c = (validEntries s c).any fun x => missed x.2 := by
  rw [commitRobFlush, h.state, retireIsMiss_any]
  simp

theorem cpbufFlush_eq : commitCpbufFlush s c = (validEntries s c).any fun x => missed x.2 := by
  rw [commitCpbufFlush, h.state, retireIsMiss_any]
  simp

theorem any_slot {p : RobItem → Bool} (hany : ((validEntries s c).any fun x => p x.2) = true) :
    c.rob.empty = false := by
  obtain ⟨x, hx, _⟩ := List.any_eq_true.1 hany
  obtain ⟨i, hi, rfl⟩ := List.mem_map.1 hx
  obtain ⟨hrange, hvalid⟩ := List.mem_filter.1 hi
  exact h.slot_live (List.mem_range.1 hrange) hvalid

theorem flush_eq : ((normalFeedbackPack s c).enable && (normalFeedbackPack s c).flush) =
    (validEntries s c).any fun x => x.2.hasException || missed x.2 := by
  have hsplit : ((validEntries s c).any fun x => x.2.hasException || missed x.2) =
      (retireHasException s c || retireIsMiss s c) := by
    rw [retireHasException_any, retireIsMiss_any, Bool.eq_iff_iff]
    simp only [List.any_eq_true, Bool.or_eq_true]
    constructor
    · rintro ⟨x, hx, hexc | hmiss⟩
      · exact Or.inl ⟨x, hx, hexc⟩
      · exact Or.inr ⟨x, hx, hmiss⟩
    · rintro (⟨x, hx, hexc⟩ | ⟨x, hx, hmiss⟩)
      · exact ⟨x, hx, Or.inl hexc⟩
      · exact ⟨x, hx, Or.inr hmiss⟩
  rw [hsplit]
  simp only [normalFeedbackPack, h.noInterrupt, Bool.false_or]
  cases hany : retireHasException s c || retireIsMiss s c with
  | false => rw [Bool.and_false]
  | true =>
      have hsome : ((validEntries s c).any fun x => x.2.hasException || missed x.2) = true :=
        hsplit.trans hany
      rw [h.any_slot (p := fun e => e.hasException || missed e) hsome]
      rfl

theorem nextState_eq : commitNextState s c =
    if (validEntries s c).any fun x => x.2.hasException then .flush else .normal := by
  unfold commitNextState
  rw [h.state, h.noInterrupt, retireHasException_any]
  cases hany : (validEntries s c).any fun x => x.2.hasException with
  | false => simp
  | true => simp [h.any_slot hany]

theorem restored_eq : (if commitRatMapTableRestore s c then
      some (commitCpbufId c (retireHasBruOpIndex s c)) else none) =
    ((validEntries s c).find? fun x => missed x.2).map (·.2.checkpointId) := by
  rw [branch_found missed bruOp_of_missed, commitRatMapTableRestore, h.gate, retireIsMiss_any]
  cases hany : (validEntries s c).any fun x => missed x.2 with
  | false => simp
  | true =>
      -- the missed branch is the one commit looks the checkpoint up with
      have hbru : retireHasBruOp s c = true := by
        rw [retireHasBruOp_any, List.any_eq_true]
        obtain ⟨x, hx, hmiss⟩ := List.any_eq_true.1 hany
        exact ⟨x, hx, bruOp_of_missed _ hmiss⟩
      obtain ⟨hi, hvalid, hbruOp⟩ := branch_index hbru
      have hmissed := (any_branch hi hvalid hbruOp missed bruOp_of_missed).symm.trans hany
      have hpredicted : retireIsPredicted s c = true := by
        simp only [missed, Bool.and_eq_true] at hmissed
        refine anyBit_iff.2 ⟨_, hi, ?_⟩
        rw [retireIsPredictedCmp, hvalid, hbruOp, hmissed.1.2]
        rfl
      rw [hpredicted, h.slot_clean hi hvalid hbruOp]
      rfl

omit h in
theorem jump_eq : (if (normalFeedbackPack s c).jumpEnable then
      some ((normalFeedbackPack s c).jump, (normalFeedbackPack s c).nextPc) else none) =
    ((validEntries s c).find? fun x => x.2.bruOp).bind fun x =>
      if x.2.predicted && predictionHit x.2 then none else some (x.2.bruJump, jumpTarget x.2) := by
  rw [branch_found (·.bruOp) fun _ he => he, ← retireHasBruOp_any]
  show (if retireHasBruOp s c && (retireIsMiss s c || !retireIsPredicted s c) then _ else _) = _
  cases hbru : retireHasBruOp s c with
  | false => rfl
  | true =>
      obtain ⟨hi, hvalid, hbruOp⟩ := branch_index hbru
      have hmiss := retireIsMiss_any.trans (any_branch hi hvalid hbruOp missed bruOp_of_missed)
      have hpredicted := retireIsPredicted_any.trans
        (any_branch hi hvalid hbruOp (fun e => e.bruOp && e.predicted) fun e he =>
          (Bool.and_eq_true _ _ ▸ he).1)
      rw [hmiss, hpredicted, missed, hbruOp]
      show _ = if (retireData c (retireHasBruOpIndex s c)).predicted &&
        predictionHit (retireData c (retireHasBruOpIndex s c)) then none else some _
      cases (retireData c (retireHasBruOpIndex s c)).predicted <;>
        cases predictionHit (retireData c (retireHasBruOpIndex s c)) <;> rfl

/-- Without an interrupt the effects are those of the handled instructions. -/
theorem hardwareEffects_eq : hardwareEffects s c =
    effectsOf c.csrfAllMstatusData (handled commitWidth entries) := by
  have hwalk : commitRatRestoreMap s c = false := by
    rw [commitRatRestoreMap, h.state]
    rfl
  rw [← h.validEntries_eq]
  unfold hardwareEffects effectsOf
  simp only [h.feedback]
  rw [h.popped_eq, h.released_eq, h.invalidated_eq, h.csrWrites_eq, h.committed_eq,
    h.cpbufPops_eq, h.cpbufFlush_eq, h.predictorUpdates_eq, h.restored_eq, h.robFlush_eq,
    h.flush_eq, jump_eq, h.nextState_eq, hwalk]
  rfl

end Retiring

/-! ## A pending interrupt -/

section Interrupt

variable {s : CommitState} {c : CommitInput}

theorem slots_none {v : Nat → Bool} (h : ∀ i, i < commitWidth → v i = false) : slots v = [] := by
  unfold slots
  rw [List.filter_eq_nil_iff]
  intro i hi
  simp [h i (List.mem_range.1 hi)]

theorem nothing_valid (hint : c.intifCommitHasInterrupt = true) (i : Nat) :
    commitRobRetireValid s c i = false := by
  induction i with
  | zero => simp [commitRobRetireValid, hint]
  | succ i ih => simp [commitRobRetireValid, ih]

/-- With an interrupt pending nothing retires; it is taken if something is in flight. -/
theorem hardwareEffects_interrupt (hstate : s.curState = .normal)
    (hint : c.intifCommitHasInterrupt = true) :
    hardwareEffects s c =
      if c.rob.empty then CommitEffects.none
      else { CommitEffects.none with flush := true, nextState := .interruptFlush } := by
  have hvalid := nothing_valid (s := s) hint
  have hfeedback : commitFeedbackPack s c = normalFeedbackPack s c := by
    rw [commitFeedbackPack, hstate]
  have hcsr : ∀ i, (commitCsrfWrite s c i).we = false := fun i => by
    simp [commitCsrfWrite, hstate, normalCsrfWrite, hvalid]
  have hmiss : retireIsMiss s c = false :=
    anyBit_eq_false_iff.2 fun i _ => by simp [retireIsMissCmp, hvalid]
  have htrap : retireHasException s c = false :=
    anyBit_eq_false_iff.2 fun i _ => by simp [retireHasExceptionCmp, hvalid]
  have hbru : retireHasBruOp s c = false :=
    anyBit_eq_false_iff.2 fun i _ => by simp [retireHasBruOpCmp, hvalid]
  have hnext : commitNextState s c = if c.rob.empty then .normal else .interruptFlush := by
    unfold commitNextState
    rw [hstate, hint, htrap]
    cases c.rob.empty <;> rfl
  have hpop : slots (commitRobRetirePop s c) = [] :=
    slots_none fun i _ => by simp [commitRobRetirePop, hvalid]
  have hrelease : (slots fun i => commitRatReleaseMap s c &&
      commitRatReleasePhyIdValid s c i) = [] :=
    slots_none fun i _ => by simp [commitRatReleasePhyIdValid, hvalid]
  have hinvalid : slots (commitPhyfInvalid s c) = [] :=
    slots_none fun i _ => by simp [commitPhyfInvalid, hvalid]
  have hwrites : (slots fun i => (commitCsrfWrite s c i).we) = [] :=
    slots_none fun i _ => hcsr i
  have hcommitted : (slots fun i => (normalFeedbackPack s c).enable &&
      (normalFeedbackPack s c).committedRobIdValid i) = [] :=
    slots_none fun i _ => by simp [normalFeedbackPack, hvalid]
  have hcpbuf : slots (commitCpbufPop s c) = [] :=
    slots_none fun i _ => by simp [commitCpbufPop, hvalid]
  have hpredictor : slots (commitBpValid s c) = [] :=
    slots_none fun i _ => by simp [commitBpValid, hvalid]
  unfold hardwareEffects
  simp only [hfeedback]
  rw [hpop, hrelease, hinvalid, hwrites, hcommitted, hcpbuf, hpredictor]
  cases hempty : c.rob.empty with
  | true =>
      simp [normalFeedbackPack, CommitEffects.none, commitCpbufFlush, commitRobFlush,
        commitRatMapTableRestore, commitRatRestoreMap, hstate, hmiss, hbru, hnext, hempty]
  | false =>
      simp [normalFeedbackPack, CommitEffects.none, commitCpbufFlush, commitRobFlush,
        commitRatMapTableRestore, commitRatRestoreMap, hstate, hmiss, hbru, hnext, hempty, hint]

/-- One cycle in the normal state is sequential retirement. -/
theorem hardware_sequential {entries : List (Nat × RobItem)} (h : Window c entries)
    (hstate : s.curState = .normal) (hclean : NoBranchTraps entries) :
    hardwareEffects s c =
      retireSequentially c.csrfAllMstatusData c.intifCommitHasInterrupt entries := by
  unfold retireSequentially
  rw [← h.empty]
  cases hint : c.intifCommitHasInterrupt with
  | true => rw [hardwareEffects_interrupt hstate hint]; rfl
  | false =>
      have hretiring : Retiring s c entries := ⟨h, hstate, hint, hclean⟩
      rw [hretiring.hardwareEffects_eq, retireInOrder_eq hclean]
      cases hempty : c.rob.empty with
      | false => rfl
      | true =>
          rw [h.empty, List.isEmpty_iff] at hempty
          rw [hempty]
          rfl

end Interrupt

/-! ## Windows -/

section Rob

variable {rob : RobState}

theorem robIdValid (h : RobWellFormed rob) {i : Nat} (hi : i < robSize) :
    robCommitRetireIdValid rob (slot robSize (rob.rptr + i)) =
      decide (i < occupancy robSize rob.rptr rob.wptr) := by
  rw [Bool.eq_iff_iff, decide_eq_true_iff, robCommitRetireIdValid,
    ptrInRange_iff h (slot_lt (by decide))]
  constructor
  · rintro ⟨k, hk, heq⟩
    have hsize : occupancy robSize rob.rptr rob.wptr ≤ robSize := h.fits
    have hsame := slot_add_inj hi (by omega : k < robSize) heq
    omega
  · exact fun hlt => live_slot hlt

theorem robContents_length :
    (robContents rob).length = occupancy robSize rob.rptr rob.wptr := by
  simp [robContents]

theorem robContents_getElem {i : Nat} (hi : i < (robContents rob).length) :
    (robContents rob)[i] =
      (slot robSize (rob.rptr + i), rob.buffer (slot robSize (rob.rptr + i))) := by
  have hlt : i < occupancy robSize rob.rptr rob.wptr := robContents_length ▸ hi
  have hget : (robContents rob)[i]? = some _ := contents_getElem? hlt
  rw [List.getElem?_eq_getElem hi, Option.some_inj] at hget
  exact hget

theorem robContents_isEmpty (h : RobWellFormed rob) :
    (robContents rob).isEmpty = robEmpty rob := by
  have hiff := occupancy_eq_zero_iff h.rptr_lt h.wptr_lt
  rw [robEmpty, Bool.eq_iff_iff, List.isEmpty_iff, ← List.length_eq_zero_iff,
    robContents_length, hiff, decide_eq_true_iff]

/-- Commit sees the contents of the reorder buffer. -/
theorem window_rob {c : CommitInput} (hview : c.rob = robView rob) (h : RobWellFormed rob) :
    Window c (robContents rob) := by
  have hid : ∀ i, retireId c i = slot robSize (rob.rptr + i) := fun i => by
    rw [retireId, hview]
    exact Nat.mod_add_mod _ _ _
  refine ⟨fun i hi => ?_, fun i hi => ?_, ?_⟩
  · rw [robContents_getElem hi, slotEntry, retireData, hid, hview]
    rfl
  · rw [hid, hview, robContents_length]
    exact robIdValid h hi
  · rw [hview]
    exact (robContents_isEmpty h).symm

end Rob

/-- The entries of the list with their ids. -/
def listContents {γ : Type} (r : IdealRob γ) : List (Nat × RobItem) :=
  r.entries.mapIdx fun k e => (r.idAt k, e.item)

theorem window_list {γ : Type} {r : IdealRob γ} {c : CommitInput} (hview : Shows c.rob r) :
    Window c (listContents r) := by
  refine ⟨fun i hi => ?_, fun i hi => ?_, ?_⟩
  · have hlt : i < r.entries.length := by simpa [listContents] using hi
    simp only [listContents, List.getElem_mapIdx, slotEntry, retireId_eq hview,
      retireData_eq hview hlt]
  · have hlen : (listContents r).length = r.entries.length := by simp [listContents]
    rw [retireId_eq hview, hlen]
    exact hview.retireIdValid i hi
  · rw [empty_eq hview, listContents, Bool.eq_iff_iff, List.isEmpty_iff, List.isEmpty_iff,
      List.mapIdx_eq_nil_iff]

end DreamCore.Proofs
