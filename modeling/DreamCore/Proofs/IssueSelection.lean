import DreamCore.Model.IssueSelection
import DreamCore.Proofs.Dispatch

/-!
# The two issue queues select the same operations

A source that waits in the queue has missed no answer of an execution unit, so what
write-back repeats is news to nobody and the two readiness tests agree.  The loop of the
C++ model then follows the scan of the hardware entry by entry; where it ends early the
scan has nothing left to issue.
-/

namespace DreamCore.Proofs

open DreamCore.Clocked DreamCore.Compaction DreamCore.Model DreamCore.Ring DreamCore.Rtl

/-! ## Waiting sources -/

/-- No source of the entry waits for one of these answers. -/
def MissedNone (executed : Nat → FeedbackChannel) (e : IssueQueueItem) : Prop :=
  (e.src1Loaded = false → ∀ j, j < executeUnitNum → ¬Delivers (executed j) e.rs1Phy) ∧
    (e.src2Loaded = false → ∀ j, j < executeUnitNum → ¬Delivers (executed j) e.rs2Phy)

structure IssueStageOk (s : IssueStageState) : Prop where
  wellFormed : IqWellFormed s.queue
  missed : ∀ e ∈ issueList s.queue, MissedNone s.executed e

theorem not_delivers {input : IssueQueueInput} {phyId : Nat}
    (h : anyBit executeUnitNum (phyExefbCmp input phyId) = false) :
    ∀ j, j < executeUnitNum → ¬Delivers (input.executeFeedbackPack j) phyId := by
  intro j hj hdelivers
  have hcmp := anyBit_eq_false_iff.1 h j hj
  rw [phyExefbCmp_iff.2 hdelivers] at hcmp
  exact Bool.noConfusion hcmp

theorem missedNone_feedback (input : IssueQueueInput) (e : IssueQueueItem) :
    MissedNone input.executeFeedbackPack (itemFeedback input e) := by
  have hloaded : ∀ loaded phyId, feedbackLoaded input loaded phyId = false →
      anyBit executeUnitNum (phyExefbCmp input phyId) = false := by
    intro loaded phyId h
    simp only [feedbackLoaded, Bool.or_eq_false_iff] at h
    exact h.1.2
  exact ⟨fun h => not_delivers (hloaded _ _ h), fun h => not_delivers (hloaded _ _ h)⟩

theorem missedNone_tItem (phyf : PhyRegfileState) (input : IssueQueueInput)
    (op : ReadregIssueOpInfo) : MissedNone input.executeFeedbackPack (tItem phyf input op) := by
  have hloaded : ∀ loaded phyId, tItemLoaded phyf input loaded phyId = false →
      anyBit executeUnitNum (phyExefbCmp input phyId) = false := by
    intro loaded phyId h
    simp only [tItemLoaded, Bool.or_eq_false_iff] at h
    exact h.1.2
  exact ⟨fun h => not_delivers (hloaded _ _ h), fun h => not_delivers (hloaded _ _ h)⟩

/-- What the queue accepts has passed through the input part of issue. -/
theorem accepted_tItem {s : IssueQueueState} {x : IssueStageCycle} {e : IssueQueueItem}
    (he : e ∈ acceptedItems s (issueStageInput s x)) :
    ∃ op, e = tItem x.phyf x.input op := by
  rw [acceptedItems, show (issueStageInput s x).issueIqPush = true from rfl, if_pos rfl,
    List.mem_map] at he
  obtain ⟨i, hi, rfl⟩ := he
  have hchannel := List.mem_takeWhile_imp hi
  have hvalid := (Bool.and_eq_true_iff.1 hchannel).2
  have hredirected : redirectedValid x.lastIndex i = true := by
    have hpack := (Bool.and_eq_true_iff.1 hvalid).1
    exact (Bool.and_eq_true_iff.1 hpack).1
  exact ⟨_, if_pos hredirected⟩

theorem issueStageOk_next {s : IssueStageState} (x : IssueStageCycle) (h : IssueStageOk s) :
    IssueStageOk (issueStageNext s x) := by
  refine ⟨iqWellFormed_next h.wellFormed, fun e he => ?_⟩
  have hqueue : e ∈ issueList (issueQueueNext s.queue (issueStageInput s.queue x)) := he
  cases hflush : (issueStageInput s.queue x).issueIqFlush with
  | true =>
      rw [issueList_flush hflush] at hqueue
      exact nomatch hqueue
  | false =>
      rw [issueList_next h.wellFormed hflush, List.mem_append] at hqueue
      rcases hqueue with hwaiting | haccepted
      · obtain ⟨i, _, rfl⟩ := List.mem_map.1 hwaiting
        exact missedNone_feedback (issueStageInput s.queue x) (s.queue.buffer i)
      · obtain ⟨op, rfl⟩ := accepted_tItem haccepted
        exact missedNone_tItem x.phyf x.input op

theorem issueStageOk_run (buffer : Nat → IssueQueueItem) (inputs : List IssueStageCycle) :
    IssueStageOk (run issueStageNext (issueStageReset buffer) inputs) := by
  have hreset : IssueStageOk (issueStageReset buffer) :=
    ⟨Nat.zero_le _, fun _ he => nomatch he⟩
  refine invariant_run (P := fun _ _ => True) (fun _ x hok _ => issueStageOk_next x hok) hreset ?_
  exact along_of_forall fun _ _ _ => trivial

/-- Write-back delivers nothing to a source that still waits. -/
theorem feedbackLoaded_execute {s : IssueStageState} {x : IssueStageCycle}
    (hwb : WbRepeats s x) {loaded : Bool} {phyId : Nat}
    (hmissed : loaded = false → ∀ j, j < executeUnitNum → ¬Delivers (s.executed j) phyId) :
    feedbackLoaded x.input loaded phyId =
      (loaded || anyBit executeUnitNum (phyExefbCmp x.input phyId)) := by
  cases loaded with
  | true => simp [feedbackLoaded]
  | false =>
      have hnone : anyBit wbWidth (phyWbfbCmp x.input phyId) = false := by
        refine anyBit_eq_false_iff.2 fun j hj => ?_
        rw [Bool.eq_false_iff]
        intro hcmp
        obtain ⟨henable, hphy⟩ := phyWbfbCmp_iff.1 hcmp
        obtain ⟨hexecuted, hsame⟩ := hwb j hj henable
        exact hmissed rfl j hj ⟨hexecuted, hphy.trans hsame⟩
      rw [feedbackLoaded, hnone, Bool.or_false]

/-! ## The readiness test of the C++ model -/

section Ready

variable (input : IssueQueueInput) (e : IssueQueueItem)

/-- Some channel from the one with `channels` left on delivers the register. -/
def answeredFrom (phyId channels : Nat) : Bool :=
  (List.range' (executeUnitNum - channels) channels).any (phyExefbCmp input phyId)

theorem answeredFrom_succ (phyId : Nat) {channels : Nat} (h : channels < executeUnitNum) :
    answeredFrom input phyId (channels + 1) =
      (phyExefbCmp input phyId (executeUnitNum - (channels + 1)) ||
        answeredFrom input phyId channels) := by
  have hnext : executeUnitNum - (channels + 1) + 1 = executeUnitNum - channels := by omega
  rw [answeredFrom, List.range'_succ, List.any_cons, hnext, answeredFrom]

theorem readyLoop_eq {channels : Nat} (h : channels ≤ executeUnitNum) (src1 src2 : Bool) :
    ((Cpp.readyLoop input e channels src1 src2).1 && (Cpp.readyLoop input e channels src1 src2).2) =
      ((src1 || answeredFrom input e.rs1Phy channels) &&
        (src2 || answeredFrom input e.rs2Phy channels)) := by
  induction channels generalizing src1 src2 with
  | zero => simp [Cpp.readyLoop, answeredFrom]
  | succ channels ih =>
      rw [answeredFrom_succ _ _ h, answeredFrom_succ _ _ h, Cpp.readyLoop]
      simp only [phyExefbCmp]
      cases (input.executeFeedbackPack (executeUnitNum - (channels + 1))).enable with
      | false => simp [ih (Nat.le_of_succ_le h)]
      | true =>
          simp only [if_true, Bool.true_and]
          split
          · rename_i hboth
            obtain ⟨h1, h2⟩ := Bool.and_eq_true_iff.1 hboth
            simp only [← Bool.or_assoc, h1, h2, Bool.true_or]
          · rw [ih (Nat.le_of_succ_le h), Bool.or_assoc, Bool.or_assoc]

theorem sourcesReady_eq :
    ((Cpp.sourcesReady input e).1 && (Cpp.sourcesReady input e).2) =
      ((e.src1Loaded || anyBit executeUnitNum (phyExefbCmp input e.rs1Phy)) &&
        (e.src2Loaded || anyBit executeUnitNum (phyExefbCmp input e.rs2Phy))) := by
  have hall : ∀ phyId, anyBit executeUnitNum (phyExefbCmp input phyId) =
      answeredFrom input phyId executeUnitNum := by
    intro phyId
    rw [anyBit, answeredFrom, Nat.sub_self, List.range_eq_range']
  rw [Cpp.sourcesReady, hall, hall]
  split
  · exact readyLoop_eq input e (Nat.le_refl _) _ _
  · rename_i hloaded
    simp only [Bool.or_eq_true, Bool.not_eq_true', not_or, Bool.not_eq_false] at hloaded
    simp [hloaded.1, hloaded.2]

end Ready

/-! ## Free units -/

section Units

variable {available : OpUnit → Nat → Bool} {u : OpUnit}

theorem unitFound_isSome :
    (Cpp.unitFound available u).isSome = decide (countOne (unitNum u) (available u) ≠ 0) := by
  rw [Bool.eq_iff_iff, Cpp.unitFound, List.find?_isSome, decide_eq_true_iff, countOne_eq_rank,
    rank, kept, ne_eq, List.length_eq_zero_iff, List.filter_eq_nil_iff]
  simp only [not_forall, exists_prop, not_not]

/-- Taking the unit that was found leaves one less. -/
theorem countOne_takeUnit {index : Nat} (h : Cpp.unitFound available u = some index) :
    countOne (unitNum u) (Cpp.takeUnit available u index u) + 1 =
      countOne (unitNum u) (available u) := by
  have hlt : index < unitNum u := List.mem_range.1 (List.mem_of_find?_eq_some h)
  have hfree : available u index = true := List.find?_some h
  refine countOne_clear hlt hfree (if_pos ⟨rfl, rfl⟩) fun i hi => ?_
  rw [Cpp.takeUnit, if_neg fun h => hi h.2]

theorem countOne_takeUnit_other {v : OpUnit} (hv : v ≠ u) (index : Nat) :
    countOne (unitNum v) (Cpp.takeUnit available u index v) =
      countOne (unitNum v) (available v) := by
  refine countOne_congr fun i _ => ?_
  rw [Cpp.takeUnit, if_neg fun h => hv h.1]

end Units

/-! ## The scan of the hardware -/

section Scan

variable {s : IssueQueueState} {input : IssueQueueInput}

theorem invalid_plain {k : Nat} (hplain : isSerialising (s.buffer k) = false)
    (hexit : (issueScan s input k).needToExit = false) :
    bufferItemInvalid s input k =
      (itemReady s input (issueScan s input k) k && decide (curOutputIndex s input k < issueWidth) &&
        (decide ((s.buffer k).opUnit ≠ .lsu) || !(issueScan s input k).hasLsuOp)) := by
  have hplain' : isSerialising (bufferFeedback s input k) = false := hplain
  cases k with
  | zero =>
      have hwidth : decide (curOutputIndex s input 0 < issueWidth) = true :=
        decide_eq_true (by decide : 0 < issueWidth)
      have hlsu : (issueScan s input 0).hasLsuOp = false := rfl
      rw [bufferItemInvalid, itemInvalid, hplain', hwidth, hlsu]
      simp only [Bool.not_false, Bool.true_or, Bool.or_true, Bool.and_true]
  | succ k =>
      rw [bufferItemInvalid, itemInvalid, hplain', hexit, Bool.not_false, Bool.and_true,
        Bool.and_true]
      rfl

/-- Nothing is issued behind a CSR instruction or `mret`. -/
theorem invalid_exited {k j : Nat} (h : (issueScan s input (k + 1)).needToExit = true)
    (hj : k < j) : bufferItemInvalid s input j = false := by
  have hstays : ∀ m, (issueScan s input (k + 1 + m)).needToExit = true := by
    intro m
    induction m with
    | zero => exact h
    | succ m ih =>
        rw [← Nat.add_assoc, issueScan, scanStep, ih, Bool.or_true]
  obtain ⟨m, rfl⟩ := Nat.exists_eq_add_of_lt hj
  have hat := hstays m
  rw [Nat.add_right_comm] at hat
  rw [bufferItemInvalid, itemInvalid, hat]
  simp only [Bool.not_true, Bool.and_false, Bool.false_and]

/-- Nothing is issued when all output ports are taken. -/
theorem invalid_full {k j : Nat} (h : rank (bufferItemInvalid s input) k = issueWidth)
    (hj : k ≤ j) : bufferItemInvalid s input j = false := by
  rw [Bool.eq_false_iff]
  intro hinv
  have hlt := invalid_output hinv
  have hmono := @rank_mono (bufferItemInvalid s input) _ _ hj
  rw [(outputIndex_eq j).1] at hlt
  omega

theorem invalid_serialising {k : Nat} (hserial : isSerialising (s.buffer k) = true)
    (hnot : k = 0 → input.commitFeedbackPack.nextHandleRobId ≠ (s.buffer k).robId) :
    bufferItemInvalid s input k = false := by
  have hserial' : isSerialising (bufferFeedback s input k) = true := hserial
  cases k with
  | zero =>
      have hid : decide (input.commitFeedbackPack.nextHandleRobId =
          (bufferFeedback s input 0).robId) = false := decide_eq_false (hnot rfl)
      rw [bufferItemInvalid, itemInvalid, hserial', hid]
      simp only [Bool.not_true, Bool.and_false, Bool.or_self]
  | succ k =>
      rw [bufferItemInvalid, itemInvalid, hserial', Bool.not_true, Bool.and_false]

end Scan

/-! ## The loop follows the scan -/

section Follow

variable (s : IssueQueueState) (input : IssueQueueInput) (rptr : Nat)

/-- The ids in the ring of the first issued positions. -/
def issuedIds (n : Nat) : List Nat :=
  (kept (bufferItemInvalid s input) n).map fun k => slot issueQueueSize (rptr + k)

/-- The variables of the loop before position `k` are what the scan leaves to it. -/
structure Follows (k : Nat) (st : Cpp.Selection) : Prop where
  list : st.itemIdList = issuedIds s input rptr k
  lsu : st.hasLsuOp = (issueScan s input k).hasLsuOp
  noCsr : st.hasCsrOp = false
  noMret : st.hasMretOp = false
  units : ∀ u, countOne (unitNum u) (st.unitAvailable u) = (issueScan s input k).remainNum u
  goesOn : (issueScan s input k).needToExit = false

/-- What the two sides are compared under. -/
structure Comparable (wptr : Nat) (c : Cpp.IssueState) : Prop where
  same : SameIssueQueue s rptr wptr c
  commit : CommitNamesOldest s input.commitFeedbackPack
  noFence : NoFence s
  ready : ∀ k, k < s.wptr →
    ((bufferFeedback s input k).src1Loaded && (bufferFeedback s input k).src2Loaded) =
      ((Cpp.sourcesReady input (s.buffer k)).1 && (Cpp.sourcesReady input (s.buffer k)).2)
  mayIssue : (!s.isInstWaiting || instWaitingOk s input) = true

variable {s input rptr} {wptr k : Nat} {st : Cpp.Selection} {c : Cpp.IssueState}

theorem length_issuedIds (n : Nat) :
    (issuedIds s input rptr n).length = rank (bufferItemInvalid s input) n := List.length_map _

theorem issuedIds_succ (n : Nat) :
    issuedIds s input rptr (n + 1) =
      if bufferItemInvalid s input n then
        issuedIds s input rptr n ++ [slot issueQueueSize (rptr + n)]
      else issuedIds s input rptr n := by
  rw [issuedIds, kept_succ, List.map_append]
  split
  · rfl
  · exact List.append_nil _

/-- The positions behind are not issued. -/
theorem issuedIds_rest {m n : Nat} (hm : m ≤ n)
    (h : ∀ j, m ≤ j → bufferItemInvalid s input j = false) :
    issuedIds s input rptr n = issuedIds s input rptr m := by
  rw [issuedIds, kept_of_le hm, issuedIds]
  intro j hj
  by_contra hlt
  rw [h j (by omega)] at hj
  exact Bool.noConfusion hj

theorem follows_start : Follows s input rptr 0 (Cpp.selectStart input) :=
  ⟨rfl, rfl, rfl, rfl, fun _ => rfl, rfl⟩

theorem selectFence_false (h : Comparable s input rptr wptr c) (hk : k < s.wptr) :
    Cpp.selectFence input st (s.buffer k) = false := by
  rw [Cpp.selectFence, decide_eq_false (h.noFence k hk), Bool.false_and]

theorem itemReady_eq (h : Comparable s input rptr wptr c) (hk : k < s.wptr)
    (hf : Follows s input rptr k st) :
    itemReady s input (issueScan s input k) k =
      ((Cpp.sourcesReady input (s.buffer k)).1 && (Cpp.sourcesReady input (s.buffer k)).2 &&
        (Cpp.unitFound st.unitAvailable (s.buffer k).opUnit).isSome) := by
  have hnoFence : fenceTrigger s input k = false := by
    have hop : decide ((bufferFeedback s input k).op = .fence) = false :=
      decide_eq_false (h.noFence k hk)
    cases k with
    | zero => rw [fenceTrigger, hop, Bool.false_and]
    | succ k => exact hop
  have hunit : (issueScan s input k).remainNum (bufferFeedback s input k).opUnit =
      countOne (unitNum (s.buffer k).opUnit) (st.unitAvailable (s.buffer k).opUnit) :=
    (hf.units _).symm
  rw [itemReady, h.ready k hk, hnoFence, h.mayIssue, decide_eq_true hk, hunit, unitFound_isSome]
  simp only [Bool.true_and, Bool.and_true, Bool.not_false]

/-- An operation that may go out of order is taken on both sides or on none. -/
theorem takes_plain (h : Comparable s input rptr wptr c) (hk : k < s.wptr)
    (hf : Follows s input rptr k st) (hplain : isSerialising (s.buffer k) = false)
    (hwidth : st.itemIdList.length < issueWidth) :
    Cpp.selectTakes input st (s.buffer k) = bufferItemInvalid s input k := by
  have hport : decide (curOutputIndex s input k < issueWidth) = true := by
    rw [hf.list, length_issuedIds, ← (outputIndex_eq k).1] at hwidth
    exact decide_eq_true hwidth
  rw [invalid_plain hplain hf.goesOn, itemReady_eq h hk hf, hport, Bool.and_true,
    Cpp.selectTakes, hf.noCsr, hf.noMret, selectFence_false h hk, hf.lsu]
  simp only [Bool.not_false, Bool.true_or, Bool.and_true]
  rw [Bool.or_comm (decide _)]

theorem units_next (hf : Follows s input rptr k st)
    (htakes : Cpp.selectTakes input st (s.buffer k) = bufferItemInvalid s input k) (id : Nat)
    (u : OpUnit) :
    countOne (unitNum u) ((Cpp.selectNext input st id (s.buffer k)).unitAvailable u) =
      (issueScan s input (k + 1)).remainNum u := by
  have hscan : (issueScan s input (k + 1)).remainNum u =
      if (issueScan s input k).remainNum u = 0 then 0
      else (issueScan s input k).remainNum u -
        if decide ((s.buffer k).opUnit = u) && bufferItemInvalid s input k then 1 else 0 := rfl
  rw [hscan, ← hf.units u, ← htakes]
  simp only [Cpp.selectNext]
  cases hcase : Cpp.selectTakes input st (s.buffer k) with
  | false =>
      simp only [Bool.and_false, Bool.false_eq_true, if_false, Nat.sub_zero]
      split <;> omega
  | true =>
      rw [if_pos rfl, Bool.and_true]
      have hfound : (Cpp.unitFound st.unitAvailable (s.buffer k).opUnit).isSome = true := by
        simp only [Cpp.selectTakes, Bool.and_eq_true] at hcase
        exact hcase.1.1.1.1.2
      obtain ⟨index, hindex⟩ := Option.isSome_iff_exists.1 hfound
      rw [hindex, Option.getD_some]
      by_cases hu : u = (s.buffer k).opUnit
      · subst hu
        have htake := countOne_takeUnit hindex
        rw [decide_eq_true rfl, if_pos rfl]
        split <;> omega
      · rw [countOne_takeUnit_other hu, decide_eq_false (Ne.symm hu), if_neg Bool.false_ne_true]
        split <;> omega

theorem follows_next (h : Comparable s input rptr wptr c) (hk : k < s.wptr)
    (hf : Follows s input rptr k st) (hplain : isSerialising (s.buffer k) = false)
    (hwidth : st.itemIdList.length < issueWidth) :
    Follows s input rptr (k + 1)
      (Cpp.selectNext input st (slot issueQueueSize (rptr + k)) (s.buffer k)) := by
  have htakes := takes_plain h hk hf hplain hwidth
  obtain ⟨hcsr, hmret⟩ : decide ((s.buffer k).opUnit = .csr) = false ∧
      decide ((s.buffer k).op = .mret) = false := Bool.or_eq_false_iff.1 hplain
  refine ⟨?_, ?_, ?_, ?_, units_next hf htakes _, ?_⟩
  · rw [issuedIds_succ, ← htakes, ← hf.list]
    rfl
  · rw [issueScan, scanStep, ← hf.lsu]
    exact Bool.or_comm _ _
  · show (st.hasCsrOp || _) = false
    rw [hf.noCsr, hcsr, Bool.or_false]
  · show (st.hasMretOp || _) = false
    rw [hf.noMret, hmret, Bool.or_false]
  · rw [issueScan, scanStep, hf.goesOn, Bool.or_false]
    exact hplain

theorem selectTurn_eq (h : Comparable s input rptr wptr c) (hk : k < s.wptr) :
    Cpp.selectTurn input c.issueQ st (slot issueQueueSize (rptr + k)) =
      if isSerialising (s.buffer k) && !st.itemIdList.isEmpty then some (st, false)
      else if isSerialising (s.buffer k) &&
          decide (input.commitFeedbackPack.nextHandleRobId ≠ (s.buffer k).robId) then
        some (st, false)
      else some (Cpp.selectNext input st (slot issueQueueSize (rptr + k)) (s.buffer k),
        !isSerialising (s.buffer k)) := by
  have hvalid : c.issueQ.checkIdValid (slot issueQueueSize (rptr + k)) = true := by
    rw [h.same.ring]
    refine (Cpp.checkIdValid_iff h.same.wellFormed (slot_lt (by decide))).2 (live_slot ?_)
    rw [h.same.length]
    exact hk
  rw [Cpp.selectTurn, h.same.item k hk, hvalid, h.commit.enable, selectFence_false h hk]
  simp only [Bool.not_true, Bool.false_eq_true, if_false, Bool.or_false]

/-- A CSR instruction or `mret` ends the loop, and the scan issues nothing more. -/
theorem selectTurn_serialising (h : Comparable s input rptr wptr c) (hk : k < s.wptr)
    (hf : Follows s input rptr k st) (hserial : isSerialising (s.buffer k) = true) :
    ∃ st', Cpp.selectTurn input c.issueQ st (slot issueQueueSize (rptr + k)) = some (st', false) ∧
      st'.itemIdList = issuedIds s input rptr s.wptr := by
  have hexit : (issueScan s input (k + 1)).needToExit = true := by
    have hserial' : isSerialising (bufferFeedback s input k) = true := hserial
    rw [issueScan, scanStep, hserial', Bool.true_or]
  have hlast : issuedIds s input rptr s.wptr = issuedIds s input rptr (k + 1) :=
    issuedIds_rest hk fun j hj => invalid_exited hexit hj
  have hnot : bufferItemInvalid s input k = false →
      st.itemIdList = issuedIds s input rptr s.wptr := by
    intro hinv
    rw [hlast, issuedIds_succ, hinv, if_neg Bool.false_ne_true, hf.list]
  rw [selectTurn_eq h hk, hserial]
  simp only [Bool.true_and]
  split
  · rename_i hsome
    refine ⟨st, rfl, hnot (invalid_serialising hserial fun hzero => ?_)⟩
    subst hzero
    rw [hf.list] at hsome
    exact absurd hsome Bool.false_ne_true
  · split
    · rename_i hid
      exact ⟨st, rfl, hnot (invalid_serialising hserial fun _ => of_decide_eq_true hid)⟩
    · rename_i hid
      have hnext : input.commitFeedbackPack.nextHandleRobId = (s.buffer k).robId := by
        by_contra hne
        exact hid (decide_eq_true hne)
      obtain ⟨rfl, hvalid⟩ := h.commit.oldest k hk hserial hnext
      refine ⟨_, rfl, ?_⟩
      have hserial' : isSerialising (bufferFeedback s input 0) = true := hserial
      have htakes : Cpp.selectTakes input st (s.buffer 0) = bufferItemInvalid s input 0 := by
        have hid' : decide (input.commitFeedbackPack.nextHandleRobId =
            (bufferFeedback s input 0).robId) = true := decide_eq_true hnext
        have hlsu : st.hasLsuOp = false := hf.lsu
        rw [bufferItemInvalid, itemInvalid, itemReady_eq h hk hf, hvalid, hid', Cpp.selectTakes,
          hf.noCsr, hf.noMret, hlsu, selectFence_false h hk]
        simp only [Bool.not_false, Bool.true_or, Bool.and_true, Bool.or_true]
      rw [hlast, issuedIds_succ, ← htakes, ← hf.list]
      rfl

/-- From position `k` on, with enough turns. -/
theorem selectLoop_eq (h : Comparable s input rptr wptr c) :
    ∀ (turns k : Nat) (st : Cpp.Selection), k < s.wptr → s.wptr ≤ k + turns →
      Follows s input rptr k st → st.itemIdList.length < issueWidth →
      ∃ st', Cpp.selectLoop input c.issueQ (slot issueQueueSize rptr) turns
          (slot issueQueueSize (rptr + k)) st = some st' ∧
        st'.itemIdList = issuedIds s input rptr s.wptr := by
  intro turns
  induction turns with
  | zero =>
      intro k st hk hturns
      omega
  | succ turns ih =>
      intro k st hk hturns hf hwidth
      cases hserial : isSerialising (s.buffer k) with
      | true =>
          obtain ⟨st', hturn, hlist⟩ := selectTurn_serialising h hk hf hserial
          refine ⟨st', ?_, hlist⟩
          rw [Cpp.selectLoop, hturn]
      | false =>
          have hf' := follows_next h hk hf hserial hwidth
          have hturn := @selectTurn_eq _ _ _ _ _ st _ h hk
          rw [hserial] at hturn
          simp only [Bool.false_and, Bool.false_eq_true, if_false, Bool.not_false] at hturn
          have hlive : k < occupancy issueQueueSize rptr wptr := by
            rw [h.same.length]
            exact hk
          obtain ⟨inUse, hnext, hmore⟩ := Cpp.ring_getNextId h.same.wellFormed hlive
          rw [h.same.length] at hmore
          rw [Cpp.selectLoop, hturn]
          simp only [h.same.ring, hnext, hmore]
          generalize Cpp.selectNext input st (slot issueQueueSize (rptr + k)) (s.buffer k) = next at *
          split
          · rename_i hgo
            obtain ⟨hlt, hfree⟩ := Bool.and_eq_true_iff.1 hgo
            exact ih (k + 1) next (of_decide_eq_true hlt) (by omega) hf' (of_decide_eq_true hfree)
          · rename_i hstop
            refine ⟨next, rfl, ?_⟩
            rw [hf'.list]
            rcases Nat.lt_or_ge (k + 1) s.wptr with hlt | hge
            · -- all output ports are taken
              rw [decide_eq_true hlt, Bool.true_and, decide_eq_true_eq, hf'.list,
                length_issuedIds] at hstop
              have hle := (@outputIndex_eq s input (k + 1)).2
              rw [(outputIndex_eq (k + 1)).1] at hle
              exact (issuedIds_rest hlt.le fun j hj => invalid_full (by omega) hj).symm
            · rw [show s.wptr = k + 1 by omega]

end Follow

/-! ## The selection of a cycle -/

/-- The operations issued by the hardware: what the output ports show, in the order of the
queue, within the limits, and the same that the C++ model lists. -/
structure SelectionAgrees (s : IssueQueueState) (input : IssueQueueInput) (rptr : Nat)
    (c : Cpp.IssueState) : Prop where
  same : Cpp.itemIdList input c =
    some ((issuedAt s input).map fun k => slot issueQueueSize (rptr + k))
  valid : ∀ i, iqIssueDataValid s input i = decide (i < (issuedAt s input).length)
  ports : (List.range (issuedAt s input).length).map (iqIssueData s input) =
    (issuedAt s input).map (bufferFeedback s input)
  width : (issuedAt s input).length ≤ issueWidth
  oldestFirst : (issuedAt s input).Pairwise (· < ·)
  ready : ∀ k ∈ issuedAt s input,
    (bufferFeedback s input k).src1Loaded = true ∧ (bufferFeedback s input k).src2Loaded = true
  lsuInOrder : ∀ k ∈ issuedAt s input, (s.buffer k).opUnit = .lsu →
    ∀ j, j < k → (s.buffer j).opUnit ≠ .lsu
  serialisingLast : ∀ k ∈ issuedAt s input, ∀ j, j < k → isSerialising (s.buffer j) = false
  units : ∀ u, ((issuedAt s input).filter fun k => decide ((s.buffer k).opUnit = u)).length ≤
    countOne (unitNum u) fun i => !input.issueFifoFull u i

section Limits

variable {s : IssueQueueState} {input : IssueQueueInput} {k : Nat}

theorem mem_issuedAt (h : k ∈ issuedAt s input) : bufferItemInvalid s input k = true :=
  (List.mem_filter.1 h).2

theorem hasLsuOp_of_older {j : Nat} (hj : (s.buffer j).opUnit = .lsu) (hjk : j < k) :
    (issueScan s input k).hasLsuOp = true := by
  induction k with
  | zero => omega
  | succ k ih =>
      rw [issueScan, scanStep]
      rcases Nat.lt_succ_iff_lt_or_eq.1 hjk with hlt | rfl
      · rw [ih hlt, Bool.or_true]
      · have hunit : (bufferFeedback s input j).opUnit = .lsu := hj
        rw [hunit, decide_eq_true rfl, Bool.true_or]

theorem lsuInOrder (h : k ∈ issuedAt s input) (hlsu : (s.buffer k).opUnit = .lsu) :
    ∀ j, j < k → (s.buffer j).opUnit ≠ .lsu := by
  intro j hj holder
  have hinv := mem_issuedAt h
  have hunit : (bufferFeedback s input k).opUnit = .lsu := hlsu
  have hseen := @hasLsuOp_of_older s input k j holder hj
  cases k with
  | zero => omega
  | succ k =>
      rw [bufferItemInvalid, itemInvalid, hseen, hunit] at hinv
      simp at hinv

theorem serialisingLast (h : k ∈ issuedAt s input) :
    ∀ j, j < k → isSerialising (s.buffer j) = false := by
  intro j hj
  by_contra hserial
  rw [Bool.not_eq_false] at hserial
  have hexit : (issueScan s input (j + 1)).needToExit = true := by
    have hserial' : isSerialising (bufferFeedback s input j) = true := hserial
    rw [issueScan, scanStep, hserial', Bool.true_or]
  have hinv := mem_issuedAt h
  rw [invalid_exited hexit hj] at hinv
  exact Bool.noConfusion hinv

theorem unitsFree (s : IssueQueueState) (input : IssueQueueInput) (u : OpUnit) :
    ((issuedAt s input).filter fun k => decide ((s.buffer k).opUnit = u)).length ≤
      countOne (unitNum u) fun i => !input.issueFifoFull u i := by
  have hadd := remainNum_add s input u s.wptr
  have hrank : ((issuedAt s input).filter fun k => decide ((s.buffer k).opUnit = u)).length =
      rank (issuedOf s input u) s.wptr := by
    rw [issuedAt, kept, List.filter_filter, rank, kept]
    congr 1
    exact List.filter_congr fun i _ => Bool.and_comm _ _
  omega

end Limits

/-- Nothing is issued while a CSR instruction or `mret` is waited for. -/
theorem issuedAt_waiting {s : IssueQueueState} {input : IssueQueueInput}
    (h : (!s.isInstWaiting || instWaitingOk s input) = false) : issuedAt s input = [] := by
  refine List.filter_eq_nil_iff.2 fun k _ hinv => ?_
  have hready := invalid_ready hinv
  rw [itemReady, h, Bool.and_false] at hready
  exact Bool.noConfusion hready

theorem itemIdList_eq {s : IssueQueueState} {input : IssueQueueInput} {rptr wptr : Nat}
    {c : Cpp.IssueState} (hsame : SameIssueQueue s rptr wptr c)
    (hcommit : CommitNamesOldest s input.commitFeedbackPack) (hfence : NoFence s)
    (hready : ∀ k, k < s.wptr →
      ((bufferFeedback s input k).src1Loaded && (bufferFeedback s input k).src2Loaded) =
        ((Cpp.sourcesReady input (s.buffer k)).1 && (Cpp.sourcesReady input (s.buffer k)).2)) :
    Cpp.itemIdList input c = some (issuedIds s input rptr s.wptr) := by
  have hgate : (!c.isInstWaiting || Cpp.issueInstWaitingOk input c) =
      (!s.isInstWaiting || instWaitingOk s input) := by
    rw [hsame.isInstWaiting]
    cases hwaiting : s.isInstWaiting with
    | false => rfl
    | true =>
        rw [Cpp.issueInstWaitingOk, hsame.instWaitingRobId hwaiting]
        rfl
  rw [Cpp.itemIdList, hcommit.noFlush, Bool.and_false, if_neg Bool.false_ne_true, hgate]
  cases hmay : !s.isInstWaiting || instWaitingOk s input with
  | false =>
      have hnone := issuedAt_waiting hmay
      rw [issuedAt] at hnone
      rw [if_neg Bool.false_ne_true, issuedIds, hnone]
      rfl
  | true =>
      have hempty := Cpp.isEmpty_iff hsame.wellFormed
      have hzero := occupancy_eq_zero_iff hsame.wellFormed.rptr_lt hsame.wellFormed.wptr_lt
      rw [hsame.length] at hzero
      rw [if_pos rfl, Cpp.Rob.getFrontId, hsame.ring]
      rcases Nat.eq_zero_or_pos s.wptr with h0 | hpos
      · rw [hempty.2 (hzero.1 h0), h0]
        rfl
      · have hlive : (Cpp.ringOf issueQueueSize rptr wptr).isEmpty = false := by
          rw [Bool.eq_false_iff]
          intro he
          have := hzero.2 (hempty.1 he)
          omega
        have hsize : s.wptr ≤ 0 + issueQueueSize := by
          rw [← hsame.length, Nat.zero_add]
          exact hsame.wellFormed.fits
        obtain ⟨st, hloop, hlist⟩ := selectLoop_eq ⟨hsame, hcommit, hfence, hready, hmay⟩
          issueQueueSize 0 _ hpos hsize follows_start (by decide : 0 < issueWidth)
        rw [hlive, ← hlist]
        exact congrArg (Option.map Cpp.Selection.itemIdList) hloop

/-- In every state a run of the issue stage reaches, the hardware issues what the C++ model
lists, provided that write-back repeats and commit names the oldest. -/
theorem issue_selection_agrees {buffer : Nat → IssueQueueItem} {inputs : List IssueStageCycle}
    {s : IssueStageState} (hrun : s = run issueStageNext (issueStageReset buffer) inputs)
    {x : IssueStageCycle} (hwb : WbRepeats s x) (hfence : NoFence s.queue)
    (hcommit : CommitNamesOldest s.queue x.input.commitFeedbackPack) {rptr wptr : Nat}
    {c : Cpp.IssueState} (hsame : SameIssueQueue s.queue rptr wptr c) :
    SelectionAgrees s.queue (issueStageInput s.queue x) rptr c := by
  have hok : IssueStageOk s := hrun ▸ issueStageOk_run buffer inputs
  have hready : ∀ k, k < s.queue.wptr →
      ((bufferFeedback s.queue (issueStageInput s.queue x) k).src1Loaded &&
          (bufferFeedback s.queue (issueStageInput s.queue x) k).src2Loaded) =
        ((Cpp.sourcesReady (issueStageInput s.queue x) (s.queue.buffer k)).1 &&
          (Cpp.sourcesReady (issueStageInput s.queue x) (s.queue.buffer k)).2) := by
    intro k hk
    have hmem : s.queue.buffer k ∈ issueList s.queue :=
      List.mem_map.2 ⟨k, List.mem_range.2 hk, rfl⟩
    obtain ⟨hmissed1, hmissed2⟩ := hok.missed _ hmem
    rw [sourcesReady_eq]
    exact congr (congrArg and (feedbackLoaded_execute hwb hmissed1))
      (feedbackLoaded_execute hwb hmissed2)
  exact {
    same := itemIdList_eq hsame hcommit hfence hready
    valid := iqIssueDataValid_eq hok.wellFormed
    ports := ports_issued hok.wellFormed
    width := issued_le_width
    oldestFirst := List.Pairwise.filter _ List.pairwise_lt_range
    ready := fun k hk => by
      have hitem := invalid_ready (mem_issuedAt hk)
      simp only [itemReady, Bool.and_eq_true] at hitem
      exact hitem.1.1.1.2
    lsuInOrder := fun _ => lsuInOrder
    serialisingLast := fun _ => serialisingLast
    units := unitsFree s.queue _ }

/-- The C++ queue whose front stays where reset puts it. -/
theorem sameIssueQueue_ofRtl {s : IssueQueueState} (h : IqWellFormed s) :
    SameIssueQueue s 0 s.wptr (Cpp.issueOfRtl s) := by
  have hle : s.wptr ≤ 16 := h
  have hocc : occupancy issueQueueSize 0 s.wptr = s.wptr := by
    simp only [occupancy, issueQueueSize]
    omega
  refine ⟨⟨by decide, by simp only [issueQueueSize]; omega, by rw [hocc]; exact h⟩, rfl, hocc,
    fun k hk => ?_, rfl, fun _ => rfl⟩
  rw [Nat.zero_add, slot, Nat.mod_eq_of_lt (Nat.lt_of_lt_of_le hk h)]
  rfl

/-! ### Concrete cycles -/

def waitingAdd (robId phyId : Nat) : IssueQueueItem :=
  { readyAdd robId with rs1NeedMap := true, rs1Phy := phyId, src1Loaded := false }

def readyCsr (robId : Nat) : IssueQueueItem :=
  { readyAdd robId with op := .csrrw, opUnit := .csr }

/-- Commit is enabled and names an instruction. -/
def naming (robId : Nat) (valid : Bool) : CommitFeedbackPack :=
  ⟨true, valid, robId, false, 0, false, fun _ => 0, fun _ => false, false, false, 0⟩

def noAnswer : FeedbackChannel := ⟨false, 0, 0⟩

/-- A cycle that offers `ops`, with one execute and one write-back channel. -/
def stageCycle (ops : List IssueQueueItem) (execute wb : FeedbackChannel)
    (fb : CommitFeedbackPack) : IssueStageCycle where
  phyf := phyRegfileReset
  readregPort := fun i => ops.getD i tItemEmpty
  lastIndex := 0
  input :=
    { pushCycle [] with
      executeFeedbackPack := fun j => if j = 0 then execute else noAnswer
      wbFeedbackPack := fun j => if j = 0 then wb else noAnswer
      commitFeedbackPack := fb }

/-- After one cycle that offers `ops`. -/
def queueWith (ops : List IssueQueueItem) : IssueStageState :=
  run issueStageNext (issueStageReset fun _ => tItemEmpty)
    [stageCycle ops noAnswer noAnswer (naming 0 false)]

/-- An addition whose source is answered in this cycle, and a ready one behind it. -/
theorem issue_selection_agrees_answered :
    let x := stageCycle [] ⟨true, 40, 9⟩ noAnswer (naming 5 true)
    let s := queueWith [waitingAdd 5 40, readyAdd 6]
    issuedAt s.queue (issueStageInput s.queue x) = [0, 1] ∧
      SelectionAgrees s.queue (issueStageInput s.queue x) 0 (Cpp.issueOfRtl s.queue) := by
  intro x s
  have hok : IssueStageOk s := issueStageOk_run _ _
  refine ⟨by decide +kernel, issue_selection_agrees rfl (fun j _ h => ?_) (by decide +kernel)
    ⟨rfl, rfl, by decide +kernel⟩ (sameIssueQueue_ofRtl hok.wellFormed)⟩
  have hidle : (x.input.wbFeedbackPack j).enable = false := by
    show (if j = 0 then noAnswer else noAnswer).enable = false
    rw [ite_self]
    rfl
  rw [hidle] at h
  exact Bool.noConfusion h

/-- A source that only write-back answers, a CSR instruction whose name is not valid, one
that is named behind a waiting addition, commit without `enable`, and a flush. -/
theorem selection_differs :
    let agrees := fun ops x => SelectionAgrees (queueWith ops).queue
      (issueStageInput (queueWith ops).queue x) 0 (Cpp.issueOfRtl (queueWith ops).queue)
    ¬agrees [waitingAdd 5 40] (stageCycle [] noAnswer ⟨true, 40, 9⟩ (naming 5 true)) ∧
      ¬agrees [readyCsr 5] (stageCycle [] noAnswer noAnswer (naming 5 false)) ∧
      ¬agrees [waitingAdd 5 40, readyCsr 6] (stageCycle [] noAnswer noAnswer (naming 6 true)) ∧
      ¬agrees [readyAdd 5] (stageCycle [] noAnswer noAnswer { naming 5 true with enable := false }) ∧
      ¬agrees [readyAdd 5] (stageCycle [] noAnswer noAnswer { naming 5 true with flush := true }) := by
  refine ⟨fun h => absurd h.same ?_, fun h => absurd h.same ?_, fun h => absurd h.same ?_,
    fun h => absurd h.same ?_, fun h => absurd h.same ?_⟩
  all_goals decide +kernel

end DreamCore.Proofs
