import DreamCore.Lib.Clocked
import DreamCore.Lib.Compaction
import DreamCore.Rtl.IssueQueue

/-!
# The issue queue is a list

The entries below the write pointer, oldest first.  A cycle removes the issued ones,
hands the feedback to the others and appends the accepted inputs; the output ports show
the issued ones in order.
-/

namespace DreamCore.Proofs

open DreamCore.Clocked DreamCore.Compaction DreamCore.Rtl

/-- The entries in the queue, oldest first. -/
def issueList (s : IssueQueueState) : List IssueQueueItem := (List.range s.wptr).map s.buffer

/-! ## What one cycle does to the list -/

section Cycle

variable (s : IssueQueueState) (input : IssueQueueInput)

/-- The positions that are issued. -/
def issuedAt : List Nat := kept (bufferItemInvalid s input) s.wptr

def issuedItems : List IssueQueueItem := (issuedAt s input).map (bufferFeedback s input)

/-- The other entries, with their feedback. -/
def waitingItems : List IssueQueueItem :=
  (kept (fun i => !bufferItemInvalid s input i) s.wptr).map (bufferFeedback s input)

/-- The inputs on the leading channels that are valid and enabled. -/
def acceptedItems : List IssueQueueItem :=
  if input.issueIqPush then
    ((List.range readregWidth).takeWhile fun i =>
      iqIssueDataChannelEnable s i && input.issueIqDataValid i).map input.issueIqData
  else []

end Cycle

/-- The pointer is inside the array. -/
def IqWellFormed (s : IssueQueueState) : Prop := s.wptr ≤ issueQueueSize

section Facts

variable {s : IssueQueueState} {input : IssueQueueInput}

theorem remainSpace_eq (h : IqWellFormed s) : remainSpace s = issueQueueSize - s.wptr := by
  have hle : s.wptr ≤ 16 := h
  unfold remainSpace iqIssueFull
  by_cases hfull : s.wptr = 16
  · simp [hfull]
  · have hdiv : s.wptr / issueQueueSize % 2 = 0 := by
      simp only [issueQueueSize]
      omega
    have hmod : s.wptr % issueQueueSize = s.wptr :=
      Nat.mod_eq_of_lt (Nat.lt_of_le_of_ne h hfull)
    rw [hdiv, hmod]
    rfl

theorem channelEnable_eq (h : IqWellFormed s) (i : Nat) :
    iqIssueDataChannelEnable s i = decide (i < issueQueueSize - s.wptr) := by
  rw [iqIssueDataChannelEnable, remainSpace_eq h, Nat.testBit_two_pow_sub_one]

theorem invalid_ready {i : Nat} (h : bufferItemInvalid s input i = true) :
    itemReady s input (issueScan s input i) i = true := by
  unfold bufferItemInvalid at h
  cases i with
  | zero =>
      rw [itemInvalid, Bool.and_eq_true] at h
      exact h.1
  | succ i =>
      rw [itemInvalid] at h
      simp only [Bool.and_eq_true] at h
      exact h.1.1.1.1

/-- Only entries of the list are issued. -/
theorem invalid_lt {i : Nat} (h : bufferItemInvalid s input i = true) : i < s.wptr := by
  have hready := invalid_ready h
  unfold itemReady at hready
  simp only [Bool.and_eq_true, decide_eq_true_eq] at hready
  exact hready.1.1.1.1

theorem invalid_output {i : Nat} (h : bufferItemInvalid s input i = true) :
    curOutputIndex s input i < issueWidth := by
  cases i with
  | zero => exact (by decide : 0 < issueWidth)
  | succ i =>
      rw [bufferItemInvalid, itemInvalid] at h
      simp only [Bool.and_eq_true, decide_eq_true_eq] at h
      exact h.1.1.2

/-- The output index counts the issued entries before. -/
theorem outputIndex_eq (i : Nat) :
    curOutputIndex s input i = rank (bufferItemInvalid s input) i ∧
      curOutputIndex s input i ≤ issueWidth := by
  induction i with
  | zero => exact ⟨rfl, Nat.zero_le _⟩
  | succ i ih =>
      obtain ⟨heq, hle⟩ := ih
      have hstep : curOutputIndex s input (i + 1) =
          if curOutputIndex s input i = issueWidth then curOutputIndex s input i
          else curOutputIndex s input i + (bufferItemInvalid s input i).toNat := rfl
      rw [hstep, rank_succ, ← heq]
      cases hinv : bufferItemInvalid s input i with
      | false =>
          simp only [Bool.toNat_false, Nat.add_zero, ite_self, Bool.false_eq_true, if_false]
          exact ⟨trivial, hle⟩
      | true =>
          have hlt := invalid_output hinv
          rw [if_neg (by omega), Bool.toNat_true, if_pos rfl]
          exact ⟨rfl, hlt⟩

theorem issuedAt_eq (h : IqWellFormed s) :
    issuedAt s input = kept (bufferItemInvalid s input) issueQueueSize :=
  (kept_of_le h fun _ hinv => invalid_lt hinv).symm

theorem issued_le_width : (issuedAt s input).length ≤ issueWidth := by
  have hrank : curOutputIndex s input s.wptr = rank (bufferItemInvalid s input) s.wptr ∧
      curOutputIndex s input s.wptr ≤ issueWidth := outputIndex_eq s.wptr
  rw [hrank.1] at hrank
  exact hrank.2

theorem issued_le_list : (issuedAt s input).length ≤ s.wptr :=
  rank_le (bufferItemInvalid s input) s.wptr

/-! ### The output ports -/

theorem outputPortMapCmp_iff {i j : Nat} : outputPortMapCmp s input i j = true ↔
    bufferItemInvalid s input j = true ∧ rank (bufferItemInvalid s input) j = i := by
  rw [outputPortMapCmp, Bool.and_eq_true, decide_eq_true_iff, (outputIndex_eq j).1]
  exact ⟨fun h => ⟨h.2, h.1.symm⟩, fun h => ⟨h.2.symm, h.1⟩⟩

/-- The issued entry of rank `i` is on port `i`. -/
theorem iqIssueData_rank (h : IqWellFormed s) {j : Nat}
    (hinv : bufferItemInvalid s input j = true) :
    iqIssueData s input (rank (bufferItemInvalid s input) j) = bufferFeedback s input j := by
  have hj := Nat.lt_of_lt_of_le (invalid_lt hinv) h
  have hindex : outputPortMapIndex s input (rank (bufferItemInvalid s input) j) = j := by
    refine parallelFinder_unique hj fun k _ => ?_
    rw [outputPortMapCmp_iff]
    constructor
    · rintro ⟨hk, hrank⟩
      exact rank_inj hk hinv hrank
    · rintro rfl
      exact ⟨hinv, rfl⟩
  rw [iqIssueData, hindex]

theorem iqIssueDataValid_eq (h : IqWellFormed s) (i : Nat) :
    iqIssueDataValid s input i = decide (i < (issuedAt s input).length) := by
  rw [Bool.eq_iff_iff, decide_eq_true_iff, iqIssueDataValid, anyBit_iff]
  constructor
  · rintro ⟨j, _, hcmp⟩
    obtain ⟨hinv, hrank⟩ := outputPortMapCmp_iff.1 hcmp
    have hat := kept_getElem?_rank (n := s.wptr) (invalid_lt hinv) hinv
    rw [hrank] at hat
    exact (List.getElem?_eq_some_iff.1 hat).1
  · intro hi
    obtain ⟨j, hj, hinv, hrank⟩ := exists_rank hi
    exact ⟨j, Nat.lt_of_lt_of_le hj h, outputPortMapCmp_iff.2 ⟨hinv, hrank⟩⟩

/-- Read in order, the valid ports hold the issued entries. -/
theorem ports_issued (h : IqWellFormed s) :
    (List.range (issuedAt s input).length).map (iqIssueData s input) = issuedItems s input :=
  map_moved fun _ _ hinv => iqIssueData_rank h hinv

theorem bufferItemInvalidNum_eq (h : IqWellFormed s) :
    bufferItemInvalidNum s input = (issuedAt s input).length :=
  countOne_block issued_le_width fun i _ => iqIssueDataValid_eq h i

/-! ### The accepted inputs -/

theorem takeWhile_range_bound {f : Nat → Bool} {n m : Nat} (hm : f m = false) :
    ((List.range n).takeWhile f).length ≤ m := by
  by_contra hgt
  have hsub : ((List.range n).takeWhile f) <+: List.range n := List.takeWhile_prefix f
  have hlt : m < ((List.range n).takeWhile f).length := by omega
  have hget : ((List.range n).takeWhile f)[m] = m := by
    rw [hsub.getElem hlt, List.getElem_range]
  have hmem : f ((List.range n).takeWhile f)[m] = true :=
    List.mem_takeWhile_imp (List.getElem_mem hlt)
  rw [hget, hm] at hmem
  exact Bool.false_ne_true hmem

theorem takeWhile_range_eq (f : Nat → Bool) (n : Nat) :
    (List.range n).takeWhile f = List.range ((List.range n).takeWhile f).length := by
  have hsub : ((List.range n).takeWhile f) <+: List.range n := List.takeWhile_prefix f
  have hle := hsub.length_le
  rw [List.length_range] at hle
  conv_lhs => rw [List.prefix_iff_eq_take.1 hsub, List.take_range, Nat.min_eq_left hle]

theorem accepted_eq : acceptedItems s input =
    (List.range (if input.issueIqPush then wptrExtIncr s input else 0)).map
      input.issueIqData := by
  unfold acceptedItems
  split
  · rw [wptrExtIncr, countOneContinuous_leading _ (by decide), ← takeWhile_range_eq]
  · rfl

theorem accepted_fits (h : IqWellFormed s) :
    wptrExtIncr s input ≤ issueQueueSize - s.wptr ∧ wptrExtIncr s input ≤ readregWidth := by
  rw [wptrExtIncr, countOneContinuous_leading _ (by decide)]
  refine ⟨takeWhile_range_bound ?_, ?_⟩
  · rw [channelEnable_eq h, decide_eq_false (Nat.lt_irrefl _), Bool.false_and]
  · have hsub := List.takeWhile_prefix (l := List.range readregWidth)
      fun i => iqIssueDataChannelEnable s i && input.issueIqDataValid i
    simpa using hsub.length_le

theorem wptrNext_eq (h : IqWellFormed s) : iqWptrNext s input =
    s.wptr - (issuedAt s input).length +
      if input.issueIqPush then wptrExtIncr s input else 0 := by
  have hle : s.wptr ≤ issueQueueSize := h
  have hissued : (issuedAt s input).length ≤ s.wptr := issued_le_list
  have hfits : wptrExtIncr s input ≤ issueQueueSize - s.wptr := (accepted_fits h).1
  rw [iqWptrNext, bufferItemInvalidNum_eq h]
  simp only [issueQueueSize] at *
  split <;> omega

/-! ### Compaction -/

theorem bufferMapDst_eq (j : Nat) :
    bufferMapDst s input j = rank (fun i => !bufferItemInvalid s input i) j := by
  induction j with
  | zero => rfl
  | succ j ih =>
      rw [bufferMapDst, ih, rank_succ]
      cases bufferItemInvalid s input j <;> rfl

/-- An entry that is not issued moves to its rank. -/
theorem buffer_moved {j : Nat} (hj : j < issueQueueSize)
    (hkeep : (!bufferItemInvalid s input j) = true) :
    (issueQueueNext s input).buffer (rank (fun i => !bufferItemInvalid s input i) j) =
      bufferInput s input j := by
  have hcmp : ∀ k, k < issueQueueSize →
      (bufferMapDstCmp s input (rank (fun i => !bufferItemInvalid s input i) j) k = true ↔
        k = j) := by
    intro k _
    rw [bufferMapDstCmp, Bool.and_eq_true, decide_eq_true_iff, bufferMapDst_eq]
    constructor
    · rintro ⟨hrank, hk⟩
      exact rank_inj hk hkeep hrank
    · rintro rfl
      exact ⟨rfl, hkeep⟩
  have hneed : bufferNeedMap s input (rank (fun i => !bufferItemInvalid s input i) j) = true :=
    anyBit_iff.2 ⟨j, hj, (hcmp j hj).2 rfl⟩
  show (if bufferNeedMap s input _ then _ else _) = _
  rw [hneed, if_pos rfl, bufferMapSrc, parallelFinder_unique hj hcmp]

/-- The whole array after compaction. -/
theorem buffer_compacted (h : IqWellFormed s) :
    (List.range (issueQueueSize - (issuedAt s input).length)).map
        (issueQueueNext s input).buffer =
      waitingItems s input ++
        (List.range' s.wptr (issueQueueSize - s.wptr)).map (bufferInput s input) := by
  have hle : s.wptr ≤ issueQueueSize := h
  have hsum := rank_add_dropped (bufferItemInvalid s input) issueQueueSize
  have hissued : rank (bufferItemInvalid s input) issueQueueSize =
      (issuedAt s input).length := by rw [issuedAt_eq h, rank]
  have hlen : issueQueueSize - (issuedAt s input).length =
      (kept (fun i => !bufferItemInvalid s input i) issueQueueSize).length := by
    rw [rank, rank] at hsum
    rw [rank] at hissued
    omega
  have hbehind : ∀ j, s.wptr ≤ j → (!bufferItemInvalid s input j) = true := by
    intro j hj
    rw [Bool.not_eq_true', Bool.eq_false_iff]
    intro hinv
    have := invalid_lt hinv
    omega
  rw [hlen, map_moved (fun j hj hkeep => buffer_moved hj hkeep)]
  have hsplit : issueQueueSize = s.wptr + (issueQueueSize - s.wptr) := by omega
  conv_lhs => rw [hsplit, kept_add hbehind, List.map_append]
  congr 1
  refine List.map_congr_left fun j hj => ?_
  have hlt : j < s.wptr := List.mem_range.1 (List.mem_filter.1 hj).1
  rw [bufferInput, if_neg (by omega)]

/-- Without a flush: the waiting entries, then the accepted ones. -/
theorem issueList_next (h : IqWellFormed s) (hflush : input.issueIqFlush = false) :
    issueList (issueQueueNext s input) = waitingItems s input ++ acceptedItems s input := by
  have hle : s.wptr ≤ issueQueueSize := h
  have hissued : (issuedAt s input).length ≤ s.wptr := issued_le_list
  obtain ⟨hfits, hwidth⟩ : wptrExtIncr s input ≤ issueQueueSize - s.wptr ∧
      wptrExtIncr s input ≤ readregWidth := accepted_fits h
  have hwptr : (issueQueueNext s input).wptr = s.wptr - (issuedAt s input).length +
      if input.issueIqPush then wptrExtIncr s input else 0 := by
    show (if input.issueIqFlush then 0 else iqWptrNext s input) = _
    rw [hflush, if_neg Bool.false_ne_true, wptrNext_eq h]
  have hwaiting : (waitingItems s input).length = s.wptr - (issuedAt s input).length := by
    have hsum := rank_add_dropped (bufferItemInvalid s input) s.wptr
    rw [rank, rank] at hsum
    rw [waitingItems, List.length_map, issuedAt]
    omega
  have hrange : List.range (issueQueueNext s input).wptr =
      (List.range (issueQueueSize - (issuedAt s input).length)).take
        (issueQueueNext s input).wptr := by
    rw [List.take_range, hwptr]
    congr 1
    split <;> omega
  have hnew : ∀ n, n ≤ issueQueueSize - s.wptr → n ≤ readregWidth →
      ((List.range' s.wptr (issueQueueSize - s.wptr)).take n).map (bufferInput s input) =
        (List.range n).map input.issueIqData := by
    intro n hn hport
    rw [List.take_range'_of_length_ge hn, List.range'_eq_map_range, List.map_map]
    refine List.map_congr_left fun k hk => ?_
    have hlt := List.mem_range.1 hk
    show bufferInput s input (s.wptr + k) = input.issueIqData k
    rw [bufferInput, if_pos ⟨Nat.le_add_right _ _, by omega⟩, Nat.add_sub_cancel_left]
  rw [issueList, hrange, List.map_take, buffer_compacted h, List.take_append, hwaiting, hwptr,
    List.take_of_length_le (by rw [hwaiting]; omega), Nat.add_sub_cancel_left, accepted_eq,
    ← List.map_take, hnew]
  · split <;> omega
  · split <;> omega

theorem issueList_flush (hflush : input.issueIqFlush = true) :
    issueList (issueQueueNext s input) = [] := by
  have hwptr : (issueQueueNext s input).wptr = 0 := by
    show (if input.issueIqFlush then 0 else iqWptrNext s input) = 0
    rw [hflush, if_pos rfl]
  rw [issueList, hwptr]
  rfl

/-- Leading inputs are accepted as far as there is space. -/
theorem accepted_contiguous (h : IqWellFormed s) (hpush : input.issueIqPush = true) {n : Nat}
    (hn : n ≤ readregWidth)
    (hvalid : ∀ i, i < readregWidth → input.issueIqDataValid i = decide (i < n)) :
    acceptedItems s input =
      (List.range (min n (issueQueueSize - s.wptr))).map input.issueIqData := by
  have hblock : ∀ i, i < readregWidth →
      (iqIssueDataChannelEnable s i && input.issueIqDataValid i) =
        decide (i < min n (issueQueueSize - s.wptr)) := by
    intro i hi
    rw [channelEnable_eq h, hvalid i hi, ← Bool.decide_and, decide_eq_decide, Nat.lt_min,
      and_comm]
  have hclosed : ∀ i, i + 1 < readregWidth →
      (iqIssueDataChannelEnable s (i + 1) && input.issueIqDataValid (i + 1)) = true →
        (iqIssueDataChannelEnable s i && input.issueIqDataValid i) = true := by
    intro i hi hnext
    rw [hblock (i + 1) hi, decide_eq_true_iff] at hnext
    rw [hblock i (by omega), decide_eq_true_iff]
    omega
  have hcount : wptrExtIncr s input = min n (issueQueueSize - s.wptr) := by
    rw [wptrExtIncr, countOneContinuous_eq (by decide) hclosed]
    exact countOne_block (Nat.le_trans (Nat.min_le_left _ _) hn) hblock
  rw [accepted_eq, hpush, if_pos rfl, hcount]

end Facts

/-! ## Feedback on an entry -/

/-- What an entry knows of a source: nothing until it is loaded. -/
def sourceOf (loaded : Bool) (value : Nat) : Option Nat := if loaded then some value else none

/-- The channel delivers the register. -/
def Delivers (channel : FeedbackChannel) (phyId : Nat) : Prop :=
  channel.enable = true ∧ phyId = channel.phyId

/-- A known source stays, one that a channel delivers becomes known, with the value of
the channel if it is the only one, and any other stays unknown. -/
structure SourceFed (input : IssueQueueInput) (phyId : Nat) (old new : Option Nat) : Prop where
  kept : ∀ value, old = some value → new = some value
  unknown : old = none → (new = none ↔
    (∀ j, j < executeUnitNum → ¬Delivers (input.executeFeedbackPack j) phyId) ∧
      ∀ j, j < wbWidth → ¬Delivers (input.wbFeedbackPack j) phyId)
  execute : old = none → ∀ j, j < executeUnitNum → Delivers (input.executeFeedbackPack j) phyId →
    (∀ i, i < executeUnitNum → Delivers (input.executeFeedbackPack i) phyId → i = j) →
    new = some (input.executeFeedbackPack j).value
  wb : old = none →
    (∀ i, i < executeUnitNum → ¬Delivers (input.executeFeedbackPack i) phyId) →
    ∀ j, j < wbWidth → Delivers (input.wbFeedbackPack j) phyId →
    (∀ i, i < wbWidth → Delivers (input.wbFeedbackPack i) phyId → i = j) →
    new = some (input.wbFeedbackPack j).value

/-- An entry after feedback: the two sources are fed, nothing else changes. -/
structure ItemFed (input : IssueQueueInput) (old new : IssueQueueItem) : Prop where
  same : { new with
    src1Value := old.src1Value, src1Loaded := old.src1Loaded
    src2Value := old.src2Value, src2Loaded := old.src2Loaded } = old
  src1 : SourceFed input old.rs1Phy (sourceOf old.src1Loaded old.src1Value)
    (sourceOf new.src1Loaded new.src1Value)
  src2 : SourceFed input old.rs2Phy (sourceOf old.src2Loaded old.src2Value)
    (sourceOf new.src2Loaded new.src2Value)

section Feedback

variable {input : IssueQueueInput}

theorem phyExefbCmp_iff {phyId j : Nat} :
    phyExefbCmp input phyId j = true ↔ Delivers (input.executeFeedbackPack j) phyId := by
  rw [phyExefbCmp, Bool.and_eq_true, decide_eq_true_iff, Delivers]

theorem phyWbfbCmp_iff {phyId j : Nat} :
    phyWbfbCmp input phyId j = true ↔ Delivers (input.wbFeedbackPack j) phyId := by
  rw [phyWbfbCmp, Bool.and_eq_true, decide_eq_true_iff, Delivers]

theorem sourceFed (phyId : Nat) (loaded : Bool) (value : Nat) :
    SourceFed input phyId (sourceOf loaded value)
      (sourceOf (feedbackLoaded input loaded phyId)
        (feedbackValue input loaded value phyId)) := by
  cases loaded with
  | true =>
      refine ⟨fun v hv => hv, fun h => ?_, fun h => ?_, fun h => ?_⟩ <;>
        exact absurd h (Option.some_ne_none value)
  | false =>
      have hloaded : feedbackLoaded input false phyId =
          (anyBit executeUnitNum (phyExefbCmp input phyId) ||
            anyBit wbWidth (phyWbfbCmp input phyId)) := rfl
      refine ⟨fun v hv => absurd hv (Option.some_ne_none v).symm, fun _ => ?_,
        fun _ j hj hdelivers honly => ?_, fun _ hnone j hj hdelivers honly => ?_⟩
      · rw [sourceOf, hloaded]
        simp only [ite_eq_right_iff, reduceCtorEq, imp_false, Bool.not_eq_true,
          Bool.or_eq_false_iff, anyBit_eq_false_iff, ← phyExefbCmp_iff, ← phyWbfbCmp_iff]
      · have hany : anyBit executeUnitNum (phyExefbCmp input phyId) = true :=
          anyBit_iff.2 ⟨j, hj, phyExefbCmp_iff.2 hdelivers⟩
        have hindex : parallelFinder executeUnitNum (phyExefbCmp input phyId) = j :=
          parallelFinder_unique hj fun i hi =>
            ⟨fun h => honly i hi (phyExefbCmp_iff.1 h), fun h => phyExefbCmp_iff.2 (h ▸ hdelivers)⟩
        simp [sourceOf, hloaded, feedbackValue, hany, hindex]
      · have hany : anyBit executeUnitNum (phyExefbCmp input phyId) = false :=
          anyBit_eq_false_iff.2 fun i hi =>
            Bool.eq_false_iff.2 fun h => hnone i hi (phyExefbCmp_iff.1 h)
        have hwb : anyBit wbWidth (phyWbfbCmp input phyId) = true :=
          anyBit_iff.2 ⟨j, hj, phyWbfbCmp_iff.2 hdelivers⟩
        have hindex : parallelFinder wbWidth (phyWbfbCmp input phyId) = j :=
          parallelFinder_unique hj fun i hi =>
            ⟨fun h => honly i hi (phyWbfbCmp_iff.1 h), fun h => phyWbfbCmp_iff.2 (h ▸ hdelivers)⟩
        simp [sourceOf, hloaded, feedbackValue, hany, hwb, hindex]

theorem itemFed (e : IssueQueueItem) : ItemFed input e (itemFeedback input e) :=
  ⟨rfl, sourceFed _ _ _, sourceFed _ _ _⟩

end Feedback

/-! ## Every run -/

/-- One cycle of the queue seen as a list. -/
structure IssueListStep (s : IssueQueueState) (input : IssueQueueInput) : Prop where
  next : issueList (issueQueueNext s input) =
    if input.issueIqFlush then [] else waitingItems s input ++ acceptedItems s input
  fed : ∀ i, i < s.wptr → ItemFed input (s.buffer i) (bufferFeedback s input i)
  accepted : input.issueIqPush = true → ∀ n, n ≤ readregWidth →
    (∀ i, i < readregWidth → input.issueIqDataValid i = decide (i < n)) →
    acceptedItems s input = (List.range (min n (issueQueueSize - s.wptr))).map input.issueIqData
  fits : (issueList (issueQueueNext s input)).length ≤ issueQueueSize
  few : (issuedItems s input).length ≤ issueWidth
  ports : ∀ i, iqIssueDataValid s input i = decide (i < (issuedItems s input).length)
  order : (List.range (issuedItems s input).length).map (iqIssueData s input) =
    issuedItems s input

theorem iqWellFormed_next {s : IssueQueueState} {input : IssueQueueInput}
    (h : IqWellFormed s) : IqWellFormed (issueQueueNext s input) := by
  have hle : s.wptr ≤ issueQueueSize := h
  have hfits : wptrExtIncr s input ≤ issueQueueSize - s.wptr := (accepted_fits h).1
  show (if input.issueIqFlush then 0 else iqWptrNext s input) ≤ issueQueueSize
  rw [wptrNext_eq h]
  split
  · exact Nat.zero_le _
  · split <;> omega

theorem issueListStep {s : IssueQueueState} (h : IqWellFormed s) (input : IssueQueueInput) :
    IssueListStep s input where
  next := by
    cases hflush : input.issueIqFlush with
    | true => exact issueList_flush hflush
    | false => exact issueList_next h hflush
  fed := fun i _ => itemFed (s.buffer i)
  accepted := fun hpush _ hn hvalid => accepted_contiguous h hpush hn hvalid
  fits := by
    rw [issueList, List.length_map, List.length_range]
    exact iqWellFormed_next h
  few := by
    rw [issuedItems, List.length_map]
    exact issued_le_width
  ports := fun i => by
    rw [issuedItems, List.length_map]
    exact iqIssueDataValid_eq h i
  order := by
    rw [issuedItems, List.length_map, ports_issued h, issuedItems]

/-- From reset, whatever is pushed, ready, full or flushed, every cycle of the queue is a
step of the list. -/
theorem issue_queue_list (buffer : Nat → IssueQueueItem) (inputs : List IssueQueueInput) :
    Along issueQueueNext IssueListStep (issueQueueReset buffer) inputs := by
  have hall : Along issueQueueNext (fun _ _ => True) (issueQueueReset buffer) inputs :=
    along_of_forall fun _ _ _ => trivial
  have hreset : IqWellFormed (issueQueueReset buffer) := Nat.zero_le _
  exact (hall.strengthen (fun _ _ hinv _ => iqWellFormed_next hinv) hreset).mono
    fun _ input h => issueListStep h.1 input

end DreamCore.Proofs
