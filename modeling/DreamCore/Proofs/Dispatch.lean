import DreamCore.Proofs.IssueList
import DreamCore.Rtl.IssueDispatch

/-!
# Dispatch loses nothing

The list of free units is the free positions in rotated order, so its entries differ; the
operations of a kind take the entries of their ordinal number, of which the issue queue
selected no more than there are free units.
-/

namespace DreamCore.Proofs

open DreamCore.Clocked DreamCore.Compaction DreamCore.Ring DreamCore.Rtl

/-! ## Positions in rotated order -/

theorem rank_succ_left (keep : Nat → Bool) (n : Nat) :
    rank keep (n + 1) = (if keep 0 then 1 else 0) + rank (fun j => keep (j + 1)) n := by
  induction n with
  | zero => rw [rank_succ, rank_zero, rank_zero, Nat.zero_add, Nat.add_zero]
  | succ n ih => rw [rank_succ, ih, rank_succ, Nat.add_assoc]

theorem rank_mono {keep : Nat → Bool} {i j : Nat} (h : i ≤ j) : rank keep i ≤ rank keep j := by
  induction j with
  | zero => rw [Nat.le_zero.1 h]
  | succ j ih =>
      rcases Nat.le_succ_iff.1 h with hle | rfl
      · have := ih hle
        rw [rank_succ]
        omega
      · exact Nat.le_refl _

theorem countOne_eq_rank (n : Nat) (v : Nat → Bool) : countOne n v = rank v n :=
  countOne_eq_filter n v

/-- Turning a ring keeps the number of its kept positions. -/
theorem rank_rotate (keep : Nat → Bool) (n k : Nat) :
    rank (fun j => keep ((k + j) % n)) n = rank (fun j => keep (j % n)) n := by
  induction k with
  | zero =>
      congr 1
      funext j
      rw [Nat.zero_add]
  | succ k ih =>
      have hleft := rank_succ_left (fun j => keep ((k + j) % n)) n
      have hright := rank_succ (fun j => keep ((k + j) % n)) n
      have hwrap : (k + n) % n = (k + 0) % n := Nat.add_mod_right k n
      have hshift : (fun j => keep ((k + (j + 1)) % n)) = fun j => keep ((k + 1 + j) % n) := by
        funext j
        rw [Nat.add_right_comm, Nat.add_assoc]
      simp only [hwrap, hshift] at hleft hright
      omega

section List

variable {n startPos k : Nat} {seq : Nat → Bool}

theorem le_itemIdWidth (n : Nat) : n ≤ 2 ^ itemIdWidth n :=
  Nat.le_trans (Nat.le_pow_clog (by decide) n)
    (Nat.pow_le_pow_right (by decide) (Nat.le_max_left _ _))

theorem seqShifted_eq (hstart : startPos < n) {i : Nat} (hi : i < n) :
    seqShifted n seq startPos i = seq ((startPos + i) % n) := by
  rw [seqShifted]
  rcases Nat.lt_or_ge (i + startPos) n with hlt | hge
  · have hmod : (startPos + i) % n = i + startPos := by
      rw [Nat.add_comm, Nat.mod_eq_of_lt hlt]
    simp [hlt, hmod]
  · have hmod : (startPos + i) % n = i - (n - startPos) := by
      rw [Nat.mod_eq_sub_mod (by omega), Nat.mod_eq_of_lt (by omega)]
      omega
    simp [Nat.not_lt.2 hge, hmod, (by omega : n - startPos ≤ i)]

theorem seqOutPos_eq {i : Nat} (hi : i < n) :
    seqOutPos n seq startPos i = rank (seqShifted n seq startPos) i := by
  induction i with
  | zero => rfl
  | succ i ih =>
      have hle := rank_le (seqShifted n seq startPos) (i + 1)
      have hwidth := le_itemIdWidth n
      have hsum : rank (seqShifted n seq startPos) (i + 1) =
          rank (seqShifted n seq startPos) i + (seqShifted n seq startPos i).toNat := by
        rw [rank_succ]
        cases seqShifted n seq startPos i <;> rfl
      rw [seqOutPos, ih (by omega), ← hsum, Nat.mod_eq_of_lt (by omega)]

/-- The turned mask has as many set positions. -/
theorem countOne_eq_shifted (hstart : startPos < n) :
    countOne n seq = rank (seqShifted n seq startPos) n := by
  have hrotated := rank_rotate seq n startPos
  have hplain : rank (fun j => seq (j % n)) n = rank seq n := by
    rw [← countOne_eq_rank, ← countOne_eq_rank]
    exact countOne_congr fun i hi => by rw [Nat.mod_eq_of_lt hi]
  rw [countOne_eq_rank, ← hplain, ← hrotated, ← countOne_eq_rank, ← countOne_eq_rank]
  exact countOne_congr fun i hi => (seqShifted_eq hstart hi).symm

/-- Entry `k` of the list is the `k`-th enabled position behind the start. -/
theorem enabledItemId_spec {m : Nat} (hn : n = 2 ^ m) (hstart : startPos < n)
    (hk : k < countOne n seq) :
    ∃ j, j < n ∧ rank (seqShifted n seq startPos) j = k ∧
      enabledItemId n seq startPos k = (startPos + j) % n ∧ seq ((startPos + j) % n) = true := by
  rw [countOne_eq_shifted hstart] at hk
  obtain ⟨j, hj, hbit, hrank⟩ := exists_rank hk
  have hfound : priorityFinderLast n (seqOutPosCmp n seq startPos k) = j := by
    refine lastIndexTemp_eq (by omega) ?_ fun i hji hi => ?_
    · rw [seqOutPosCmp, seqOutPos_eq hj, hrank, decide_eq_true rfl]
    · -- the positions behind count this one
      have hmore : rank (seqShifted n seq startPos) (j + 1) ≤ rank (seqShifted n seq startPos) i :=
        rank_mono hji
      rw [rank_succ, hbit, if_pos rfl] at hmore
      rw [seqOutPosCmp, seqOutPos_eq (by omega)]
      exact decide_eq_false (by omega)
  refine ⟨j, hj, hrank, ?_, (seqShifted_eq hstart hj).symm.trans hbit⟩
  rw [enabledItemId, hfound, Nat.add_comm, itemIdWidth, hn, Nat.clog_pow 2 m (by decide)]
  rcases Nat.eq_zero_or_pos m with rfl | hpos
  · rw [show startPos = 0 by omega, show j = 0 by omega]
    rfl
  · rw [Nat.max_eq_left hpos]

/-- Different entries are different positions. -/
theorem enabledItemId_inj {m i : Nat} (hn : n = 2 ^ m) (hstart : startPos < n)
    (hi : i < countOne n seq) (hk : k < countOne n seq)
    (h : enabledItemId n seq startPos i = enabledItemId n seq startPos k) : i = k := by
  obtain ⟨a, ha, harank, haeq, _⟩ := enabledItemId_spec hn hstart hi
  obtain ⟨b, hb, hbrank, hbeq, _⟩ := enabledItemId_spec hn hstart hk
  have hsame : slot n (startPos + a) = slot n (startPos + b) := haeq.symm.trans (h.trans hbeq)
  rw [← harank, ← hbrank, slot_add_inj ha hb hsame]

end List

/-! ## What the issue queue selects -/

section Selection

variable {s : IssueQueueState} {input : IssueQueueInput} {u : OpUnit}

/-- The issued positions of a kind. -/
def issuedOf (s : IssueQueueState) (input : IssueQueueInput) (u : OpUnit) (i : Nat) : Bool :=
  bufferItemInvalid s input i && decide ((bufferFeedback s input i).opUnit = u)

theorem invalid_remain {i : Nat} (h : bufferItemInvalid s input i = true) :
    (issueScan s input i).remainNum (bufferFeedback s input i).opUnit ≠ 0 := by
  have hready := invalid_ready h
  rw [itemReady] at hready
  simp only [Bool.and_eq_true, decide_eq_true_eq] at hready
  exact hready.1.1.2

/-- The running counter is the number of free units without those already given away. -/
theorem remainNum_add (s : IssueQueueState) (input : IssueQueueInput) (u : OpUnit) (i : Nat) :
    (issueScan s input i).remainNum u + rank (issuedOf s input u) i =
      countOne (unitNum u) fun k => !input.issueFifoFull u k := by
  induction i with
  | zero => rfl
  | succ i ih =>
      have hstep : (issueScan s input (i + 1)).remainNum u =
          if (issueScan s input i).remainNum u = 0 then 0
          else (issueScan s input i).remainNum u - if issuedOf s input u i then 1 else 0 := by
        rw [issuedOf, Bool.and_comm]
        rfl
      rw [hstep, rank_succ, ← ih]
      cases hof : issuedOf s input u i with
      | false =>
          simp only [Bool.false_eq_true, if_false]
          split <;> omega
      | true =>
          obtain ⟨hinv, hunit⟩ := Bool.and_eq_true_iff.1 hof
          have hremain := invalid_remain hinv
          rw [of_decide_eq_true hunit] at hremain
          rw [if_neg hremain, if_pos rfl]
          omega

/-- No more operations of a kind are selected than there are free units. -/
theorem issueOpNum_le (h : IqWellFormed s) :
    issueOpNum s input u ≤ countOne (unitNum u) fun k => !input.issueFifoFull u k := by
  have hwidth : (issuedAt s input).length ≤ issueWidth := issued_le_width
  have hports : issueOpNum s input u = rank (issuedOf s input u) s.wptr := by
    have hsplit : issueWidth =
        (issuedAt s input).length + (issueWidth - (issuedAt s input).length) := by omega
    have hvalid : ∀ i, issueHasOpCmp s input u i = true → i < (issuedAt s input).length := by
      intro i hi
      have hport := (Bool.and_eq_true_iff.1 hi).1
      rw [iqIssueDataValid_eq h] at hport
      exact of_decide_eq_true hport
    rw [issueOpNum, countOne_eq_rank, rank, kept_of_le hwidth hvalid, kept]
    have hkind : ∀ i ∈ List.range (issuedAt s input).length,
        issueHasOpCmp s input u i =
          decide ((iqIssueData s input i).opUnit = u) := by
      intro i hi
      rw [issueHasOpCmp, iqIssueDataValid_eq h, decide_eq_true (List.mem_range.1 hi), Bool.true_and]
    rw [List.filter_congr hkind]
    have hmap : ((List.range (issuedAt s input).length).filter fun i =>
        decide ((iqIssueData s input i).opUnit = u)).length =
        (((List.range (issuedAt s input).length).map (iqIssueData s input)).filter fun x =>
          decide (x.opUnit = u)).length := by
      rw [List.filter_map, List.length_map]
      rfl
    rw [hmap, ports_issued h, issuedItems, List.filter_map, List.length_map, issuedAt, kept,
      List.filter_filter, rank, kept]
    congr 1
    refine List.filter_congr fun i _ => ?_
    rw [issuedOf, Bool.and_comm]
    rfl
  have hadd := remainNum_add s input u s.wptr
  omega

end Selection

/-! ## Where the operations go -/

theorem unitNum_pow (u : OpUnit) : ∃ m, unitNum u = 2 ^ m := by
  cases u
  · exact ⟨1, rfl⟩
  · exact ⟨1, rfl⟩
  · exact ⟨0, rfl⟩
  · exact ⟨0, rfl⟩
  · exact ⟨0, rfl⟩
  · exact ⟨0, rfl⟩

section Dispatch

variable {s : IssueQueueState} {input : IssueQueueInput} {index : OpUnit → Nat} {u : OpUnit}
  {p q : Nat}

/-- The unit of its kind the operation of port `p` goes to. -/
def dispatchedTo (s : IssueQueueState) (input : IssueQueueInput) (index : OpUnit → Nat)
    (p : Nat) : Nat :=
  availableIndex input index (iqIssueData s input p).opUnit
    (sendIndex s input (iqIssueData s input p).opUnit p)

theorem issueHasOpCmp_iff : issueHasOpCmp s input u p = true ↔
    iqIssueDataValid s input p = true ∧ (iqIssueData s input p).opUnit = u := by
  rw [issueHasOpCmp, Bool.and_eq_true, decide_eq_true_iff]

/-- The ordinal number among the selected operations of the kind. -/
theorem sendIndex_eq (h : IqWellFormed s) (hp : p < issueWidth)
    (hop : issueHasOpCmp s input u p = true) :
    sendIndex s input u p = rank (issueHasOpCmp s input u) p ∧
      rank (issueHasOpCmp s input u) p <
        countOne (unitNum u) fun k => !input.issueFifoFull u k := by
  have hmod : ∀ i, sendIndex s input u i =
      rank (issueHasOpCmp s input u) i % 2 ^ itemIdWidth (unitNum u) := by
    intro i
    induction i with
    | zero => exact (Nat.zero_mod _).symm
    | succ i ih =>
        rw [sendIndex, ih, Nat.mod_add_mod, rank_succ]
        cases issueHasOpCmp s input u i <;> rfl
  have hmore : rank (issueHasOpCmp s input u) (p + 1) ≤ rank (issueHasOpCmp s input u) issueWidth :=
    rank_mono hp
  rw [rank_succ, hop, if_pos rfl] at hmore
  have hfree : issueOpNum s input u ≤ countOne (unitNum u) fun k => !input.issueFifoFull u k :=
    issueOpNum_le h
  have hunits := countOne_le (unitNum u) fun k => !input.issueFifoFull u k
  have hwidth := le_itemIdWidth (unitNum u)
  rw [issueOpNum, countOne_eq_rank] at hfree
  refine ⟨?_, by omega⟩
  rw [hmod, Nat.mod_eq_of_lt (by omega)]

theorem sendInstCmp_iff (hvalid : iqIssueDataValid s input p = true) {i : Nat} :
    sendInstCmp s input index u i p = true ↔
      u = (iqIssueData s input p).opUnit ∧ i = dispatchedTo s input index p := by
  rw [sendInstCmp, Bool.and_eq_true, issueHasOpCmp_iff, decide_eq_true_iff]
  constructor
  · rintro ⟨⟨_, rfl⟩, rfl⟩
    exact ⟨rfl, rfl⟩
  · rintro ⟨rfl, rfl⟩
    exact ⟨⟨hvalid, rfl⟩, rfl⟩

theorem dispatchedTo_free (h : IqWellFormed s) (hindex : ∀ u, index u < unitNum u)
    (hp : p < issueWidth) (hvalid : iqIssueDataValid s input p = true) :
    dispatchedTo s input index p < unitNum (iqIssueData s input p).opUnit ∧
      input.issueFifoFull (iqIssueData s input p).opUnit (dispatchedTo s input index p) = false := by
  obtain ⟨m, hm⟩ := unitNum_pow (iqIssueData s input p).opUnit
  obtain ⟨hsend, hlt⟩ := sendIndex_eq h hp (issueHasOpCmp_iff.2 ⟨hvalid, rfl⟩)
  obtain ⟨j, _, _, hitem, hfree⟩ := enabledItemId_spec hm (hindex _) hlt
  rw [dispatchedTo, availableIndex, hsend, hitem]
  exact ⟨Nat.mod_lt _ (Nat.lt_of_le_of_lt (Nat.zero_le _) (hindex _)), (Bool.not_eq_true' _).mp hfree⟩

/-- Operations of one kind go to different units. -/
theorem dispatchedTo_inj (h : IqWellFormed s) (hindex : ∀ u, index u < unitNum u)
    (hp : p < issueWidth) (hq : q < issueWidth) (hvalidp : iqIssueDataValid s input p = true)
    (hvalidq : iqIssueDataValid s input q = true)
    (hkind : (iqIssueData s input p).opUnit = (iqIssueData s input q).opUnit)
    (hsame : dispatchedTo s input index p = dispatchedTo s input index q) : p = q := by
  obtain ⟨m, hm⟩ := unitNum_pow (iqIssueData s input q).opUnit
  have hopp := issueHasOpCmp_iff.2 ⟨hvalidp, hkind⟩
  have hopq := issueHasOpCmp_iff.2 ⟨hvalidq, rfl⟩
  obtain ⟨hsendp, hltp⟩ := sendIndex_eq h hp hopp
  obtain ⟨hsendq, hltq⟩ := sendIndex_eq h hq hopq
  rw [dispatchedTo, dispatchedTo, hkind, hsendp, hsendq] at hsame
  exact rank_inj hopp hopq (enabledItemId_inj hm (hindex _) hltp hltq hsame)

/-- The finder of a unit finds the operation that goes there. -/
theorem sendInstIndex_eq (h : IqWellFormed s) (hindex : ∀ u, index u < unitNum u)
    (hp : p < issueWidth) (hvalid : iqIssueDataValid s input p = true) :
    sendInstIndex s input index (iqIssueData s input p).opUnit (dispatchedTo s input index p) =
      p := by
  refine parallelFinder_unique hp fun q hq => ?_
  constructor
  · intro hcmp
    have hvalidq := (issueHasOpCmp_iff.1 (Bool.and_eq_true_iff.1 hcmp).1).1
    obtain ⟨hkind, hsame⟩ := (sendInstCmp_iff hvalidq).1 hcmp
    exact (dispatchedTo_inj h hindex hp hq hvalid hvalidq hkind hsame).symm
  · rintro rfl
    exact (sendInstCmp_iff hvalid).2 ⟨rfl, rfl⟩

theorem lsuFifoItem_eq (h : IqWellFormed s) (hindex : ∀ u, index u < unitNum u)
    (hp : p < issueWidth) (hvalid : iqIssueDataValid s input p = true)
    (hlsu : (iqIssueData s input p).opUnit = .lsu) :
    lsuFifoItem s input index = iqIssueData s input p := by
  have hlt := (dispatchedTo_free h hindex hp hvalid).1
  have hslot := sendInstIndex_eq h hindex hp hvalid
  rw [hlsu] at hlt hslot
  rw [Nat.lt_one_iff.1 hlt] at hslot
  rw [lsuFifoItem, hslot]

/-- The alignment check on the sent pack is the check of the operation itself. -/
theorem iqIssueDataConverted_eq (h : IqWellFormed s) (hindex : ∀ u, index u < unitNum u)
    (hp : p < issueWidth) (hvalid : iqIssueDataValid s input p = true) :
    iqIssueDataConverted s input index p = issueDataConverted (iqIssueData s input p) := by
  cases hlsu : issueIsLsu (iqIssueData s input p) with
  | false => simp [iqIssueDataConverted, issueDataConverted, hlsu]
  | true =>
      have hunit := of_decide_eq_true (Bool.and_eq_true_iff.1 hlsu).2
      simp [iqIssueDataConverted, issueDataConverted, hlsu,
        lsuFifoItem_eq h hindex hp hvalid hunit]

end Dispatch

/-! ## Nothing is lost -/

/-- The operation of port `p` is pushed, with its own operands and address, into one unit of
its kind, which has room for it. -/
structure Dispatched (s : IssueQueueState) (input : IssueQueueInput) (index : OpUnit → Nat)
    (p : Nat) : Prop where
  unit_lt : dispatchedTo s input index p < unitNum (iqIssueData s input p).opUnit
  notFull : input.issueFifoFull (iqIssueData s input p).opUnit (dispatchedTo s input index p) = false
  pushed : issueFifoPush s input index (iqIssueData s input p).opUnit
    (dispatchedTo s input index p) = true
  data : issueFifoDataIn s input index (iqIssueData s input p).opUnit
    (dispatchedTo s input index p) = issueDataConverted (iqIssueData s input p)
  onlyThere : ∀ u i, sendInstCmp s input index u i p = true →
    u = (iqIssueData s input p).opUnit ∧ i = dispatchedTo s input index p
  address : (iqIssueData s input p).opUnit = .lsu →
    issueStbufReadAddr s input index = issueLsuAddr (iqIssueData s input p) ∧
      stbufReadSizeOut s input index = issueStbufReadSize (iqIssueData s input p) ∧
      stbufRdOut s input index = issueStbufRd (iqIssueData s input p) true input.issueIqFlush
  taken : input.issueIqFlush = false → ∀ (fifo : HandshakeDff) (pop : Bool),
    handshakeFull fifo pop = input.issueFifoFull (iqIssueData s input p).opUnit
      (dispatchedTo s input index p) →
    handshakeNext fifo
      (issueFifoDataIn s input index (iqIssueData s input p).opUnit (dispatchedTo s input index p))
      (issueFifoPush s input index (iqIssueData s input p).opUnit (dispatchedTo s input index p))
      false pop = ⟨true, issueDataConverted (iqIssueData s input p)⟩

section Exact

variable {s : IssueQueueState} {input : IssueQueueInput} {index : OpUnit → Nat} {p : Nat}

theorem dispatched (h : IqWellFormed s) (hindex : ∀ u, index u < unitNum u) (hp : p < issueWidth)
    (hvalid : iqIssueDataValid s input p = true) : Dispatched s input index p := by
  obtain ⟨hlt, hfree⟩ := dispatchedTo_free h hindex hp hvalid
  have hslot := sendInstIndex_eq h hindex hp hvalid
  have hdata : issueFifoDataIn s input index (iqIssueData s input p).opUnit
      (dispatchedTo s input index p) = issueDataConverted (iqIssueData s input p) := by
    rw [issueFifoDataIn, hslot, iqIssueDataConverted_eq h hindex hp hvalid]
  have hpushed : issueFifoPush s input index (iqIssueData s input p).opUnit
      (dispatchedTo s input index p) = true :=
    anyBit_iff.2 ⟨p, hp, (sendInstCmp_iff hvalid).2 ⟨rfl, rfl⟩⟩
  refine ⟨hlt, hfree, hpushed, hdata, fun u i hcmp => (sendInstCmp_iff hvalid).1 hcmp,
    fun hlsu => ?_, fun _ fifo pop hfull => ?_⟩
  · have hzero : dispatchedTo s input index p = 0 := by
      rw [hlsu] at hlt
      exact Nat.lt_one_iff.1 hlt
    have hitem := lsuFifoItem_eq h hindex hp hvalid hlsu
    rw [hlsu, hzero] at hdata hpushed
    refine ⟨congrArg (·.lsuAddr) hdata, by rw [stbufReadSizeOut, hitem], ?_⟩
    rw [stbufRdOut, hitem, hpushed]
  · rw [hpushed, hdata, handshakeNext, if_neg Bool.false_ne_true, hfull, hfree]
    rfl

/-- The index moves behind the unit of the last operation of the kind. -/
theorem indexNext_last (h : IqWellFormed s) (hflush : input.issueIqFlush = false)
    (hp : p < issueWidth) (hvalid : iqIssueDataValid s input p = true)
    (hlast : ∀ q, q < issueWidth → p < q → iqIssueDataValid s input q = true →
      (iqIssueData s input q).opUnit ≠ (iqIssueData s input p).opUnit) :
    indexNext s input index (iqIssueData s input p).opUnit =
      (dispatchedTo s input index p + 1) % unitNum (iqIssueData s input p).opUnit := by
  have hop := issueHasOpCmp_iff.2 ⟨hvalid, rfl⟩
  obtain ⟨hsend, hlt⟩ := sendIndex_eq h hp hop
  have hnum : issueOpNum s input (iqIssueData s input p).opUnit =
      rank (issueHasOpCmp s input (iqIssueData s input p).opUnit) p + 1 := by
    have hbehind : ∀ q, p + 1 ≤ q → q ≤ issueWidth →
        rank (issueHasOpCmp s input (iqIssueData s input p).opUnit) q =
          rank (issueHasOpCmp s input (iqIssueData s input p).opUnit) p + 1 := by
      intro q hpq
      induction q, hpq using Nat.le_induction with
      | base =>
          intro _
          rw [rank_succ, hop, if_pos rfl]
      | succ q hpq ih =>
          intro hq
          rw [rank_succ, ih (by omega), if_neg]
          intro hcmp
          obtain ⟨hvalidq, hkind⟩ := issueHasOpCmp_iff.1 hcmp
          exact hlast q (by omega) (by omega) hvalidq hkind
    rw [issueOpNum, countOne_eq_rank, hbehind issueWidth (by omega) (Nat.le_refl _)]
  obtain ⟨m, hm⟩ := unitNum_pow (iqIssueData s input p).opUnit
  have hunits := countOne_le (unitNum (iqIssueData s input p).opUnit)
    fun k => !input.issueFifoFull (iqIssueData s input p).opUnit k
  have hwidth := le_itemIdWidth (unitNum (iqIssueData s input p).opUnit)
  have hwrap : (rank (issueHasOpCmp s input (iqIssueData s input p).opUnit) p) %
      2 ^ itemIdWidth (unitNum (iqIssueData s input p).opUnit) =
      rank (issueHasOpCmp s input (iqIssueData s input p).opUnit) p := Nat.mod_eq_of_lt (by omega)
  rw [indexNext, hnum, hflush, Bool.not_false, Bool.true_and,
    if_pos (decide_eq_true (Nat.succ_ne_zero _)), Nat.add_sub_cancel, hwrap, dispatchedTo, hsend]
  conv_lhs => rw [hm, Nat.and_two_pow_sub_one_eq_mod, ← hm]

theorem indexNext_lt (hindex : ∀ u, index u < unitNum u) (u : OpUnit) :
    indexNext s input index u < unitNum u := by
  obtain ⟨m, hm⟩ := unitNum_pow u
  rw [indexNext]
  split
  · have hpos : 0 < unitNum u := Nat.lt_of_le_of_lt (Nat.zero_le _) (hindex u)
    conv_lhs => rw [hm, Nat.and_two_pow_sub_one_eq_mod, ← hm]
    exact Nat.mod_lt _ hpos
  · exact hindex u

theorem indexNext_kept {u : OpUnit} (h : input.issueIqFlush = true ∨ ∀ p, p < issueWidth →
    iqIssueDataValid s input p = true → (iqIssueData s input p).opUnit ≠ u) :
    indexNext s input index u = index u := by
  rw [indexNext]
  rcases h with hflush | hnone
  · rw [hflush]
    rfl
  · have hzero : issueOpNum s input u = 0 := by
      refine Nat.le_zero.1 (countOne_le_bound fun p hp hop => ?_)
      obtain ⟨hvalid, hkind⟩ := issueHasOpCmp_iff.1 hop
      exact absurd hkind (hnone p hp hvalid)
    rw [hzero, decide_eq_false (not_not.2 rfl), Bool.and_false]
    rfl

end Exact

/-- In every cycle of every run of the issue queue the selected operations are dispatched
without loss, to different units, and the round-robin indices move behind the last unit
used. -/
theorem dispatch_exact (buffer : Nat → IssueQueueItem) (history : List IssueQueueInput)
    (input : IssueQueueInput) {index : OpUnit → Nat} (hindex : ∀ u, index u < unitNum u) :
    let s := run issueQueueNext (issueQueueReset buffer) history
    (∀ p, p < issueWidth → iqIssueDataValid s input p = true → Dispatched s input index p) ∧
    (∀ p q, p < issueWidth → q < issueWidth → iqIssueDataValid s input p = true →
      iqIssueDataValid s input q = true →
      (iqIssueData s input p).opUnit = (iqIssueData s input q).opUnit →
      dispatchedTo s input index p = dispatchedTo s input index q → p = q) ∧
    (∀ u i, issueFifoPush s input index u i = true → ∃ p, p < issueWidth ∧
      iqIssueDataValid s input p = true ∧ (iqIssueData s input p).opUnit = u ∧
      dispatchedTo s input index p = i) ∧
    (∀ u, indexNext s input index u < unitNum u ∧
      ((input.issueIqFlush = true ∨ ∀ p, p < issueWidth → iqIssueDataValid s input p = true →
        (iqIssueData s input p).opUnit ≠ u) → indexNext s input index u = index u)) ∧
    (input.issueIqFlush = false → ∀ p, p < issueWidth → iqIssueDataValid s input p = true →
      (∀ q, q < issueWidth → p < q → iqIssueDataValid s input q = true →
        (iqIssueData s input q).opUnit ≠ (iqIssueData s input p).opUnit) →
      indexNext s input index (iqIssueData s input p).opUnit =
        (dispatchedTo s input index p + 1) % unitNum (iqIssueData s input p).opUnit) := by
  intro s
  have hreset : IqWellFormed (issueQueueReset buffer) := Nat.zero_le _
  have hall : Along issueQueueNext (fun _ _ => True) (issueQueueReset buffer) history :=
    along_of_forall fun _ _ _ => trivial
  have h : IqWellFormed s := invariant_run (fun _ _ hinv _ => iqWellFormed_next hinv) hreset hall
  refine ⟨fun p hp hvalid => dispatched h hindex hp hvalid,
    fun p q hp hq hvalidp hvalidq hkind hsame =>
      dispatchedTo_inj h hindex hp hq hvalidp hvalidq hkind hsame,
    fun u i hpush => ?_, fun u => ⟨indexNext_lt hindex u, indexNext_kept⟩,
    fun hflush p hp hvalid hlast => indexNext_last h hflush hp hvalid hlast⟩
  obtain ⟨p, hp, hcmp⟩ := anyBit_iff.1 hpush
  have hvalid := (issueHasOpCmp_iff.1 (Bool.and_eq_true_iff.1 hcmp).1).1
  obtain ⟨hkind, hunit⟩ := (sendInstCmp_iff hvalid).1 hcmp
  exact ⟨p, hp, hvalid, hkind.symm, hunit.symm⟩

/-- An arithmetic instruction whose sources are there. -/
def readyAdd (robId : Nat) : IssueQueueItem :=
  { ExecuteWbPack.zero.toReadregIssueOpInfo with
    enable := true, valid := true, robId := robId, src1Loaded := true, src2Loaded := true }

/-- A cycle that pushes `data` and finds every unit free. -/
def pushCycle (data : List IssueQueueItem) : IssueQueueInput where
  issueIqData := fun i => data.getD i (readyAdd 0)
  issueIqDataValid := fun i => decide (i < data.length)
  issueIqPush := true
  issueIqFlush := false
  stbufAllEmpty := true
  issueFifoFull := fun _ _ => false
  executeFeedbackPack := fun _ => ⟨false, 0, 0⟩
  wbFeedbackPack := fun _ => ⟨false, 0, 0⟩
  commitFeedbackPack :=
    ⟨false, false, 0, false, 0, false, fun _ => 0, fun _ => false, false, false, 0⟩

/-- Two ready additions, and the arithmetic index at the second unit. -/
theorem dispatch_twoAdds :
    let s := run issueQueueNext (issueQueueReset fun _ => readyAdd 0) [pushCycle [readyAdd 5, readyAdd 6]]
    let index : OpUnit → Nat := fun u => if u = .alu then 1 else 0
    iqIssueDataValid s (pushCycle []) 0 = true ∧ iqIssueDataValid s (pushCycle []) 1 = true ∧
      dispatchedTo s (pushCycle []) index 0 = 1 ∧ dispatchedTo s (pushCycle []) index 1 = 0 ∧
      Dispatched s (pushCycle []) index 0 ∧ Dispatched s (pushCycle []) index 1 := by
  intro s index
  have hvalid : iqIssueDataValid s (pushCycle []) 0 = true ∧
      iqIssueDataValid s (pushCycle []) 1 = true := by decide +kernel
  have h := @dispatch_exact (fun _ => readyAdd 0) [pushCycle [readyAdd 5, readyAdd 6]]
    (pushCycle []) index (fun u => by cases u <;> decide)
  exact ⟨hvalid.1, hvalid.2, by decide +kernel, by decide +kernel, h.1 0 (by decide) hvalid.1,
    h.1 1 (by decide) hvalid.2⟩

end DreamCore.Proofs
