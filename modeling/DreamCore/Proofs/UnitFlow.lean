import DreamCore.Model.UnitFlow
import DreamCore.Proofs.Dispatch
import DreamCore.Proofs.SentOperations

/-!
# The units answer for what they were sent

Every `handshake_dff` holds an operation that waits for an answer, every such operation is
in one of them, and no two hold the same.  With the units in the circuit nothing is assumed
of the answers any more.
-/

namespace DreamCore.Proofs

open DreamCore.Clocked DreamCore.Compaction DreamCore.Model DreamCore.Renaming DreamCore.Rtl

/-! ## Units and channels -/

theorem channelUnit_lt (j : Nat) : (channelUnit j).2 < unitNum (channelUnit j).1 := by
  unfold channelUnit
  split <;> decide

theorem channelUnit_inj : ∀ j, j < wbWidth → ∀ k, k < wbWidth → channelUnit j = channelUnit k →
    j = k := by decide

theorem exists_channel (u : OpUnit) {i : Nat} (hi : i < unitNum u) :
    ∃ j, j < wbWidth ∧ channelUnit j = (u, i) := by
  have hall : ∀ i, i < unitNum u → ∃ j, j < wbWidth ∧ channelUnit j = (u, i) := by
    cases u <;> decide
  exact hall i hi

section Units

variable {s : UnitFlowState} {x : UnitFlowInput} {u : OpUnit} {i : Nat}

theorem unitWe_hasData (h : unitWe s x u i = true) : (s.fifo u i).hasData = true := by
  cases u
  case lsu =>
    have hwe : (executeLsuInput s x i).lsuWbPortWe = true := h
    simp only [ExecuteLsuInput.lsuWbPortWe, ExecuteLsuInput.lsuWbPortFlush, Bool.not_eq_true',
      Bool.or_eq_false_iff] at hwe
    exact (Bool.not_eq_false' _).mp hwe.1.1.2
  all_goals exact (Bool.and_eq_true_iff.1 h).1

/-- A unit answers for the operation in front of it. -/
theorem answerTo_unit {op : ReadregIssueOpInfo} (hunit : op.opUnit = u)
    (hdata : (s.fifo u i).data = issueDataConverted op) : AnswerTo op (unitSendPack s x u i) := by
  cases u <;> refine ⟨congrArg (·.robId) hdata, congrArg (·.valid) hdata,
    congrArg (·.opUnit) hdata, congrArg (·.rdEnable) hdata, congrArg (·.needRename) hdata,
    congrArg (·.predicted) hdata, congrArg (·.checkpointId) hdata, congrArg (·.rdPhy) hdata,
    fun hbru => ?_⟩
  case bru =>
    have hlsu : issueIsLsu op = false := by simp [issueIsLsu, hunit]
    exact (congrArg (·.hasException) hdata).trans (if_neg (by rw [hlsu]; exact Bool.false_ne_true))
  all_goals exact absurd (hunit.symm.trans ((congrArg (·.opUnit) hdata).symm.trans hbru)) (by decide)

theorem enable_unit {op : ReadregIssueOpInfo} (hdata : (s.fifo u i).data = issueDataConverted op) :
    (unitSendPack s x u i).enable = op.enable := by
  cases u <;> exact congrArg (·.enable) hdata

end Units

/-! ## What the units hold -/

structure UnitsHold (s : UnitFlowState) (outstanding : List ReadregIssueOpInfo) : Prop where
  index : ∀ u, s.index u < unitNum u
  holds : ∀ u i, i < unitNum u → (s.fifo u i).hasData = true →
    ∃ op ∈ outstanding, op.opUnit = u ∧ (s.fifo u i).data = issueDataConverted op
  held : ∀ op ∈ outstanding, ∃ i, i < unitNum op.opUnit ∧
    s.fifo op.opUnit i = ⟨true, issueDataConverted op⟩
  apart : ∀ u i v k, i < unitNum u → k < unitNum v → (s.fifo u i).hasData = true →
    (s.fifo v k).hasData = true → (s.fifo u i).data.robId = (s.fifo v k).data.robId →
    (u, i) = (v, k)

section Answers

variable {s : UnitFlowState} {x : UnitFlowInput} {outstanding : List ReadregIssueOpInfo}

theorem mem_sentOps {p : Nat} (hp : p < issueWidth)
    (hvalid : iqIssueDataValid s.flow.queue (unitQueueInput s x) p = true) :
    iqIssueData s.flow.queue (unitQueueInput s x) p ∈ sentOps s.flow (unitInput s x) :=
  List.mem_map_of_mem (mem_kept.2 ⟨hp, hvalid⟩)

theorem unitAnswers_valid {j : Nat} (henable : (unitAnswers (unitInput s x) j).enable = true) :
    unitWe s x (channelUnit j).1 (channelUnit j).2 = true ∧
      unitAnswers (unitInput s x) j = unitSendPack s x (channelUnit j).1 (channelUnit j).2 := by
  cases hwe : unitWe s x (channelUnit j).1 (channelUnit j).2 with
  | false =>
      rw [unitAnswers, show (unitInput s x).unitValid j = false from hwe] at henable
      exact absurd henable Bool.false_ne_true
  | true => exact ⟨rfl, if_pos hwe⟩

/-- An answer is that of the operation in front of the unit. -/
theorem UnitsHold.answer (h : UnitsHold s outstanding) {j : Nat}
    (henable : (unitAnswers (unitInput s x) j).enable = true) :
    ∃ op ∈ outstanding, AnswerTo op (unitAnswers (unitInput s x) j) ∧
      (s.fifo (channelUnit j).1 (channelUnit j).2).data.robId = op.robId := by
  obtain ⟨hwe, heq⟩ := unitAnswers_valid henable
  obtain ⟨op, hop, hunit, hdata⟩ := h.holds _ _ (channelUnit_lt j) (unitWe_hasData hwe)
  rw [heq]
  exact ⟨op, hop, answerTo_unit hunit hdata, congrArg (·.robId) hdata⟩

abbrev UnitBuffersKept (s : UnitFlowState) (x : UnitFlowInput) : Prop :=
  BuffersKept s.flow.recovery (dataflowRecovery s.flow (unitInput s x))

/-- The decode FIFO delivers decoder outputs, none of them rejected with a register, and the
two buffers keep what is in flight. -/
structure UnitFlowAllowed (s : UnitFlowState) (x : UnitFlowInput) : Prop where
  buffers : UnitBuffersKept s x
  bundle : DecodedBundle x.outside.backend.bundle
  accept : NoRejectedRename (dataflowCheckpoint s.flow (unitInput s x)) s.flow.back
    (dataflowBack s.flow (unitInput s x))

/-- The units meet what was assumed of them. -/
theorem UnitsHold.answersSent (h : UnitsHold s outstanding) (hx : UnitFlowAllowed s x)
    (regs : Nat → Option Nat) :
    AnswersSent ⟨⟨s.flow, regs⟩, outstanding⟩ (unitInput s x) where
  buffers := hx.buffers
  bundle := hx.bundle
  accept := hx.accept
  answer := fun _ j _ henable => by
    obtain ⟨op, hop, hanswer, _⟩ := h.answer henable
    exact ⟨op, hop, hanswer⟩
  once := fun _ i hi j hj hei hej heq => by
    obtain ⟨op, _, hanswer, hid⟩ := h.answer hei
    obtain ⟨op', _, hanswer', hid'⟩ := h.answer hej
    have hsame : op.robId = op'.robId := hanswer.robId.symm.trans (heq.trans hanswer'.robId)
    refine channelUnit_inj i hi j hj (h.apart _ _ _ _ (channelUnit_lt i) (channelUnit_lt j)
      (unitWe_hasData (unitAnswers_valid hei).1) (unitWe_hasData (unitAnswers_valid hej).1) ?_)
    exact hid.trans (hsame.trans hid'.symm)

end Answers

/-! ## One cycle -/

/-- A cycle without a flush. -/
structure UnitCycle (m : RegMap) (s : UnitFlowState) (regs : Nat → Option Nat)
    (outstanding : List ReadregIssueOpInfo) (x : UnitFlowInput) : Prop where
  sent : SentInv m ⟨⟨s.flow, regs⟩, outstanding⟩
  units : UnitsHold s outstanding
  flow : OperandCycle m s.flow regs (unitInput s x)

namespace UnitCycle

variable {m : RegMap} {s : UnitFlowState} {regs : Nat → Option Nat}
  {outstanding : List ReadregIssueOpInfo} {x : UnitFlowInput}
  (h : UnitCycle m s regs outstanding x)
include h

theorem flush_eq : (unitQueueInput s x).issueIqFlush = false := h.flow.flow.flush

/-- What a unit has in front of it after the cycle is new or was there and is kept. -/
theorem fifo_next {u : OpUnit} {i : Nat} (hdata : ((unitFlowNext s x).fifo u i).hasData = true) :
    (∃ p, p < issueWidth ∧ iqIssueDataValid s.flow.queue (unitQueueInput s x) p = true ∧
      (iqIssueData s.flow.queue (unitQueueInput s x) p).opUnit = u ∧
      dispatchedTo s.flow.queue (unitQueueInput s x) s.index p = i ∧
      ((unitFlowNext s x).fifo u i).data =
        issueDataConverted (iqIssueData s.flow.queue (unitQueueInput s x) p)) ∨
      ((unitFlowNext s x).fifo u i = s.fifo u i ∧ unitWe s x u i = false) := by
  cases hpush : issueFifoPush s.flow.queue (unitQueueInput s x) s.index u i with
  | true =>
      left
      obtain ⟨p, hp, hcmp⟩ := anyBit_iff.1 hpush
      have hvalid := (issueHasOpCmp_iff.1 (Bool.and_eq_true_iff.1 hcmp).1).1
      obtain ⟨rfl, rfl⟩ := (sendInstCmp_iff hvalid).1 hcmp
      have htaken := (dispatched h.flow.inv.wf h.units.index hp hvalid).taken h.flush_eq
        (s.fifo _ _) (unitWe s x _ _) rfl
      refine ⟨p, hp, hvalid, rfl, rfl, ?_⟩
      rw [unitFlowNext, h.flush_eq]
      exact congrArg (·.data) htaken
  | false =>
      right
      have hnext : (unitFlowNext s x).fifo u i = if unitWe s x u i && (s.fifo u i).hasData then
          ⟨false, (s.fifo u i).data⟩ else s.fifo u i := by
        show handshakeNext _ _ _ _ _ = _
        rw [handshakeNext, h.flush_eq, if_neg Bool.false_ne_true, hpush, Bool.false_and,
          if_neg Bool.false_ne_true]
      cases hwe : unitWe s x u i with
      | true =>
          rw [hnext, hwe, unitWe_hasData hwe] at hdata
          exact absurd hdata Bool.false_ne_true
      | false =>
          rw [hnext, hwe]
          exact ⟨rfl, rfl⟩

theorem moving_nodup :
    ((outstanding ++ sentOps s.flow (unitInput s x)).map (·.robId)).Nodup :=
  (List.nodup_append.1 (((moved_ids _ h.flow).nodup_iff).2 (all_nodup h.sent h.flow))).2.1

theorem sent_new {op : ReadregIssueOpInfo} (hop : op ∈ outstanding)
    {sent : ReadregIssueOpInfo} (hsent : sent ∈ sentOps s.flow (unitInput s x)) :
    op.robId ≠ sent.robId := fun heq => by
  have hnodup := h.moving_nodup
  rw [List.map_append] at hnodup
  exact List.disjoint_of_nodup_append hnodup (List.mem_map_of_mem hop)
    (heq ▸ List.mem_map_of_mem hsent)

/-- Ports with one operation are one port. -/
theorem port_inj {p q : Nat} (hp : p < issueWidth) (hq : q < issueWidth)
    (hvalidp : iqIssueDataValid s.flow.queue (unitQueueInput s x) p = true)
    (hvalidq : iqIssueDataValid s.flow.queue (unitQueueInput s x) q = true)
    (heq : (iqIssueData s.flow.queue (unitQueueInput s x) p).robId =
      (iqIssueData s.flow.queue (unitQueueInput s x) q).robId) : p = q := by
  have hnodup := h.moving_nodup
  rw [List.map_append, sentOps, List.map_map] at hnodup
  exact List.inj_on_of_nodup_map (List.nodup_append.1 hnodup).2.1 (mem_kept.2 ⟨hp, hvalidp⟩)
    (mem_kept.2 ⟨hq, hvalidq⟩) heq

theorem mem_next {op : ReadregIssueOpInfo} :
    op ∈ (sentNext ⟨⟨s.flow, regs⟩, outstanding⟩ (unitInput s x)).outstanding ↔
      (op ∈ outstanding ∨ op ∈ sentOps s.flow (unitInput s x)) ∧
        op.robId ∉ answeredIds (unitInput s x) := by
  rw [outstanding_eq _ h.flow.flow.flush, List.mem_filter, List.mem_append, decide_eq_true_iff]

/-- The ids that are answered are those in front of the units that hand over. -/
theorem answered_iff {id : Nat} : id ∈ answeredIds (unitInput s x) ↔
    ∃ u i, i < unitNum u ∧ unitWe s x u i = true ∧ (s.fifo u i).data.robId = id := by
  constructor
  · intro hid
    obtain ⟨j, hj, rfl⟩ := List.mem_map.1 hid
    obtain ⟨_, henable⟩ := mem_kept.1 hj
    obtain ⟨op, _, hanswer, hfifo⟩ := h.units.answer henable
    exact ⟨_, _, channelUnit_lt j, (unitAnswers_valid henable).1, hfifo.trans hanswer.robId.symm⟩
  · rintro ⟨u, i, hi, hwe, rfl⟩
    obtain ⟨j, hj, hchannel⟩ := exists_channel u hi
    obtain ⟨op, hop, hunit, hdata⟩ := h.units.holds u i hi (unitWe_hasData hwe)
    have hpack : unitAnswers (unitInput s x) j = unitSendPack s x u i := by
      rw [unitAnswers]
      show (if unitWe s x (channelUnit j).1 (channelUnit j).2 then
        unitSendPack s x (channelUnit j).1 (channelUnit j).2 else _) = _
      rw [hchannel, if_pos hwe]
    obtain ⟨_, _, _, _, hfor⟩ := h.sent.outstanding op hop
    refine List.mem_map.2 ⟨j, mem_kept.2 ⟨hj, ?_⟩, ?_⟩
    · rw [hpack, enable_unit hdata]
      exact hfor.enable
    · rw [hpack, (answerTo_unit hunit hdata).robId, hdata]
      rfl

theorem kept_unanswered {u : OpUnit} {i : Nat} (hi : i < unitNum u)
    (hdata : (s.fifo u i).hasData = true) (hwe : unitWe s x u i = false) :
    (s.fifo u i).data.robId ∉ answeredIds (unitInput s x) := by
  intro hid
  obtain ⟨v, k, hk, hwev, heq⟩ := h.answered_iff.1 hid
  obtain ⟨rfl, rfl⟩ := Prod.mk.inj (h.units.apart _ _ _ _ hk hi (unitWe_hasData hwev) hdata heq)
  exact Bool.false_ne_true (hwe.symm.trans hwev)

theorem sent_unanswered {op : ReadregIssueOpInfo} (hop : op ∈ sentOps s.flow (unitInput s x)) :
    op.robId ∉ answeredIds (unitInput s x) := by
  intro hid
  obtain ⟨u, i, hi, hwe, heq⟩ := h.answered_iff.1 hid
  obtain ⟨op', hop', _, hdata⟩ := h.units.holds u i hi (unitWe_hasData hwe)
  exact h.sent_new hop' hop ((congrArg (·.robId) hdata).symm.trans heq)

theorem holds_next (u : OpUnit) (i : Nat) (hi : i < unitNum u)
    (hdata : ((unitFlowNext s x).fifo u i).hasData = true) :
    ∃ op ∈ (sentNext ⟨⟨s.flow, regs⟩, outstanding⟩ (unitInput s x)).outstanding,
      op.opUnit = u ∧ ((unitFlowNext s x).fifo u i).data = issueDataConverted op := by
  rcases h.fifo_next hdata with ⟨p, hp, hvalid, hunit, _, hnew⟩ | ⟨hsame, hwe⟩
  · have hsent := mem_sentOps hp hvalid
    exact ⟨_, h.mem_next.2 ⟨Or.inr hsent, h.sent_unanswered hsent⟩, hunit, hnew⟩
  · rw [hsame] at hdata ⊢
    obtain ⟨op, hop, hunit, heq⟩ := h.units.holds u i hi hdata
    have hsilent := h.kept_unanswered hi hdata hwe
    rw [heq] at hsilent
    exact ⟨op, h.mem_next.2 ⟨Or.inl hop, hsilent⟩, hunit, heq⟩

theorem held_next (op : ReadregIssueOpInfo)
    (hop : op ∈ (sentNext ⟨⟨s.flow, regs⟩, outstanding⟩ (unitInput s x)).outstanding) :
    ∃ i, i < unitNum op.opUnit ∧
      (unitFlowNext s x).fifo op.opUnit i = ⟨true, issueDataConverted op⟩ := by
  obtain ⟨hold | hsent, hsilent⟩ := h.mem_next.1 hop
  · obtain ⟨i, hi, hfifo⟩ := h.units.held op hold
    have hwe : unitWe s x op.opUnit i = false := by
      by_contra hwe
      refine hsilent (h.answered_iff.2 ⟨_, i, hi, Bool.not_eq_false _ ▸ hwe, ?_⟩)
      rw [hfifo]
      rfl
    refine ⟨i, hi, ?_⟩
    show handshakeNext _ _ _ _ _ = _
    rw [handshakeNext, h.flush_eq, if_neg Bool.false_ne_true, hwe, handshakeFull, hfifo]
    simp
  · obtain ⟨p, hp, rfl⟩ := List.mem_map.1 hsent
    obtain ⟨hp, hvalid⟩ := mem_kept.1 hp
    have hd := dispatched h.flow.inv.wf h.units.index hp hvalid
    refine ⟨_, hd.unit_lt, ?_⟩
    show handshakeNext _ _ _ _ _ = _
    rw [h.flush_eq]
    exact hd.taken h.flush_eq _ _ rfl

theorem apart_next (u : OpUnit) (i : Nat) (v : OpUnit) (k : Nat) (hi : i < unitNum u)
    (hk : k < unitNum v) (hdata : ((unitFlowNext s x).fifo u i).hasData = true)
    (hdata' : ((unitFlowNext s x).fifo v k).hasData = true)
    (heq : ((unitFlowNext s x).fifo u i).data.robId = ((unitFlowNext s x).fifo v k).data.robId) :
    (u, i) = (v, k) := by
  rcases h.fifo_next hdata with ⟨p, hp, hvalid, rfl, rfl, hnew⟩ | ⟨hsame, _⟩
  · rcases h.fifo_next hdata' with ⟨q, hq, hvalidq, rfl, rfl, hnewq⟩ | ⟨hsame, _⟩
    · rw [hnew, hnewq] at heq
      obtain rfl := h.port_inj hp hq hvalid hvalidq heq
      rfl
    · rw [hsame] at hdata' heq
      obtain ⟨op, hop, _, hop'⟩ := h.units.holds v k hk hdata'
      rw [hnew, hop'] at heq
      exact (h.sent_new hop (mem_sentOps hp hvalid) heq.symm).elim
  · rcases h.fifo_next hdata' with ⟨q, hq, hvalidq, rfl, rfl, hnewq⟩ | ⟨hsame', _⟩
    · rw [hsame] at hdata heq
      obtain ⟨op, hop, _, hop'⟩ := h.units.holds u i hi hdata
      rw [hnewq, hop'] at heq
      exact (h.sent_new hop (mem_sentOps hq hvalidq) heq).elim
    · rw [hsame] at hdata heq
      rw [hsame'] at hdata' heq
      exact h.units.apart u i v k hi hk hdata hdata' heq

theorem units_next : UnitsHold (unitFlowNext s x)
    (sentNext ⟨⟨s.flow, regs⟩, outstanding⟩ (unitInput s x)).outstanding :=
  ⟨indexNext_lt h.units.index, h.holds_next, h.held_next, h.apart_next⟩

end UnitCycle

/-! ## Every run -/

structure TrackedUnits where
  units : UnitFlowState
  regs : Nat → Option Nat

def trackedUnitsNext (t : TrackedUnits) (x : UnitFlowInput) : TrackedUnits where
  units := unitFlowNext t.units x
  regs := (trackedNext ⟨t.units.flow, t.regs⟩ (unitInput t.units x)).regs

def trackedUnitsReset (robBuffer : Nat → RobItem) (checkpoints : Nat → Checkpoint)
    (buffer : Nat → IssueQueueItem) : TrackedUnits :=
  ⟨unitFlowReset robBuffer checkpoints buffer, (trackedReset robBuffer checkpoints buffer).regs⟩

def unitFifo (s : UnitFlowState) (j : Nat) : HandshakeDff :=
  s.fifo (channelUnit j).1 (channelUnit j).2

/-- The ids of the operations in front of the units. -/
def fifoIds (s : UnitFlowState) : List Nat :=
  (kept (fun j => (unitFifo s j).hasData) wbWidth).map fun j => (unitFifo s j).data.robId

/-- The ids of the operations between rename and write-back. -/
def placedIds (s : UnitFlowState) : List Nat :=
  (heldOps s.flow).map (·.robId) ++ fifoIds s

/-- No two operations between rename and write-back are of one entry, each is of an unfinished
one, and outside a walk every entry without an answer has its operation there. -/
structure OnePlaceEach (s : UnitFlowState) : Prop where
  distinct : (placedIds s).Nodup
  unfinished : ∀ id ∈ placedIds s, ∃ k, ∃ hk : k < s.flow.back.rob.entries.length,
    id = s.flow.back.rob.idAt k ∧ Unanswered s.flow k hk
  complete : s.flow.back.commit.curState = .normal →
    ∀ k, ∀ hk : k < s.flow.back.rob.entries.length, Unanswered s.flow k hk →
      s.flow.back.rob.idAt k ∈ placedIds s

/-- What a channel delivers is for the destination of an entry without an answer and is what the
unit makes of the entry's operation, whose sources are the values delivered for the registers
they were mapped to. -/
def ResultsComputed (t : TrackedUnits) (x : UnitFlowInput) : Prop :=
  ∀ j, j < executeUnitNum → (executeFeedback t.units.flow (unitInput t.units x) j).enable = true →
    ∃ k, ∃ hk : k < t.units.flow.back.rob.entries.length, ∃ op : ReadregIssueOpInfo,
      Unanswered t.units.flow k hk ∧
      SentFor t.units.flow.back.rob.entries[k] op.toRenameReadregOpInfo ∧
      OperandsLoaded t.regs op ∧ (unitFifo t.units j).data = issueDataConverted op ∧
      (executeFeedback t.units.flow (unitInput t.units x) j).phyId =
        t.units.flow.back.rob.entries[k].item.newPhyRegId ∧
      (executeFeedback t.units.flow (unitInput t.units x) j).value =
        (unitSendPack t.units x (channelUnit j).1 (channelUnit j).2).rdValue

structure UnitsInv (m : RegMap) (outstanding : List ReadregIssueOpInfo) (t : TrackedUnits) :
    Prop where
  sent : SentInv m ⟨⟨t.units.flow, t.regs⟩, outstanding⟩
  units : UnitsHold t.units outstanding

section Run

variable {m : RegMap} {outstanding : List ReadregIssueOpInfo} {t : TrackedUnits}
  {x : UnitFlowInput}

theorem UnitsHold.fifoIds_perm {s : UnitFlowState} (h : UnitsHold s outstanding)
    (hnodup : (outstanding.map (·.robId)).Nodup) :
    (fifoIds s).Perm (outstanding.map (·.robId)) := by
  have hfifo : (fifoIds s).Nodup := by
    refine (List.nodup_range.filter _).map_on fun i hi j hj heq => ?_
    obtain ⟨hi, hidata⟩ := mem_kept.1 hi
    obtain ⟨hj, hjdata⟩ := mem_kept.1 hj
    exact channelUnit_inj i hi j hj
      (h.apart _ _ _ _ (channelUnit_lt i) (channelUnit_lt j) hidata hjdata heq)
  refine (List.perm_ext_iff_of_nodup hfifo hnodup).2 fun id => ⟨fun hid => ?_, fun hid => ?_⟩
  · obtain ⟨j, hj, rfl⟩ := List.mem_map.1 hid
    obtain ⟨op, hop, _, hdata⟩ := h.holds _ _ (channelUnit_lt j) (mem_kept.1 hj).2
    exact List.mem_map.2 ⟨op, hop, (congrArg (·.robId) hdata).symm⟩
  · obtain ⟨op, hop, rfl⟩ := List.mem_map.1 hid
    obtain ⟨i, hi, hheld⟩ := h.held op hop
    obtain ⟨j, hj, hchannel⟩ := exists_channel _ hi
    have hat : unitFifo s j = ⟨true, issueDataConverted op⟩ := by
      rw [unitFifo, hchannel]
      exact hheld
    refine List.mem_map.2 ⟨j, mem_kept.2 ⟨hj, ?_⟩, ?_⟩
    · rw [hat]
    · rw [hat]
      rfl

theorem UnitsInv.onePlace (h : UnitsInv m outstanding t) : OnePlaceEach t.units := by
  have hout : (outstanding.map (·.robId)).Nodup := (List.nodup_append.1 h.sent.distinct).2.1
  have hperm : (placedIds t.units).Perm
      (unansweredIds ⟨⟨t.units.flow, t.regs⟩, outstanding⟩) :=
    (h.units.fifoIds_perm hout).append_left _
  refine ⟨hperm.nodup_iff.2 h.sent.distinct, fun id hid => ?_, fun hnormal k hk hun =>
    hperm.mem_iff.2 (h.sent.complete hnormal k hk hun)⟩
  rcases List.mem_append.1 (hperm.mem_iff.1 hid) with hheld | hsent
  · obtain ⟨op, hop, rfl⟩ := List.mem_map.1 hheld
    obtain ⟨k, hk, hat, hun, _⟩ := held_inPlace h.sent.operands hop
    exact ⟨k, hk, hat, hun⟩
  · obtain ⟨op, hop, rfl⟩ := List.mem_map.1 hsent
    obtain ⟨k, hk, hat, hun, _⟩ := h.sent.outstanding op hop
    exact ⟨k, hk, hat, hun⟩

theorem UnitsInv.computed (h : UnitsInv m outstanding t) (hx : UnitFlowAllowed t.units x) :
    ResultsComputed t x := by
  intro j _ henable
  have hallowed := h.sent.allowed (h.units.answersSent hx t.regs)
  cases hflush : (dataflowFeedback t.units.flow (unitInput t.units x)).flushing with
  | true => simp [executeFeedback, unitWbPortWe, hflush] at henable
  | false =>
      have hw := (flowCycle_of_quiet h.sent.operands.results hallowed hflush).enable_iff.1 henable
      obtain ⟨hphy, hvalue⟩ := FlowCycle.channel_eq t.units.flow hw
      obtain ⟨hwe, hpack⟩ := unitAnswers_valid hw.1
      obtain ⟨op, hop, hunit, hdata⟩ := h.units.holds _ _ (channelUnit_lt j) (unitWe_hasData hwe)
      obtain ⟨k, hk, _, hun, hfor⟩ := h.sent.outstanding op hop
      refine ⟨k, hk, op, hun, hfor, h.sent.loaded op hop, hdata, ?_, ?_⟩
      · rw [hphy, hpack, (answerTo_unit hunit hdata).rdPhy]
        exact hfor.rd
      · rw [hvalue, hpack]

theorem unitsHold_next (h : UnitsInv m outstanding t) (hx : UnitFlowAllowed t.units x) :
    UnitsHold (unitFlowNext t.units x)
      (sentNext ⟨⟨t.units.flow, t.regs⟩, outstanding⟩ (unitInput t.units x)).outstanding := by
  have hallowed := h.sent.allowed (h.units.answersSent hx t.regs)
  cases hflush : (dataflowFeedback t.units.flow (unitInput t.units x)).flushing with
  | false =>
      exact UnitCycle.units_next ⟨h.sent, h.units,
        ⟨flowCycle_of_quiet h.sent.operands.results hallowed hflush, h.sent.operands⟩⟩
  | true =>
      have hnone : (sentNext ⟨⟨t.units.flow, t.regs⟩, outstanding⟩
        (unitInput t.units x)).outstanding = [] := if_pos hflush
      have hempty : ∀ u i, ((unitFlowNext t.units x).fifo u i).hasData = false := fun u i => by
        have hnext : (unitFlowNext t.units x).fifo u i = handshakeReset := if_pos hflush
        rw [hnext]
        rfl
      rw [hnone]
      exact ⟨indexNext_lt h.units.index,
        fun u i _ hdata => absurd ((hempty u i).symm.trans hdata) Bool.false_ne_true,
        fun op hop => absurd hop List.not_mem_nil,
        fun u i _ _ _ _ hdata => absurd ((hempty u i).symm.trans hdata) Bool.false_ne_true⟩

theorem unitsInv_next (h : UnitsInv m outstanding t) (hx : UnitFlowAllowed t.units x) :
    UnitsInv (retiredMap m t.units.flow.back (leavingNum t.units.flow (unitInput t.units x)))
      (sentNext ⟨⟨t.units.flow, t.regs⟩, outstanding⟩ (unitInput t.units x)).outstanding
      (trackedUnitsNext t x) := by
  have hsent := sentInv_next h.sent (h.units.answersSent hx t.regs)
  have hunits := unitsHold_next h hx
  constructor
  · exact hsent
  · exact hunits

theorem unitsInv_reset (robBuffer : Nat → RobItem) (checkpoints : Nat → Checkpoint)
    (buffer : Nat → IssueQueueItem) :
    UnitsInv (fun a => if a ∈ archRegs then a else 0) []
      (trackedUnitsReset robBuffer checkpoints buffer) where
  sent := sentInv_reset robBuffer checkpoints buffer
  units := by
    refine ⟨fun u => ?_, fun _ _ _ hdata => absurd hdata Bool.false_ne_true,
      fun _ hop => absurd hop List.not_mem_nil,
      fun _ _ _ _ _ _ hdata => absurd hdata Bool.false_ne_true⟩
    cases u <;> exact Nat.succ_pos _

end Run

/-- In every run over decoded instructions, whatever stalls and is flushed when: no operation
is lost or duplicated between rename and write-back, the answers are what the circuit relies
on, and every result is what its unit makes of the results its operation is mapped to. -/
theorem operations_in_one_place (robBuffer : Nat → RobItem) (checkpoints : Nat → Checkpoint)
    (buffer : Nat → IssueQueueItem) {inputs : List UnitFlowInput}
    (h : Along trackedUnitsNext (fun t x => UnitFlowAllowed t.units x)
      (trackedUnitsReset robBuffer checkpoints buffer) inputs) :
    Always trackedUnitsNext (fun t => OnePlaceEach t.units ∧ OperandsTracked ⟨t.units.flow, t.regs⟩)
        (trackedUnitsReset robBuffer checkpoints buffer) inputs ∧
      Along trackedUnitsNext (fun t x => DataflowAllowed t.units.flow (unitInput t.units x) ∧
        IssuedComplete ⟨t.units.flow, t.regs⟩ (unitInput t.units x) ∧
        ResultsDistinct t.units.flow (unitInput t.units x) ∧ ResultsComputed t x)
        (trackedUnitsReset robBuffer checkpoints buffer) inputs := by
  have hstep : ∀ (t : TrackedUnits) (x : UnitFlowInput),
      (∃ m outstanding, UnitsInv m outstanding t) → UnitFlowAllowed t.units x →
      ∃ m outstanding, UnitsInv m outstanding (trackedUnitsNext t x) :=
    fun t x ⟨_, _, hinv⟩ hx => ⟨_, _, unitsInv_next hinv hx⟩
  have hreset :
      ∃ m outstanding, UnitsInv m outstanding (trackedUnitsReset robBuffer checkpoints buffer) :=
    ⟨_, _, unitsInv_reset robBuffer checkpoints buffer⟩
  refine ⟨(always_of_step hstep hreset h).mono fun t ⟨_, _, hinv⟩ =>
    ⟨hinv.onePlace, hinv.sent.operands.input, hinv.sent.operands.queue⟩, ?_⟩
  refine (h.strengthen hstep hreset).mono fun t x ⟨⟨_, _, hinv⟩, hx⟩ => ?_
  have hallowed := hinv.sent.allowed (hinv.units.answersSent hx t.regs)
  exact ⟨hallowed, issuedComplete hinv.sent.operands hallowed,
    resultsDistinct hinv.sent.operands hallowed, hinv.computed hx⟩

/-! ## Two dependent additions -/

/-- A cycle in which decode offers the bundle and nothing happens outside. -/
def offeredUnits (bundle : List DecodeRenamePack) : UnitFlowInput :=
  ⟨plainCycle (offer bundle), true, 0, false, false, 0, false, 0⟩

theorem offeredUnits_allowed {s : UnitFlowState} {bundle : List DecodeRenamePack}
    (hbundle : DecodedBundle bundle) (hvalid : ∀ op ∈ bundle, op.valid = true)
    (hbuffers : UnitBuffersKept s (offeredUnits bundle)) :
    UnitFlowAllowed s (offeredUnits bundle) where
  buffers := hbuffers
  bundle := hbundle
  accept := fun _ i _ hrev _ _ => hvalid _
    (@revPack_mem (dataflowCheckpoint s.flow (unitInput s (offeredUnits bundle))) s.flow.back
      (dataflowBack s.flow (unitInput s (offeredUnits bundle))) i hrev)

/-- `addi x5, x0, 2` and `add x6, x5, x5`, then cycles without new operations. -/
def additionRun (n : Nat) : List UnitFlowInput :=
  offeredUnits ([fetched 0x80000000 0x00200293, fetched 0x80000004 0x00528333].map decode) ::
    List.replicate n (offeredUnits [])

theorem additionRun_allowed {s : UnitFlowState} {n : Nat} {x : UnitFlowInput}
    (hx : x ∈ additionRun n) (hbuffers : UnitBuffersKept s x) : UnitFlowAllowed s x := by
  rcases List.mem_cons.1 hx with rfl | hquiet
  · exact offeredUnits_allowed
      (decodedBundle_map (by decide) (by decide) (by decide) (by decide)) (by decide) hbuffers
  · obtain rfl := List.eq_of_mem_replicate hquiet
    exact offeredUnits_allowed nothing_decoded (by simp) hbuffers

/-- Reset with nothing in the entries of the buffers. -/
def zeroUnits : TrackedUnits :=
  trackedUnitsReset (fun _ => RobItem.zero) (fun _ => Checkpoint.zero) fun _ => tItemEmpty

def afterAdds (n : Nat) : TrackedUnits := run trackedUnitsNext zeroUnits (additionRun n)

/-- Four cycles on, the first addition is in front of its unit and the second in the queue;
two cycles later both are answered and the second one's register, 32, holds the sum. -/
theorem operations_in_one_place_dependentAdds :
    (Always trackedUnitsNext (fun t => OnePlaceEach t.units ∧ OperandsTracked ⟨t.units.flow, t.regs⟩)
        zeroUnits (additionRun 5) ∧
      Along trackedUnitsNext (fun t x => DataflowAllowed t.units.flow (unitInput t.units x) ∧
        IssuedComplete ⟨t.units.flow, t.regs⟩ (unitInput t.units x) ∧
        ResultsDistinct t.units.flow (unitInput t.units x) ∧ ResultsComputed t x)
        zeroUnits (additionRun 5)) ∧
    placedIds (afterAdds 3).units = [1, 0] ∧ placedIds (afterAdds 5).units = [] ∧
      (afterAdds 5).regs 32 = some 4 := by
  have hbuffers : Along trackedUnitsNext (fun t x => UnitBuffersKept t.units x) zeroUnits
      (additionRun 5) := by decide +kernel
  have hmem : Along trackedUnitsNext (fun _ x => x ∈ additionRun 5) zeroUnits (additionRun 5) :=
    along_of_forall fun _ _ hx => hx
  exact ⟨operations_in_one_place (fun _ => RobItem.zero) (fun _ => Checkpoint.zero)
    (fun _ => tItemEmpty) ((hmem.and hbuffers).mono fun _ _ h => additionRun_allowed h.1 h.2),
    by decide +kernel, by decide +kernel, by decide +kernel⟩

end DreamCore.Proofs
