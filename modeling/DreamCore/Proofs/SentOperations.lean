import DreamCore.Proofs.OperandFlow

/-!
# Operations sent to a unit

Beside the tracked circuit runs the list of the operations the issue queue has sent and no
unit has answered for.  Of the units only this much is assumed: what one hands over is the
result of an operation on the list, and no two answer for one operation in one cycle.  The
operations between rename and the units then have an entry each, and what was assumed of
the answers follows.
-/

namespace DreamCore.Proofs

open DreamCore.Clocked DreamCore.Compaction DreamCore.Model DreamCore.Renaming DreamCore.Rtl

/-! ## The operations on the way -/

section Cycle

variable (s : DataflowState) (x : DataflowInput)

/-- What the issue queue sends in this cycle. -/
def sentOps : List ReadregIssueOpInfo :=
  (kept (iqIssueDataValid s.queue (dataflowQueueInput s x)) issueWidth).map
    (iqIssueData s.queue (dataflowQueueInput s x))

/-- The ids of the instructions the units answer for. -/
def answeredIds : List Nat :=
  (kept (fun j => (unitAnswers x j).enable) wbWidth).map fun j => (unitAnswers x j).robId

/-- The ids of the operations that enter behind rename. -/
def enteringIds : List Nat :=
  if dataflowStall s x then []
  else (kept (dataflowRename s x).sendEnable renameWidth).map s.back.rob.newId

end Cycle

/-- The circuit and the operations that wait for an answer. -/
structure SentState where
  tracked : TrackedState
  outstanding : List ReadregIssueOpInfo

def sentNext (t : SentState) (x : DataflowInput) : SentState where
  tracked := trackedNext t.tracked x
  outstanding :=
    if (dataflowFeedback t.tracked.machine x).flushing then []
    else (t.outstanding ++ sentOps t.tracked.machine x).filter fun op =>
      decide (op.robId ∉ answeredIds x)

def sentReset (robBuffer : Nat → RobItem) (checkpoints : Nat → Checkpoint)
    (buffer : Nat → IssueQueueItem) : SentState := ⟨trackedReset robBuffer checkpoints buffer, []⟩

/-- Every operation behind rename that no unit has answered for. -/
def unansweredIds (t : SentState) : List Nat :=
  (heldOps t.tracked.machine).map (·.robId) ++ t.outstanding.map (·.robId)

/-! ## The assumptions on a cycle -/

/-- The pack carries the result of the operation. -/
structure AnswerTo (op : ReadregIssueOpInfo) (w : ExecuteWbPack) : Prop where
  robId : w.robId = op.robId
  valid : w.valid = op.valid
  opUnit : w.opUnit = op.opUnit
  rdEnable : w.rdEnable = op.rdEnable
  needRename : w.needRename = op.needRename
  predicted : w.predicted = op.predicted
  checkpointId : w.checkpointId = op.checkpointId
  rdPhy : w.rdPhy = op.rdPhy
  branch : w.opUnit = .bru → w.hasException = op.hasException

/-- The decode FIFO delivers decoder outputs, none of them rejected with a register, the two
buffers keep what is in flight, and outside a flush every answer is for an operation that
waits for one, each once. -/
structure AnswersSent (t : SentState) (x : DataflowInput) : Prop where
  buffers : BuffersKept t.tracked.machine.recovery (dataflowRecovery t.tracked.machine x)
  bundle : DecodedBundle x.outside.backend.bundle
  accept : NoRejectedRename (dataflowCheckpoint t.tracked.machine x) t.tracked.machine.back
    (dataflowBack t.tracked.machine x)
  answer : (dataflowFeedback t.tracked.machine x).flushing = false → ∀ j, j < wbWidth →
    (unitAnswers x j).enable = true → ∃ op ∈ t.outstanding, AnswerTo op (unitAnswers x j)
  once : (dataflowFeedback t.tracked.machine x).flushing = false → ∀ i, i < wbWidth →
    ∀ j, j < wbWidth → (unitAnswers x i).enable = true → (unitAnswers x j).enable = true →
    (unitAnswers x i).robId = (unitAnswers x j).robId → i = j

/-! ## Loaded sources -/

/-- Both sources of an accepted operation are there and are what the scoreboard says. -/
structure OperandsLoaded (regs : Nat → Option Nat) (op : ReadregIssueOpInfo) : Prop where
  src1 : op.valid = true →
    expectedSource regs op.rs1NeedMap op.arg1Src op.imm op.rs1Phy = some op.src1Value
  src2 : op.valid = true →
    expectedSource regs op.rs2NeedMap op.arg2Src op.imm op.rs2Phy = some op.src2Value

section Loaded

variable {regs regs' : Nat → Option Nat} {op : ReadregIssueOpInfo}

theorem OperandsFollow.loaded (h : OperandsFollow regs op) (hsrc1 : op.src1Loaded = true)
    (hsrc2 : op.src2Loaded = true) : OperandsLoaded regs op := by
  refine ⟨fun hvalid => ?_, fun hvalid => ?_⟩
  · rw [← h.src1 hvalid, hsrc1]
    rfl
  · rw [← h.src2 hvalid, hsrc2]
    rfl

/-- A value the scoreboard has stays while the register is in use. -/
theorem OperandsLoaded.next {phyf : PhyRegfileState} {execute wb : Nat → FeedbackChannel}
    (hfeed : OperandFeed phyf execute wb regs regs' op.toRenameReadregOpInfo)
    (h : OperandsLoaded regs op) : OperandsLoaded regs' op where
  src1 := fun hvalid => (waiting_source hfeed.rs1
    ⟨fun _ hv => (h.src1 hvalid).trans hv, fun hnone => nomatch hnone⟩).right _ rfl
  src2 := fun hvalid => (waiting_source hfeed.rs2
    ⟨fun _ hv => (h.src2 hvalid).trans hv, fun hnone => nomatch hnone⟩).right _ rfl

end Loaded

/-! ## Nothing is lost between rename and the units -/

section Conserved

variable {s : DataflowState} {x : DataflowInput}

theorem sentOps_eq (hwf : IqWellFormed s.queue) :
    sentOps s x = issuedItems s.queue (dataflowQueueInput s x) := by
  have hvalid : iqIssueDataValid s.queue (dataflowQueueInput s x) =
      fun i => decide (i < (issuedAt s.queue (dataflowQueueInput s x)).length) :=
    funext fun i => iqIssueDataValid_eq hwf i
  have hkept : kept (iqIssueDataValid s.queue (dataflowQueueInput s x)) issueWidth =
      List.range (issuedAt s.queue (dataflowQueueInput s x)).length := by
    rw [hvalid, kept_of_le issued_le_width fun _ hlt => of_decide_eq_true hlt]
    exact List.filter_eq_self.2 fun i hi => decide_eq_true (List.mem_range.1 hi)
  rw [sentOps, hkept]
  exact ports_issued hwf

/-- An entry of the queue is sent or waits on. -/
theorem queue_ids (hwf : IqWellFormed s.queue) :
    ((issueList s.queue).map (·.robId)).Perm ((sentOps s x).map (·.robId) ++
      (waitingItems s.queue (dataflowQueueInput s x)).map (·.robId)) := by
  rw [sentOps_eq hwf, issuedItems, waitingItems, issueList, List.map_map, List.map_map,
    List.map_map]
  have hsplit := List.filter_append_perm
    (bufferItemInvalid s.queue (dataflowQueueInput s x)) (List.range s.queue.wptr)
  have hmap := (hsplit.map fun i => (s.queue.buffer i).robId).symm
  rw [List.map_append] at hmap
  exact hmap

end Conserved

namespace OperandCycle

variable {m : RegMap} {s : DataflowState} {regs : Nat → Option Nat} {x : DataflowInput}
  (h : OperandCycle m s regs x)
include h

theorem renamed_ids : (renamedOps (dataflowNext s x)).map (·.robId) =
    if dataflowStall s x then (renamedOps s).map (·.robId) else enteringIds s x := by
  rw [renamedOps, front_next x h.inv.wf, renamePort_next, h.flush_eq, if_neg Bool.false_ne_true,
    enteringIds, stall_eq x h.inv.wf]
  cases issueStall s.front (inputCycle s x h.inv.wf) with
  | true => rfl
  | false => exact List.map_map

/-- The pending operations are accepted by the queue or stay pending. -/
theorem input_ids : (bundleFrom s.front.readregPort s.front.lastIndex).map (·.robId) =
    (acceptedItems s.queue (dataflowQueueInput s x)).map (·.robId) ++
      (bundleFrom s.front.readregPort
        (s.front.lastIndex + pushNum s.front (inputCycle s x h.inv.wf))).map (·.robId) := by
  have hsplit := pending_split h.inv.leading h.flush_eq
  have haccepted : acceptedItems s.queue (dataflowQueueInput s x) =
      (List.range' s.front.lastIndex (pushNum s.front (inputCycle s x h.inv.wf))).map fun k =>
        tItem s.back.phyf (queueSides s x) (s.front.readregPort k) :=
    accepted_items (x := inputCycle s x h.inv.wf) h.inv.leading
  have hpending : bundleFrom s.front.readregPort s.front.lastIndex =
      issueInputStage.inserted s.front (inputCycle s x h.inv.wf) ++
        bundleFrom s.front.readregPort
          (s.front.lastIndex + pushNum s.front (inputCycle s x h.inv.wf)) := hsplit
  have hinserted : issueInputStage.inserted s.front (inputCycle s x h.inv.wf) =
      (insertedSlots s.front (inputCycle s x h.inv.wf)).map s.front.readregPort := rfl
  rw [hpending, haccepted, hinserted, insertedSlots_eq h.inv.leading h.flush_eq, List.map_append,
    List.map_map, List.map_map]
  rfl

theorem input_next_ids : (bundleFrom (dataflowNext s x).front.readregPort
      (dataflowNext s x).front.lastIndex).map (·.robId) =
    if dataflowStall s x then (bundleFrom s.front.readregPort
      (s.front.lastIndex + pushNum s.front (inputCycle s x h.inv.wf))).map (·.robId)
    else (renamedOps s).map (·.robId) := by
  rw [front_next x h.inv.wf, readregPort_next, lastIndex_next h.inv.leading, h.flush_eq,
    if_neg Bool.false_ne_true, stall_eq x h.inv.wf]
  cases issueStall s.front (inputCycle s x h.inv.wf) with
  | true => rfl
  | false =>
      simp only [Bool.false_eq_true, if_false]
      rw [bundleFrom, renamedOps, List.map_map, List.map_map]
      rfl

/-- Without a stall the bundle has left. -/
theorem input_left (hstall : dataflowStall s x = false) :
    bundleFrom s.front.readregPort
      (s.front.lastIndex + pushNum s.front (inputCycle s x h.inv.wf)) = [] := by
  refine bundleFrom_past h.inv.leading.readreg ?_
  by_contra hrest
  rw [stall_eq x h.inv.wf] at hstall
  exact Bool.false_ne_true (hstall.symm.trans
    ((stall_iff h.inv.leading).2 ⟨h.flush_eq, Nat.lt_of_not_le hrest⟩))

/-- What is behind rename and what is sent is what was there and what enters. -/
theorem held_ids : ((heldOps (dataflowNext s x)).map (·.robId) ++
      (sentOps s x).map (·.robId)).Perm
    ((heldOps s).map (·.robId) ++ enteringIds s x) := by
  have hqueue := @queue_ids s x h.inv.wf
  have hlist : issueList (dataflowNext s x).queue =
      waitingItems s.queue (dataflowQueueInput s x) ++
        acceptedItems s.queue (dataflowQueueInput s x) := issueList_next h.inv.wf h.flow.flush
  have hids : ∀ t : DataflowState, (heldOps t).map (·.robId) = (renamedOps t).map (·.robId) ++
      ((bundleFrom t.front.readregPort t.front.lastIndex).map (·.robId) ++
        (issueList t.queue).map (·.robId)) := fun t => by
    rw [heldOps, waitingOps, List.map_append, List.map_map, List.map_append]
    rfl
  rw [hids, hids, h.renamed_ids, h.input_next_ids, hlist, List.map_append, h.input_ids]
  refine List.perm_iff_count.2 fun a => ?_
  have hcount := List.perm_iff_count.1 hqueue a
  simp only [List.count_append] at hcount ⊢
  cases hstall : dataflowStall s x with
  | true =>
      have hnone : enteringIds s x = [] := by
        rw [enteringIds, hstall]
        rfl
      simp only [if_pos, hnone, List.count_nil]
      omega
  | false =>
      rw [h.input_left hstall]
      simp only [Bool.false_eq_true, if_false, List.map_nil, List.count_nil]
      omega

end OperandCycle

/-! ## The invariant -/

structure SentInv (m : RegMap) (t : SentState) : Prop where
  operands : OperandsInv m t.tracked.machine t.tracked.regs
  outstanding : ∀ op ∈ t.outstanding, InPlace t.tracked.machine op.toRenameReadregOpInfo
  loaded : ∀ op ∈ t.outstanding, OperandsLoaded t.tracked.regs op
  distinct : (unansweredIds t).Nodup
  complete : t.tracked.machine.back.commit.curState = .normal →
    ∀ k, ∀ hk : k < t.tracked.machine.back.rob.entries.length,
      Unanswered t.tracked.machine k hk →
        t.tracked.machine.back.rob.idAt k ∈ unansweredIds t

theorem held_inPlace {m : RegMap} {s : DataflowState} {regs : Nat → Option Nat}
    (h : OperandsInv m s regs) {op : RenameReadregOpInfo} (hop : op ∈ heldOps s) :
    InPlace s op := by
  rcases List.mem_append.1 hop with hrenamed | hwaiting
  · exact h.renamed op hrenamed
  · obtain ⟨op, hat, rfl⟩ := List.mem_map.1 hwaiting
    rcases List.mem_append.1 hat with hinput | hqueue
    · exact (h.input op hinput).1
    · exact (h.queue op hqueue).1

theorem resultOf_answer {e : Entry InFlight} {op : ReadregIssueOpInfo} {w : ExecuteWbPack}
    (hfor : SentFor e op.toRenameReadregOpInfo) (hanswer : AnswerTo op w) : ResultOf e w := by
  have hop := hfor.decoded
  exact ⟨hanswer.valid.trans (congrArg (·.valid) hop),
    hanswer.opUnit.trans (congrArg (·.opUnit) hop),
    hanswer.rdEnable.trans (congrArg (·.rdEnable) hop),
    hanswer.needRename.trans (congrArg (·.needRename) hop),
    hanswer.predicted.trans (congrArg (·.predicted) hop),
    hanswer.checkpointId.trans (congrArg (·.checkpointId) hop), hanswer.rdPhy.trans hfor.rd,
    fun hbru => (hanswer.branch hbru).trans (congrArg (·.hasException) hop)⟩

namespace SentInv

variable {m : RegMap} {t : SentState} {x : DataflowInput} (h : SentInv m t)
include h

theorem apart {op : RenameReadregOpInfo} (hop : op ∈ heldOps t.tracked.machine)
    {sent : ReadregIssueOpInfo} (hsent : sent ∈ t.outstanding) : op.robId ≠ sent.robId := fun heq =>
  List.disjoint_of_nodup_append h.distinct (List.mem_map_of_mem hop)
    (heq ▸ List.mem_map_of_mem hsent)

/-- What was assumed of the answers follows. -/
theorem allowed (hx : AnswersSent t x) : DataflowAllowed t.tracked.machine x where
  buffers := hx.buffers
  bundle := hx.bundle
  accept := hx.accept
  answers := fun hflush => by
    refine ⟨fun j hj henable => ?_, hx.once hflush⟩
    obtain ⟨op, hop, hanswer⟩ := hx.answer hflush j hj henable
    obtain ⟨k, hk, hid, hun, hfor⟩ := h.outstanding op hop
    exact ⟨k, hk, hanswer.robId.trans hid, hun.finish, resultOf_answer hfor hanswer⟩
  notPort := fun hflush i hi j hj hport henable => by
    obtain ⟨op, hop, hanswer⟩ := hx.answer hflush j hj henable
    obtain ⟨k, _, hid, hun, _⟩ := h.outstanding op hop
    rw [hanswer.robId, hid]
    exact hun.executeWb i hi hport
  notPending := fun hflush i hi j hj hport henable => by
    obtain ⟨op, hop, hanswer⟩ := hx.answer hflush j hj henable
    obtain ⟨k, _, hid, hun, _⟩ := h.outstanding op hop
    rw [hanswer.robId, hid]
    exact hun.wbPort i hi hport
  sent := fun hflush op hop j hj henable => by
    obtain ⟨sent, hsent, hanswer⟩ := hx.answer hflush j hj henable
    rw [hanswer.robId]
    exact h.apart hop hsent

end SentInv

/-! ### One cycle -/

namespace OperandCycle

variable {m : RegMap} {s : DataflowState} {regs : Nat → Option Nat} {x : DataflowInput}
  (h : OperandCycle m s regs x)
include h

theorem sends_entering {id : Nat} (hid : id ∈ enteringIds s x) : ∃ i, i < renameWidth ∧
    s.back.rob.entries.length + i < robSize ∧ s.back.rob.newId i = id := by
  rw [enteringIds] at hid
  cases hstall : dataflowStall s x with
  | true =>
      rw [hstall] at hid
      exact absurd hid List.not_mem_nil
  | false =>
      rw [hstall, if_neg Bool.false_ne_true] at hid
      obtain ⟨i, hi, rfl⟩ := List.mem_map.1 hid
      obtain ⟨hi, hsend⟩ := mem_kept.1 hi
      have hmap := h.sends_bundle ((stall_eq x h.inv.wf).symm.trans hstall)
      exact ⟨i, hi, ((h.flow.sendEnable_eq hmap hi).1 hsend).2, rfl⟩

/-- The new ids are those of no operation on its way. -/
theorem entering_fresh {id : Nat} (hid : id ∈ enteringIds s x) {op : RenameReadregOpInfo}
    (hop : InPlace s op) : op.robId ≠ id := by
  obtain ⟨i, _, hroom, rfl⟩ := h.sends_entering hid
  obtain ⟨k, hk, hat, _⟩ := hop
  intro heq
  have := idAt_inj h.flow.cycle.settled.wf (by omega) hroom
    (hat.symm.trans (heq.trans (h.flow.newId_eq i)))
  omega

theorem entering_nodup : (enteringIds s x).Nodup := by
  rw [enteringIds]
  cases hstall : dataflowStall s x with
  | true => exact List.nodup_nil
  | false =>
      have hmap := h.sends_bundle ((stall_eq x h.inv.wf).symm.trans hstall)
      refine (List.nodup_range.filter _).map_on fun i hi j hj heq => ?_
      obtain ⟨hi, hsendi⟩ := mem_kept.1 hi
      obtain ⟨hj, hsendj⟩ := mem_kept.1 hj
      have := idAt_inj h.flow.cycle.settled.wf ((h.flow.sendEnable_eq hmap hi).1 hsendi).2
        ((h.flow.sendEnable_eq hmap hj).1 hsendj).2
        ((h.flow.newId_eq i).symm.trans (heq.trans (h.flow.newId_eq j)))
      omega

theorem pushed_entering {i : Nat} (hi : i < (pushedEntries (dataflowRename s x)).length) :
    s.back.rob.newId i ∈ enteringIds s x := by
  cases hstall : dataflowStall s x with
  | true =>
      have hpush : (dataflowRename s x).renameRobPush = false := by
        show (_ && !dataflowStall s x) = false
        rw [hstall, Bool.not_true, Bool.and_false]
      rw [pushedEntries, hpush] at hi
      exact absurd hi (Nat.not_lt_zero i)
  | false =>
      have hmap := h.sends_bundle ((stall_eq x h.inv.wf).symm.trans hstall)
      have hpush : (dataflowRename s x).renameRobPush = true := hmap
      rw [pushedEntries, hpush, if_pos rfl, List.length_map] at hi
      obtain ⟨j, hj, hvalid, hrank⟩ := exists_rank hi
      -- The slots that are sent are the leading ones.
      have hij : i ≤ j := hrank ▸ rank_le _ _
      have hsent := (h.flow.sendEnable_eq hmap hj).1
        ((FlowCycle.dataValid_sendEnable s x j).symm.trans hvalid)
      rw [enteringIds, hstall, if_neg Bool.false_ne_true]
      refine List.mem_map_of_mem (mem_kept.2 ⟨by omega, ?_⟩)
      rw [h.flow.sendEnable_eq hmap (by omega)]
      omega

/-- An operation that is sent was in the queue. -/
theorem sent_inPlace {op : ReadregIssueOpInfo} (hop : op ∈ sentOps s x) :
    InPlace s op.toRenameReadregOpInfo := by
  rw [sentOps_eq h.inv.wf] at hop
  obtain ⟨i, hi, rfl⟩ := List.mem_map.1 hop
  have hmem : s.queue.buffer i ∈ issueList s.queue :=
    List.mem_map_of_mem (List.mem_range.2 (mem_kept.1 hi).1)
  exact (h.inv.queue _ hmem).1

end OperandCycle

section Step

variable {m : RegMap} {t : SentState} {x : DataflowInput}

/-- The operations on their way after a cycle and those answered in it are those before it
and the new ones. -/
theorem moved_ids (t : SentState) (hc : OperandCycle m t.tracked.machine t.tracked.regs x) :
    ((heldOps (dataflowNext t.tracked.machine x)).map (·.robId) ++
      (t.outstanding ++ sentOps t.tracked.machine x).map (·.robId)).Perm
      (unansweredIds t ++ enteringIds t.tracked.machine x) := by
  refine List.perm_iff_count.2 fun a => ?_
  have hcount := List.perm_iff_count.1 hc.held_ids a
  simp only [unansweredIds, List.map_append, List.count_append] at hcount ⊢
  omega

theorem outstanding_eq (t : SentState)
    (hflush : (dataflowFeedback t.tracked.machine x).flushing = false) :
    (sentNext t x).outstanding = (t.outstanding ++ sentOps t.tracked.machine x).filter fun op =>
      decide (op.robId ∉ answeredIds x) := if_neg (by rw [hflush]; exact Bool.false_ne_true)

theorem all_nodup (h : SentInv m t) (hc : OperandCycle m t.tracked.machine t.tracked.regs x) :
    (unansweredIds t ++ enteringIds t.tracked.machine x).Nodup := by
  refine List.nodup_append.2 ⟨h.distinct, hc.entering_nodup, fun id hid id' hid' => ?_⟩
  rcases List.mem_append.1 hid with hheld | hsent
  · obtain ⟨op, hop, rfl⟩ := List.mem_map.1 hheld
    exact hc.entering_fresh hid' (held_inPlace h.operands hop)
  · obtain ⟨op, hop, rfl⟩ := List.mem_map.1 hsent
    exact hc.entering_fresh hid' (h.outstanding op hop)

theorem distinct_next (h : SentInv m t)
    (hc : OperandCycle m t.tracked.machine t.tracked.regs x) :
    (unansweredIds (sentNext t x)).Nodup := by
  have hsub : ((sentNext t x).outstanding.map (·.robId)).Sublist
      ((t.outstanding ++ sentOps t.tracked.machine x).map (·.robId)) := by
    rw [outstanding_eq t hc.flow.flush]
    exact List.filter_sublist.map _
  exact ((moved_ids t hc).nodup_iff.2 (all_nodup h hc)).sublist (hsub.append_left _)

theorem outstanding_next (h : SentInv m t)
    (hc : OperandCycle m t.tracked.machine t.tracked.regs x) :
    ∀ op ∈ (sentNext t x).outstanding,
      InPlace (dataflowNext t.tracked.machine x) op.toRenameReadregOpInfo := by
  intro op hop
  rw [outstanding_eq t hc.flow.flush, List.mem_filter, decide_eq_true_iff, List.mem_append] at hop
  obtain ⟨hop, hunanswered⟩ := hop
  have hplace : InPlace t.tracked.machine op.toRenameReadregOpInfo :=
    hop.elim (h.outstanding op) hc.sent_inPlace
  refine hc.flow.inPlace_next hplace fun j hj henable heq => hunanswered ?_
  exact List.mem_map.2 ⟨j, mem_kept.2 ⟨hj, henable⟩, heq.symm⟩

theorem loaded_next (h : SentInv m t) (hc : OperandCycle m t.tracked.machine t.tracked.regs x)
    (hissued : IssuedComplete t.tracked x) :
    ∀ op ∈ (sentNext t x).outstanding, OperandsLoaded (trackedNext t.tracked x).regs op := by
  intro op hop
  rw [outstanding_eq t hc.flow.flush, List.mem_filter, List.mem_append] at hop
  rcases hop.1 with hold | hsent
  · exact (h.loaded op hold).next (hc.flow.operand_feed (h.outstanding op hold))
  · obtain ⟨i, hi, rfl⟩ := List.mem_map.1 hsent
    obtain ⟨hsrc1, hsrc2, hfollow⟩ := hissued hc.flow.flush i (mem_kept.1 hi).2
    exact hfollow.loaded hsrc1 hsrc2

/-- What is not answered stays on its way. -/
theorem unanswered_kept (hc : OperandCycle m t.tracked.machine t.tracked.regs x) {id : Nat}
    (hid : id ∈ unansweredIds t ++ enteringIds t.tracked.machine x) (hsilent : id ∉ answeredIds x) :
    id ∈ unansweredIds (sentNext t x) := by
  rcases List.mem_append.1 ((moved_ids t hc).mem_iff.2 hid) with hheld | hsent
  · exact List.mem_append_left _ hheld
  · obtain ⟨op, hop, rfl⟩ := List.mem_map.1 hsent
    refine List.mem_append_right _ (List.mem_map_of_mem ?_)
    rw [outstanding_eq t hc.flow.flush]
    exact List.mem_filter.2 ⟨hop, decide_eq_true hsilent⟩

theorem complete_next (h : SentInv m t) (hx : AnswersSent t x)
    (hc : OperandCycle m t.tracked.machine t.tracked.regs x) (k' : Nat)
    (hk' : k' < (dataflowNext t.tracked.machine x).back.rob.entries.length)
    (hun : Unanswered (dataflowNext t.tracked.machine x) k' hk') :
    (dataflowNext t.tracked.machine x).back.rob.idAt k' ∈ unansweredIds (sentNext t x) := by
  rcases hc.flow.unanswered_next hk' hun with ⟨k, hk, hunk, hid, _, hsilent⟩ | ⟨i, hi, rfl, _⟩
  · rw [hid]
    have hold := h.complete hc.flow.cycle.state k hk hunk
    refine unanswered_kept hc (List.mem_append_left _ hold) fun hanswered => ?_
    obtain ⟨j, hj, heq⟩ := List.mem_map.1 hanswered
    exact hsilent j (mem_kept.1 hj).1 (mem_kept.1 hj).2 heq
  · rw [hc.flow.idAt_pushed]
    have hnew := hc.pushed_entering hi
    refine unanswered_kept hc (List.mem_append_right _ hnew) fun hanswered => ?_
    obtain ⟨j, hj, heq⟩ := List.mem_map.1 hanswered
    obtain ⟨op, hop, hanswer⟩ := hx.answer hc.flow.flush j (mem_kept.1 hj).1 (mem_kept.1 hj).2
    exact hc.entering_fresh hnew (h.outstanding op hop) (hanswer.robId.symm.trans heq)

/-- A flush that ends in the normal state empties the buffer. -/
theorem entries_flush {s : DataflowState} {regs : Nat → Option Nat} (h : ResultsInv m s regs)
    (hallowed : DataflowAllowed s x) (hflush : (dataflowFeedback s x).flushing = true)
    (hnormal : (dataflowNext s x).back.commit.curState = .normal) :
    (dataflowNext s x).back.rob.entries = [] := by
  by_cases hstate : s.back.commit.curState = .normal
  · rcases normal_cycle (backend_view (dataflowCheckpoint s x) (dataflowBack s x) h.back.rob)
      (branchesClean_of_items h.back.items) hstate with hkeep | ⟨i, hmiss⟩ | htrap
    · exact absurd (hkeep.notFlushing.symm.trans hflush) Bool.false_ne_true
    · exact entries_flushed hmiss.flush
    · obtain ⟨_, hwalk⟩ := h.trap_walks hallowed hstate htrap
      exact absurd hnormal hwalk.walk.notNormal
  · obtain ⟨k, hw, _⟩ := h.walking hstate
    cases k with
    | zero =>
        obtain ⟨_, hrob, _⟩ := walk_done (dataflowCheckpoint s x) (dataflowBack s x) h.back hw
        exact congrArg (·.entries) hrob
    | succ k =>
        obtain ⟨_, hwalk, _, _⟩ := walk_next (dataflowCheckpoint s x) (dataflowBack s x) h.back
          hallowed.buffers.exact hw
        exact absurd hnormal hwalk.walk.notNormal

theorem sentInv_next (h : SentInv m t) (hx : AnswersSent t x) :
    SentInv (retiredMap m t.tracked.machine.back (leavingNum t.tracked.machine x))
      (sentNext t x) := by
  have hallowed := h.allowed hx
  have hoperands := operandsInv_next h.operands hallowed
  cases hflush : (dataflowFeedback t.tracked.machine x).flushing with
  | true =>
      have hnone : (sentNext t x).outstanding = [] := if_pos hflush
      have hheld : heldOps (sentNext t x).tracked.machine = [] :=
        held_flush h.operands.wf hflush
      refine ⟨hoperands, ?_, ?_, ?_, fun hnormal k hk => ?_⟩
      · rw [hnone]
        exact fun op hop => absurd hop List.not_mem_nil
      · rw [hnone]
        exact fun op hop => absurd hop List.not_mem_nil
      · rw [unansweredIds, hnone, hheld]
        exact List.nodup_nil
      · have hempty : (sentNext t x).tracked.machine.back.rob.entries = [] :=
          entries_flush h.operands.results hallowed hflush hnormal
        exact absurd hk (by rw [hempty]; exact Nat.not_lt_zero k)
  | false =>
      have hc : OperandCycle m t.tracked.machine t.tracked.regs x :=
        ⟨flowCycle_of_quiet h.operands.results hallowed hflush, h.operands⟩
      exact ⟨hoperands, outstanding_next h hc,
        loaded_next h hc (issuedComplete h.operands hallowed), distinct_next h hc,
        fun _ => complete_next h hx hc⟩

theorem sentInv_reset (robBuffer : Nat → RobItem) (checkpoints : Nat → Checkpoint)
    (buffer : Nat → IssueQueueItem) :
    SentInv (fun a => if a ∈ archRegs then a else 0) (sentReset robBuffer checkpoints buffer) where
  operands := operandsInv_reset robBuffer checkpoints buffer
  outstanding := fun _ hop => absurd hop List.not_mem_nil
  loaded := fun _ hop => absurd hop List.not_mem_nil
  distinct := List.nodup_nil
  complete := fun _ k hk => absurd hk (Nat.not_lt_zero k)

end Step

/-! ## Every run -/

/-- Every operation behind rename without an answer is that of an unfinished entry, with its
sources once it is sent, no two are of one entry, and outside a walk every entry without an
answer has its operation on the way. -/
structure OneOperationEach (t : SentState) : Prop where
  held : ∀ op ∈ heldOps t.tracked.machine, InPlace t.tracked.machine op
  outstanding : ∀ op ∈ t.outstanding, InPlace t.tracked.machine op.toRenameReadregOpInfo
  loaded : ∀ op ∈ t.outstanding, OperandsLoaded t.tracked.regs op
  distinct : (unansweredIds t).Nodup
  complete : t.tracked.machine.back.commit.curState = .normal →
    ∀ k, ∀ hk : k < t.tracked.machine.back.rob.entries.length,
      Unanswered t.tracked.machine k hk →
        t.tracked.machine.back.rob.idAt k ∈ unansweredIds t

/-- In every run over decoded instructions in which the units answer only for operations
that wait for an answer, whatever stalls, completes or is flushed when: no operation is lost
or sent twice between rename and the units, and the answers of every cycle are what the
circuit relies on. -/
theorem one_operation_each (robBuffer : Nat → RobItem) (checkpoints : Nat → Checkpoint)
    (buffer : Nat → IssueQueueItem) {inputs : List DataflowInput}
    (h : Along sentNext AnswersSent (sentReset robBuffer checkpoints buffer) inputs) :
    Always sentNext OneOperationEach (sentReset robBuffer checkpoints buffer) inputs ∧
      Along sentNext (fun t x => DataflowAllowed t.tracked.machine x)
        (sentReset robBuffer checkpoints buffer)
        inputs := by
  have hstep : ∀ (t : SentState) (x : DataflowInput),
      (∃ m, SentInv m t) → AnswersSent t x → ∃ m, SentInv m (sentNext t x) :=
    fun t x ⟨_, hinv⟩ hx => ⟨_, sentInv_next hinv hx⟩
  have hreset : ∃ m, SentInv m (sentReset robBuffer checkpoints buffer) :=
    ⟨_, sentInv_reset robBuffer checkpoints buffer⟩
  refine ⟨(always_of_step hstep hreset h).mono fun t ⟨_, hinv⟩ =>
    ⟨fun _ hop => held_inPlace hinv.operands hop, hinv.outstanding, hinv.loaded, hinv.distinct,
      hinv.complete⟩, ?_⟩
  exact (h.strengthen hstep hreset).mono fun t x ⟨⟨_, hinv⟩, hx⟩ => hinv.allowed hx

/-! ## The first of two additions -/

theorem tracked_run (t : SentState) (inputs : List DataflowInput) :
    (run sentNext t inputs).tracked = run trackedNext t.tracked inputs := by
  induction inputs generalizing t with
  | nil => rfl
  | cons x inputs ih => exact ih (sentNext t x)

theorem quietUnits_sent {t : SentState} {bundle : List DecodeRenamePack}
    (hallowed : DataflowAllowed t.tracked.machine (quietUnits bundle)) :
    AnswersSent t (quietUnits bundle) where
  buffers := hallowed.buffers
  bundle := hallowed.bundle
  accept := hallowed.accept
  answer := fun _ _ _ henable => absurd henable Bool.false_ne_true
  once := fun _ _ _ _ _ henable => absurd henable Bool.false_ne_true

def zeroSent : SentState :=
  sentReset (fun _ => RobItem.zero) (fun _ => Checkpoint.zero) fun _ => tItemEmpty

/-- `beforeResult` with the operations that wait for an answer. -/
def beforeAnswer : SentState :=
  run sentNext zeroSent (dependentRun.take 4)

theorem addiDelivered_sent : AnswersSent beforeAnswer addiDelivered := by
  have htracked : beforeAnswer.tracked = beforeResult := tracked_run _ _
  have hallowed : DataflowAllowed beforeAnswer.tracked.machine addiDelivered :=
    htracked ▸ addiDelivered_allowed
  refine ⟨hallowed.buffers, hallowed.bundle, hallowed.accept, fun _ j _ henable => ?_,
    fun hflush => (hallowed.answers hflush).once⟩
  have hfirst : j = 0 := by
    by_contra hne
    have hvalid : addiDelivered.unitValid j = false := decide_eq_false hne
    rw [unitAnswers, hvalid] at henable
    exact Bool.false_ne_true henable
  subst hfirst
  refine ⟨beforeAnswer.outstanding.head (by decide +kernel), List.head_mem _, ?_⟩
  constructor <;> decide +kernel

/-- Before the answer the first addition waits for its unit and the second in the queue. -/
theorem one_operation_each_dependentAdds :
    (Always sentNext OneOperationEach zeroSent dependentRun ∧
      Along sentNext (fun t x => DataflowAllowed t.tracked.machine x)
        zeroSent dependentRun) ∧
    unansweredIds beforeAnswer = [1, 0] ∧
    unansweredIds (sentNext beforeAnswer addiDelivered) = [1] := by
  have hquiet : ∀ {t : SentState}, BuffersKept t.tracked.machine.recovery
      (dataflowRecovery t.tracked.machine (quietUnits [])) → AnswersSent t (quietUnits []) :=
    fun hbuffers => quietUnits_sent (quietUnits_allowed nothing_decoded (by simp) hbuffers)
  refine ⟨one_operation_each (fun _ => RobItem.zero) (fun _ => Checkpoint.zero)
    (fun _ => tItemEmpty)
    ⟨quietUnits_sent (quietUnits_allowed ?_ (by decide) (by decide +kernel)),
      hquiet (by decide +kernel), hquiet (by decide +kernel), hquiet (by decide +kernel),
      addiDelivered_sent, trivial⟩, by decide +kernel, by decide +kernel⟩
  exact decodedBundle_map (by decide) (by decide) (by decide) (by decide)

end DreamCore.Proofs
