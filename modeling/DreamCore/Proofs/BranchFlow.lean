import DreamCore.Model.Speculation
import DreamCore.Proofs.FenceFresh
import DreamCore.Proofs.RejectedWords

/-!
# Predicted branches between fetch and retirement

Fetch pushes a predicted branch exactly when it hands an outcome to the predictor, and the
FIFOs, rename and the reorder buffer pass the predicted branches on in order, none of them
lost or sent twice.
-/

namespace DreamCore.Proofs

open DreamCore.Clocked DreamCore.Model DreamCore.Rtl

/-! ## Lists of outcomes -/

@[simp] theorem predictedOutcomes_nil : predictedOutcomes [] = [] := rfl

@[simp] theorem predictedOutcomes_append (a b : List FetchDecodePack) :
    predictedOutcomes (a ++ b) = predictedOutcomes a ++ predictedOutcomes b := by
  simp [predictedOutcomes]

theorem predictedOutcomes_split (n : Nat) (l : List FetchDecodePack) :
    predictedOutcomes l = predictedOutcomes (l.take n) ++ predictedOutcomes (l.drop n) := by
  rw [← predictedOutcomes_append, List.take_append_drop]

theorem predictedOutcomes_none {l : List FetchDecodePack}
    (h : ∀ p ∈ l, isPredictedBranch p = false) : predictedOutcomes l = [] := by
  have hnone : l.filter isPredictedBranch = [] :=
    List.filter_eq_nil_iff.2 fun p hp => by simp [h p hp]
  rw [predictedOutcomes, hnone]
  rfl

/-- Only predicted instructions have a predicted outcome. -/
theorem predictedOutcomes_predicted (l : List FetchDecodePack) :
    predictedOutcomes l = predictedOutcomes (l.filter (·.predicted)) := by
  rw [predictedOutcomes, predictedOutcomes, List.filter_filter]
  refine congrArg _ (List.filter_congr fun p _ => ?_)
  rw [isPredictedBranch]
  cases p.predicted with
  | true => rw [Bool.and_true]
  | false => rfl

theorem branch_of_predicted {p : FetchDecodePack} (h : isPredictedBranch p = true) :
    isBranchWord p.value = true := (Bool.and_eq_true_iff.1 h).2

@[simp] theorem extendHistory_append (history : Nat) (a b : List Bool) :
    extendHistory history (a ++ b) = extendHistory (extendHistory history a) b :=
  List.foldl_append

/-! ## Fetch -/

section Fetch

variable {f : FetchState} {input : FetchInput}

/-- The bundle does not depend on the predictor's answer. -/
structure SameBundle (a b : FetchInput) : Prop where
  busFetchData : a.busFetchData = b.busFetchData
  busFetchReadAck : a.busFetchReadAck = b.busFetchReadAck
  stbufAllEmpty : a.stbufAllEmpty = b.stbufAllEmpty
  space : a.fetchDecodeFifoDataInEnable = b.fetchDecodeFifoDataInEnable
  decodeFeedbackIdle : a.decodeFeedbackIdle = b.decodeFeedbackIdle
  renameFeedbackIdle : a.renameFeedbackIdle = b.renameFeedbackIdle
  commitFeedbackPack : a.commitFeedbackPack = b.commitFeedbackPack

namespace SameBundle

variable {a b : FetchInput} (h : SameBundle a b)
include h

theorem fetchOpcode_eq (i : Nat) : fetchOpcode f a i = fetchOpcode f b i := by
  rw [fetchOpcode, fetchOpcode, h.busFetchData]

theorem fetchJump_eq (i : Nat) : fetchJump f a i = fetchJump f b i := by
  rw [fetchJump, fetchJump, h.fetchOpcode_eq, h.busFetchReadAck]

theorem fetchEnable_eq (i : Nat) : fetchEnable f a i = fetchEnable f b i := by
  have hfence : ∀ i, fetchFenceI f a i = fetchFenceI f b i := fun i => by
    rw [fetchFenceI, fetchFenceI, h.fetchOpcode_eq, h.busFetchReadAck]
  have hstop : ∀ i, pushForbiddenFenceI f a i = pushForbiddenFenceI f b i := by
    intro i
    induction i with
    | zero =>
        rw [pushForbiddenFenceI, pushForbiddenFenceI, hfence, h.decodeFeedbackIdle,
          h.renameFeedbackIdle, h.commitFeedbackPack, h.stbufAllEmpty]
    | succ i ih => rw [pushForbiddenFenceI, pushForbiddenFenceI, ih, hfence]
  have hbehind : ∀ i, pushForbiddenJump f a i = pushForbiddenJump f b i := by
    intro i
    induction i with
    | zero => rfl
    | succ i ih => rw [pushForbiddenJump, pushForbiddenJump, ih, h.fetchJump_eq]
  rw [fetchEnable, fetchEnable, h.space, hstop, hbehind, h.busFetchReadAck]

theorem jumpIndexCmp_eq : jumpIndexCmp f a = jumpIndexCmp f b := by
  funext i
  rw [jumpIndexCmp, jumpIndexCmp, h.busFetchReadAck, h.fetchJump_eq, h.fetchEnable_eq]

theorem jumpIndexValid_eq : jumpIndexValid f a = jumpIndexValid f b := by
  rw [jumpIndexValid, jumpIndexValid, h.jumpIndexCmp_eq]

theorem fetchBpInstruction_eq : fetchBpInstruction f a = fetchBpInstruction f b := by
  rw [fetchBpInstruction, fetchBpInstruction, jumpIndex, jumpIndex, h.jumpIndexCmp_eq,
    h.fetchOpcode_eq]

theorem fetchBpValid_eq : fetchBpValid f a = fetchBpValid f b := by
  rw [fetchBpValid, fetchBpValid, h.jumpIndexValid_eq, h.fetchEnable_eq, jumpIndex, jumpIndex,
    h.jumpIndexCmp_eq, fetchDecodeFifoPush, fetchDecodeFifoPush, fetchDecodeFifoFlush,
    fetchDecodeFifoFlush, h.busFetchReadAck, h.commitFeedbackPack]

end SameBundle

/-- The jump is among the slots that are pushed. -/
theorem jumpIndex_lt {n : Nat}
    (hblock : ∀ i, i < fetchWidth → fetchEnable f input i = decide (i < n))
    (hvalid : jumpIndexValid f input = true) : jumpIndex f input < n := by
  obtain ⟨i, hi, hcmp, hbefore⟩ := anyBit_first hvalid
  rw [jumpIndex, priorityFinderFirst_eq hi hcmp hbefore]
  simp only [jumpIndexCmp, Bool.and_eq_true] at hcmp
  exact of_decide_eq_true ((hblock i hi).symm.trans hcmp.2)

/-- The predicted instruction fetch pushes is the jump it takes a checkpoint for. -/
theorem fetchPushed_predicted
    (hspace : ∃ space, ∀ i, i < fetchWidth →
      input.fetchDecodeFifoDataInEnable i = expandOne space i) :
    (fetchPushed f input).filter (·.predicted) =
      if fetchCpbufPush f input && input.cpbufFetchNewIdValid then
        [fetchDecodePack f input (jumpIndex f input)]
      else [] := by
  obtain ⟨space, hspace⟩ := hspace
  obtain ⟨n, hn, hblock, _⟩ := fetchEnable_block (s := f) hspace
  cases hpush : fetchDecodeFifoPush f input with
  | false =>
      rw [fetchPushed_none hpush, fetchCpbufPush, hpush, Bool.and_false, Bool.false_and,
        if_neg Bool.false_ne_true]
      rfl
  | true =>
      have hslot : ∀ i, (fetchDecodePack f input i).predicted =
          (decide (jumpIndex f input = i) &&
            (fetchCpbufPush f input && input.cpbufFetchNewIdValid)) := fun i => by
        simp only [fetchDecodePack, fetchPredicted, fetchCpbufPush, hpush, Bool.and_true,
          Bool.and_assoc]
      rw [fetchPushed_eq hn hblock hpush, List.filter_map]
      cases hcond : fetchCpbufPush f input && input.cpbufFetchNewIdValid with
      | false =>
          rw [if_neg Bool.false_ne_true, List.map_eq_nil_iff, List.filter_eq_nil_iff]
          intro i _
          rw [Function.comp_apply, hslot, hcond, Bool.and_false]
          exact Bool.false_ne_true
      | true =>
          have hvalid : jumpIndexValid f input = true := by
            simp only [fetchCpbufPush, Bool.and_eq_true] at hcond
            exact hcond.1.1.1
          have hself : (List.range n).filter
              ((fun p : FetchDecodePack => p.predicted) ∘ fetchDecodePack f input) =
                (List.range n).filter (· == jumpIndex f input) := by
            refine List.filter_congr fun i _ => ?_
            rw [Function.comp_apply, hslot, hcond, Bool.and_true, Bool.eq_iff_iff, beq_iff_eq,
              decide_eq_true_iff]
            exact eq_comm
          rw [if_pos rfl, hself, List.filter_beq, List.count_eq_one_of_mem List.nodup_range
            (List.mem_range.2 (jumpIndex_lt hblock hvalid))]
          rfl

/-- The predicted branch fetch pushes is the one whose outcome it hands out. -/
theorem fetchPushed_outcomes
    (hspace : ∃ space, ∀ i, i < fetchWidth →
      input.fetchDecodeFifoDataInEnable i = expandOne space i)
    (hvalid : input.bpFetchValid = true → fetchBpValid f input = true)
    (hcheckpoint : (fetchBpUpdateValid f input && isBranchWord (fetchBpInstruction f input)) =
      true → input.cpbufFetchNewIdValid = true) :
    predictedOutcomes (fetchPushed f input) =
      if fetchBpUpdateValid f input && isBranchWord (fetchBpInstruction f input) then
        [fetchBpUpdateJump input]
      else [] := by
  have hpush : fetchCpbufPush f input = fetchBpUpdateValid f input := by
    rw [fetchCpbufPush, fetchBpUpdateValid]
    cases hbp : input.bpFetchValid with
    | false => rw [Bool.and_false, Bool.false_and, Bool.false_and]
    | true =>
        have hfifo := hvalid hbp
        simp only [fetchBpValid, Bool.and_eq_true] at hfifo
        rw [hfifo.1.1, Bool.and_true, Bool.and_comm]
  rw [predictedOutcomes_predicted, fetchPushed_predicted hspace, hpush]
  cases hbranch : isBranchWord (fetchBpInstruction f input) with
  | false =>
      rw [Bool.and_false, if_neg Bool.false_ne_true]
      split
      · refine predictedOutcomes_none fun p hp => ?_
        rw [List.mem_singleton.1 hp, isPredictedBranch]
        exact (congrArg _ hbranch).trans (Bool.and_false _)
      · rfl
  | true =>
      rw [Bool.and_true]
      cases hupdate : fetchBpUpdateValid f input with
      | false => rfl
      | true =>
          have hid := hcheckpoint (Bool.and_eq_true_iff.2 ⟨hupdate, hbranch⟩)
          rw [hid, Bool.and_true, if_pos rfl, if_pos rfl, predictedOutcomes,
            List.filter_cons_of_pos]
          · rfl
          · rw [fetchBpUpdateValid, Bool.and_eq_true] at hupdate
            refine Bool.and_eq_true_iff.2 ⟨?_, hbranch⟩
            simp only [fetchDecodePack, fetchPredicted, hupdate.1, hupdate.2, hid, decide_true,
              Bool.and_true]

/-- A pushed instruction owns a checkpoint if it is predicted. -/
theorem fetchPushed_checkpoint {p : FetchDecodePack} (hp : p ∈ fetchPushed f input) :
    p.checkpointIdValid = p.predicted := by
  rw [fetchPushed, fifoWritten] at hp
  split at hp
  · obtain ⟨i, _, rfl⟩ := List.mem_map.1 hp
    rfl
  · exact absurd hp List.not_mem_nil

end Fetch

/-! ## Decode -/

/-- Every word with the opcode of the branches goes to the branch unit. -/
theorem decode_branch {p : FetchDecodePack} (h : isBranchWord p.value = true) :
    (decode p).opUnit = .bru := by
  have hopcode : wordOpcode p.value = 0x63 := of_decide_eq_true h
  show (decodeByOpcode p.value (decodeDefault p.hasException)).opUnit = .bru
  simp only [decodeByOpcode, hopcode]
  exact decodeBranch_unit

/-! ## Without a flush -/

/-- The outcomes predicted for branches flow with them. -/
theorem outcomes_next {s : FrontEndState} {input : FrontEndInput} (h : FrontEndInv s)
    (hallowed : FrontEndAllowed s input) (hfills : FillsInOrder s input)
    (hflush : (frontEndFeedback s input).flushing = false) :
    predictedOutcomes (inFlight s) ++ predictedOutcomes (frontEndPushed s input) =
      predictedOutcomes (frontEndRetired s input) ++
        predictedOutcomes (inFlight (frontEndNext s input)) := by
  have hflow := congrArg predictedOutcomes (inFlight_next h hallowed hfills hflush)
  rwa [predictedOutcomes, List.filter_append, List.map_append, predictedOutcomes,
    List.filter_append, List.map_append] at hflow

/-! ## A flush -/

section Flush

variable {s : FrontEndState} {input : FrontEndInput}
  (hflush : (frontEndFeedback s input).flushing = true)
include hflush

theorem fifos_flush : (frontEndNext s input).decodeRenameFifo = [] ∧
    (frontEndNext s input).fetchDecodeFifo = [] := by
  constructor
  · show fifoNext .. = []
    rw [fifoNext, hflush, if_pos rfl]
  · show fifoNext .. = []
    rw [fifoNext, hflush, if_pos rfl]

theorem robOps_flush :
    (frontEndNext s input).loadStore.rob.entries.map (fun e => e.tag.op) =
      if commitRobFlush s.loadStore.commit (loadStoreCommitInput s.loadStore input.loadStore) then []
      else (s.loadStore.rob.entries.map fun e => e.tag.op).drop
        (popCount s.loadStore.commit (loadStoreCommitInput s.loadStore input.loadStore)) := by
  have hnone : loadStorePushed s.loadStore (frontEndLoadStoreInput s input) = [] := by
    have hflushed : (loadStoreFeedback s.loadStore (frontEndLoadStoreInput s input)).flushing =
        true := hflush
    rw [loadStorePushed, hflushed, if_pos rfl]
  have hops : (s.loadStore.rob.entries.mapIdx
      (loadStoreUpdate s.loadStore (frontEndLoadStoreInput s input))).map (fun e => e.tag.op) =
        s.loadStore.rob.entries.map fun e => e.tag.op :=
    List.ext_getElem (by simp) fun k _ _ => by simp [update_op]
  show (s.loadStore.rob.toIdealRob.next
    (loadStoreUpdate s.loadStore (frontEndLoadStoreInput s input))
    (popCount s.loadStore.commit (loadStoreCommitInput s.loadStore input.loadStore))
    (loadStorePushed s.loadStore (frontEndLoadStoreInput s input))
    (commitRobFlush s.loadStore.commit
      (loadStoreCommitInput s.loadStore input.loadStore))).entries.map _ = _
  rw [hnone]
  cases commitRobFlush s.loadStore.commit (loadStoreCommitInput s.loadStore input.loadStore) with
  | true => rfl
  | false =>
      rw [entries_next_list, List.append_nil, List.map_drop, hops]
      rfl

theorem inFlight_flush : inFlight (frontEndNext s input) =
    if commitRobFlush s.loadStore.commit (loadStoreCommitInput s.loadStore input.loadStore) then []
    else (s.loadStore.rob.entries.map fun e => e.tag.op.toFetchDecodePack).drop
      (popCount s.loadStore.commit (loadStoreCommitInput s.loadStore input.loadStore)) := by
  have hrob := congrArg (List.map fun op : DecodeRenamePack => op.toFetchDecodePack)
    (robOps_flush hflush)
  rw [List.map_map] at hrob
  have hrob' : (frontEndNext s input).loadStore.rob.entries.map
      (fun e => e.tag.op.toFetchDecodePack) = _ := hrob
  rw [inFlight, (fifos_flush hflush).1, (fifos_flush hflush).2, hrob', List.map_nil,
    List.append_nil, List.append_nil, apply_ite (List.map _), List.map_nil, List.map_drop,
    List.map_map]
  rfl

/-- Fetch pushes nothing. -/
theorem frontEndPushed_flush : frontEndPushed s input = [] := by
  have hflushed : fetchDecodeFifoFlush (frontEndFetchInput s input) = true := hflush
  refine fetchPushed_none ?_
  rw [fetchDecodeFifoPush, hflushed, Bool.not_true, Bool.and_false]

end Flush

end DreamCore.Proofs
