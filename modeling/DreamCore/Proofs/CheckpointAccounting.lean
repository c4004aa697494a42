import DreamCore.Model.Checkpoints
import DreamCore.Proofs.BranchTracking
import DreamCore.Proofs.CheckpointContents
import DreamCore.Proofs.HistoryRestored

/-!
# Checkpoint accounting

The ids of the live checkpoints are those of the predicted jumps in flight, in program
order: fetch allocates for the jump it predicts, and a predicted jump that retires is
popped or clears the ring.  A flush that discards a predicted jump without clearing the
ring leaves its entry behind.
-/

namespace DreamCore.Proofs

open DreamCore.Clocked DreamCore.Model DreamCore.Ring DreamCore.Rtl

/-! ## The ring of ids -/

/-- The ids of the live entries, from the read pointer on. -/
def checkpointIds (s : CheckpointBufferState) : List Nat :=
  contents checkpointBufferSize (fun id => id) s.rptr s.wptr

theorem length_checkpointIds (s : CheckpointBufferState) :
    (checkpointIds s).length = cpbufOccupancy s := length_contents ..

theorem checkpointIds_nil {s : CheckpointBufferState} (hrptr : s.rptr = 0) (hwptr : s.wptr = 0) :
    checkpointIds s = [] := by
  refine List.eq_nil_of_length_eq_zero ?_
  rw [length_checkpointIds, cpbufOccupancy, hrptr, hwptr]
  exact (occupancy_eq_zero_iff (by decide) (by decide)).2 rfl

theorem head_checkpointIds {s : CheckpointBufferState} {id : Nat}
    (h : id ∈ (checkpointIds s).head?) : id = slot checkpointBufferSize s.rptr := by
  rw [Option.mem_def, List.head?_eq_getElem?] at h
  obtain ⟨hlt, hget⟩ := List.getElem?_eq_some_iff.1 h
  rw [length_checkpointIds] at hlt
  rw [← hget]
  simp only [checkpointIds, contents, List.getElem_map, List.getElem_range, Nat.add_zero]

section Ring

variable {s : CheckpointBufferState} {input : CheckpointBufferInput}
  (h : CpbufWellFormed s) (hpop : cpbufCommitNum input ≤ 1)
include h hpop

/-- Pops take ids off the front, a push that fits adds the one fetch was offered. -/
theorem checkpointIds_next (hflush : input.commitCpbufFlush = false) :
    checkpointIds (cpbufNext s input) = (checkpointIds s).drop (cpbufPopped s input) ++
      List.replicate (cpbufPushed s input) (cpbufFetchNewId s) := by
  have hpopped := cpbufPopped_le h hpop
  have hfits := cpbufPushed_le h input
  have hone : cpbufPushed s input ≤ 1 := by
    rw [cpbufPushed]
    split
    · exact Nat.zero_le _
    · exact Bool.toNat_le _
  have hrptr : (cpbufNext s input).rptr =
      (s.rptr + cpbufPopped s input) % (2 * checkpointBufferSize) := by
    show (if input.commitCpbufFlush then 0 else cpbufRptrNext s input) = _
    rw [hflush, if_neg Bool.false_ne_true, cpbufRptrNext_eq h]
  have hwptr : (cpbufNext s input).wptr =
      (s.wptr + cpbufPushed s input) % (2 * checkpointBufferSize) := by
    show (if input.commitCpbufFlush then 0 else cpbufWptrNext s input) = _
    rw [hflush, if_neg Bool.false_ne_true, cpbufWptrNext_eq h]
  have hocc : occupancy checkpointBufferSize
      ((s.rptr + cpbufPopped s input) % (2 * checkpointBufferSize)) s.wptr =
        cpbufOccupancy s - cpbufPopped s input := occupancy_pop h.rptr_lt h.wptr_lt hpopped
  have hcut : contents checkpointBufferSize (fun id => id)
      ((s.rptr + cpbufPopped s input) % (2 * checkpointBufferSize)) s.wptr =
        (contents checkpointBufferSize (fun id => id) s.rptr s.wptr).drop
          (cpbufPopped s input) := contents_pop h hpopped
  rw [checkpointIds, hrptr, hwptr, checkpointIds, ← hcut]
  rcases Nat.le_one_iff_eq_zero_or_eq_one.1 hone with hzero | hone
  · rw [hzero, Nat.add_zero, Nat.mod_eq_of_lt h.wptr_lt, List.replicate_zero, List.append_nil]
  · rw [hone, contents_push ⟨Nat.mod_lt _ (by decide), h.wptr_lt, by rw [hocc]; omega⟩
      (by rw [hocc]; omega)]
    rfl

end Ring

/-! ## What commit pops -/

section Pops

variable {s : SpeculationState} {x : SpeculationInput}

theorem commitCpbufPop_eq (s : SpeculationState) (x : SpeculationInput) (i : Nat) :
    commitCpbufPop s.front.loadStore.commit (speculationCommitInput s x) i =
      ((speculationEvents s x).commitBpValid i && bruOpIsHit (speculationCommitInput s x) i) := by
  show _ = (commitBpValid s.front.loadStore.commit (speculationCommitInput s x) i && _)
  simp only [commitCpbufPop, commitBpValid, retireIsHitCmp, retireIsPredictedCmp, Bool.and_assoc]

/-- The number of entries commit pops in this cycle. -/
def poppedCheckpoints (s : SpeculationState) (x : SpeculationInput) : Nat :=
  countOne commitWidth
    (commitCpbufPop s.front.loadStore.commit (speculationCommitInput s x))

variable (h : PipelineInv s)
include h

theorem poppedCheckpoints_eq : poppedCheckpoints s x = (anyBit commitWidth
    (commitCpbufPop s.front.loadStore.commit (speculationCommitInput s x))).toNat := by
  refine countOne_single fun i hi j hj hpopi hpopj => ?_
  rw [commitCpbufPop_eq, Bool.and_eq_true] at hpopi hpopj
  exact (eventsPromised_of_inv h).oneCommit i hi j hj hpopi.1 hpopj.1

theorem poppedCheckpoints_le : poppedCheckpoints s x ≤ 1 := by
  rw [poppedCheckpoints_eq h]
  exact Bool.toNat_le _

/-- Without a misprediction every predicted jump that retires is popped. -/
theorem popped_retired (hstate : s.front.loadStore.commit.curState = .normal)
    (hmiss : retireIsMiss s.front.loadStore.commit (speculationCommitInput s x) = false) :
    poppedCheckpoints s x =
      (((inFlight s.front).take (speculationRetired s x)).filter (·.predicted)).length := by
  have hpop : ∀ i, i < commitWidth → (speculationEvents s x).commitBpValid i = true →
      commitCpbufPop s.front.loadStore.commit (speculationCommitInput s x) i = true := by
    intro i hi hvalid
    obtain ⟨_, hretire, hk, hdata, hbru, hpredicted, _⟩ :=
      commitBpValid_spec h.front.loadStore.rob hi hvalid
    have hno := anyBit_eq_false_iff.1 hmiss i hi
    rw [retireIsMissCmp, hretire, hdata, hbru, hpredicted] at hno
    rw [commitCpbufPop_eq, hvalid, Bool.true_and]
    rwa [Bool.true_and, Bool.true_and, Bool.true_and, Bool.not_eq_false'] at hno
  rw [poppedCheckpoints_eq h]
  by_cases hany : ∃ k, ∃ hk : k < s.front.loadStore.rob.entries.length,
      k < speculationRetired s x ∧ s.front.loadStore.rob.entries[k].tag.op.predicted = true
  · obtain ⟨k, hk, hretired, hpredicted⟩ := hany
    have hvalid := (popped_predicted h hstate hretired hk hpredicted).1
    have hwidth : k < commitWidth := Nat.lt_of_lt_of_le hretired popCount_le_width
    rw [retired_predicted h hstate hretired hk hpredicted,
      anyBit_iff.2 ⟨k, hwidth, hpop k hwidth hvalid⟩]
    rfl
  · have hnone : anyBit commitWidth
        (commitCpbufPop s.front.loadStore.commit (speculationCommitInput s x)) = false := by
      refine anyBit_eq_false_iff.2 fun i hi => Bool.eq_false_iff.2 fun hpopped => hany ?_
      rw [commitCpbufPop_eq, Bool.and_eq_true] at hpopped
      obtain ⟨hretired, hk, hpredicted, _⟩ := predicted_of_reported h hstate hi hpopped.1
      exact ⟨i, hk, hretired, hpredicted⟩
    rw [hnone, retired_none h fun k hk hretired =>
      Bool.eq_false_iff.2 fun hpredicted => hany ⟨k, hk, hretired, hpredicted⟩]
    rfl

omit h in
theorem popped_walking (hstate : s.front.loadStore.commit.curState ≠ .normal) :
    poppedCheckpoints s x = 0 := by
  refine Nat.le_zero.1 (countOne_le_bound fun i _ hpop => ?_)
  rw [commitCpbufPop, retireGate, decide_eq_false hstate] at hpop
  exact absurd hpop Bool.false_ne_true

end Pops

/-! ## The invariant -/

variable {s : CheckpointState} {x : SpeculationInput}

structure CheckpointInv (s : CheckpointState) : Prop where
  pipeline : PipelineInv s.spec
  ring : CpbufWellFormed s.cpbuf
  ids : (predictedInFlight s).map (·.checkpointId) = checkpointIds s.cpbuf
  walking : s.spec.front.loadStore.commit.curState ≠ .normal → predictedInFlight s = []

/-- What fetch pushes is what the write pointer passes. -/
theorem pushed_ids (s : CheckpointState) (x : SpeculationInput) :
    ((frontEndPushed s.spec.front (speculationFront s.spec (checkpointed s x))).filter
        (·.predicted)).map (·.checkpointId) =
      List.replicate (cpbufPushed s.cpbuf (checkpointBufferInput s x))
        (cpbufFetchNewId s.cpbuf) := by
  have hpredicted := @fetchPushed_predicted s.spec.front.fetch (checkpointFetchInput s x)
    (frontEnd_space s.spec.front (speculationFront s.spec (checkpointed s x)))
  have hpush : (checkpointBufferInput s x).fetchCpbufPush =
      fetchCpbufPush s.spec.front.fetch (checkpointFetchInput s x) := rfl
  have hvalid : (checkpointFetchInput s x).cpbufFetchNewIdValid = !cpbufFull s.cpbuf := rfl
  show ((fetchPushed s.spec.front.fetch (checkpointFetchInput s x)).filter _).map _ = _
  rw [hpredicted, cpbufPushed, hpush, hvalid]
  cases cpbufFull s.cpbuf with
  | true => rw [Bool.not_true, Bool.and_false, if_neg Bool.false_ne_true, if_pos rfl]; rfl
  | false =>
      rw [Bool.not_false, Bool.and_true, if_neg Bool.false_ne_true]
      cases fetchCpbufPush s.spec.front.fetch (checkpointFetchInput s x) <;> rfl

theorem cpbufCommitNum_eq (s : CheckpointState) (x : SpeculationInput) :
    cpbufCommitNum (checkpointBufferInput s x) =
      poppedCheckpoints s.spec (checkpointed s x) := rfl

section Step

variable (h : CheckpointInv s)
include h

theorem commitNum_le : cpbufCommitNum (checkpointBufferInput s x) ≤ 1 :=
  poppedCheckpoints_le h.pipeline

/-- The ring never pops more than it holds. -/
theorem popped_eq {n : Nat} (hle : n ≤ (predictedInFlight s).length)
    (hnum : cpbufCommitNum (checkpointBufferInput s x) = n) :
    cpbufPopped s.cpbuf (checkpointBufferInput s x) = n := by
  rw [cpbufPopped]
  split
  · rename_i hempty
    have hlen := congrArg List.length h.ids
    rw [List.length_map, length_checkpointIds, (cpbufEmpty_iff h.ring).1 hempty] at hlen
    omega
  · exact hnum

omit h in
theorem predicted_split (s : CheckpointState) (n : Nat) : predictedInFlight s =
    ((inFlight s.spec.front).take n).filter (·.predicted) ++
      ((inFlight s.spec.front).drop n).filter (·.predicted) := by
  rw [predictedInFlight, ← List.filter_append, List.take_append_drop]

omit h in
/-- The ring is cleared with the pipeline when a misprediction retires. -/
theorem missed_empty (hrob : RobSound s.spec.front.loadStore.rob)
    (hclear : (checkpointBufferInput s x).commitCpbufFlush = true) :
    (speculationFeedback s.spec (checkpointed s x)).flushing = true ∧
      fullyFlushed s.spec (checkpointed s x) = true := by
  have hclear' : (decide (s.spec.front.loadStore.commit.curState = .normal) &&
    retireIsMiss s.spec.front.loadStore.commit (checkpointCommitInput s x)) = true := hclear
  rw [Bool.and_eq_true, decide_eq_true_iff] at hclear'
  obtain ⟨hstate, hmiss⟩ := hclear'
  have hnonempty : (checkpointCommitInput s x).rob.empty = false :=
    (retireIsMiss_spec (speculation_view (checkpointed s x) hrob) hmiss).1
  constructor
  · show flushing s.spec.front.loadStore.commit (checkpointCommitInput s x) = true
    rw [flushing_normal hstate, hnonempty, hmiss, Bool.or_true]
    rfl
  · show commitRobFlush s.spec.front.loadStore.commit (checkpointCommitInput s x) = true
    rw [commitRobFlush, hmiss, decide_eq_true hstate]
    rfl

omit h in
theorem cleared_ids (hclear : (checkpointBufferInput s x).commitCpbufFlush = true) :
    checkpointIds (checkpointNext s x).cpbuf = [] := by
  show checkpointIds (cpbufNext s.cpbuf (checkpointBufferInput s x)) = []
  refine checkpointIds_nil ?_ ?_
  · show (if (checkpointBufferInput s x).commitCpbufFlush then 0 else _) = 0
    rw [hclear, if_pos rfl]
  · show (if (checkpointBufferInput s x).commitCpbufFlush then 0 else _) = 0
    rw [hclear, if_pos rfl]

/-- A flush that keeps the ring and discards no predicted jump. -/
theorem flushed_ids (hflush : (speculationFeedback s.spec (checkpointed s x)).flushing = true)
    (hkeep : (checkpointBufferInput s x).commitCpbufFlush = false)
    (hnone : ((inFlight s.spec.front).drop
      (speculationRetired s.spec (checkpointed s x))).filter (·.predicted) = [])
    (hnum : cpbufCommitNum (checkpointBufferInput s x) = (((inFlight s.spec.front).take
      (speculationRetired s.spec (checkpointed s x))).filter (·.predicted)).length) :
    predictedInFlight (checkpointNext s x) = [] ∧
      checkpointIds (checkpointNext s x).cpbuf = [] := by
  have hall := predicted_split s (speculationRetired s.spec (checkpointed s x))
  rw [hnone, List.append_nil] at hall
  have hpopped := popped_eq (x := x) h (Nat.le_refl _) (by rw [hnum, hall])
  have hquiet : (checkpointBufferInput s x).fetchCpbufPush = false := by
    have hflushed : fetchDecodeFifoFlush (checkpointFetchInput s x) = true := hflush
    show fetchCpbufPush s.spec.front.fetch (checkpointFetchInput s x) = false
    rw [fetchCpbufPush, fetchDecodeFifoPush, hflushed, Bool.not_true, Bool.and_false,
      Bool.and_false]
  have hpushed : cpbufPushed s.cpbuf (checkpointBufferInput s x) = 0 := by
    rw [cpbufPushed, hquiet]
    split <;> rfl
  constructor
  · refine List.filter_eq_nil_iff.2 fun p hp hpredicted => ?_
    have hmem := mem_inFlight_flushed hflush (retired_le _ h.pipeline) hp
    exact List.filter_eq_nil_iff.1 hnone p hmem hpredicted
  · have hids := checkpointIds_next h.ring (commitNum_le h) hkeep
    rw [hpopped, hpushed, ← h.ids, List.replicate_zero, List.append_nil] at hids
    refine hids.trans (List.drop_eq_nil_of_le ?_)
    rw [List.length_map]

/-- Without a flush the ids leave and enter with their jumps. -/
theorem kept_ids (hallowed : SpeculationStep s.spec (checkpointed s x))
    (hflush : (speculationFeedback s.spec (checkpointed s x)).flushing = false) :
    (predictedInFlight (checkpointNext s x)).map (·.checkpointId) =
      checkpointIds (checkpointNext s x).cpbuf := by
  have hkeep := speculation_keeps h.pipeline hallowed hflush
  have hclear : (checkpointBufferInput s x).commitCpbufFlush = false :=
    Bool.eq_false_iff.2 fun hclear =>
      Bool.false_ne_true (hflush.symm.trans (missed_empty hkeep.flow.rob hclear).1)
  have hmiss : retireIsMiss s.spec.front.loadStore.commit (checkpointCommitInput s x) = false := by
    have hclear' : (decide (s.spec.front.loadStore.commit.curState = .normal) &&
      retireIsMiss s.spec.front.loadStore.commit (checkpointCommitInput s x)) = false := hclear
    rwa [decide_eq_true hkeep.state, Bool.true_and] at hclear'
  have hsplit := predicted_split s (speculationRetired s.spec (checkpointed s x))
  have hpopped := popped_eq (x := x) h
    (by rw [hsplit, List.length_append]; exact Nat.le_add_right _ _)
    (popped_retired h.pipeline hkeep.state hmiss)
  have hflow := inFlight_next h.pipeline.front (front_allowed h.pipeline hallowed)
    hallowed.fills hflush
  have hretired : frontEndRetired s.spec.front (speculationFront s.spec (checkpointed s x)) =
      (inFlight s.spec.front).take (speculationRetired s.spec (checkpointed s x)) :=
    (inFlight_take _ h.pipeline).symm
  have hids := congrArg
    (fun l => (l.filter (·.predicted)).map fun p : FetchDecodePack => p.checkpointId) hflow
  rw [hretired, List.filter_append, List.filter_append, List.map_append, List.map_append,
    pushed_ids] at hids
  have hbefore : ((inFlight s.spec.front).filter (·.predicted)).map (·.checkpointId) =
      checkpointIds s.cpbuf := h.ids
  have hnext := checkpointIds_next h.ring (commitNum_le (x := x) h) hclear
  have hlen := length_checkpointIds s.cpbuf
  have hle := cpbufPopped_le h.ring (commitNum_le (x := x) h)
  refine Eq.trans ?_ hnext.symm
  rw [hbefore] at hids
  have hdrop := congrArg (List.drop (cpbufPopped s.cpbuf (checkpointBufferInput s x))) hids
  rw [List.drop_append_of_le_length (by omega), List.drop_left' (by
    rw [List.length_map, hpopped])] at hdrop
  exact hdrop.symm

theorem ids_next (hallowed : SpeculationStep s.spec (checkpointed s x))
    (hkept : CheckpointsReturned s x) :
    (predictedInFlight (checkpointNext s x)).map (·.checkpointId) =
        checkpointIds (checkpointNext s x).cpbuf ∧
      ((checkpointNext s x).spec.front.loadStore.commit.curState ≠ .normal →
        predictedInFlight (checkpointNext s x) = []) := by
  cases hflush : (speculationFeedback s.spec (checkpointed s x)).flushing with
  | false =>
      refine ⟨kept_ids h hallowed hflush, fun hnext => absurd ?_ hnext⟩
      exact (speculation_keeps h.pipeline hallowed hflush).nextState
  | true =>
      suffices hempty : predictedInFlight (checkpointNext s x) = [] ∧
          checkpointIds (checkpointNext s x).cpbuf = [] by
        rw [hempty.1, hempty.2]
        exact ⟨rfl, fun _ => rfl⟩
      by_cases hstate : s.spec.front.loadStore.commit.curState = .normal
      · cases hmiss : retireIsMiss s.spec.front.loadStore.commit (checkpointCommitInput s x) with
        | true =>
            have hclear : (checkpointBufferInput s x).commitCpbufFlush = true :=
              Bool.and_eq_true_iff.2 ⟨decide_eq_true hstate, hmiss⟩
            have hfull := (missed_empty h.pipeline.front.loadStore.rob hclear).2
            refine ⟨?_, cleared_ids hclear⟩
            show (inFlight (speculationNext s.spec (checkpointed s x)).front).filter _ = []
            rw [inFlight_flushed hflush, hfull, if_pos rfl, List.filter_nil]
        | false =>
            have hclear : (checkpointBufferInput s x).commitCpbufFlush = false := by
              show (decide _ && retireIsMiss s.spec.front.loadStore.commit
                (checkpointCommitInput s x)) = false
              rw [hmiss, Bool.and_false]
            have hnone := hkept hflush hstate hmiss
            rw [squashedBy, if_pos hstate] at hnone
            exact flushed_ids h hflush hclear
              (List.filter_eq_nil_iff.2 fun p hp => by rw [hnone p hp]; exact Bool.false_ne_true)
              (popped_retired h.pipeline hstate hmiss)
      · have hclear : (checkpointBufferInput s x).commitCpbufFlush = false := by
          show (decide _ && _) = false
          rw [decide_eq_false hstate, Bool.false_and]
        have hretired : speculationRetired s.spec (checkpointed s x) = 0 :=
          (walking_quiet (c := checkpointCommitInput s x) hstate).2.1
        refine flushed_ids h hflush hclear ?_ ?_
        · rw [hretired]
          exact h.walking hstate
        · rw [cpbufCommitNum_eq, popped_walking hstate, hretired]
          rfl

theorem checkpointInv_next (hallowed : SpeculationStep s.spec (checkpointed s x))
    (hkept : CheckpointsReturned s x) :
    CheckpointInv (checkpointNext s x) where
  pipeline := pipelineInv_next h.pipeline hallowed
  ring := cpbufNext_wellFormed h.ring (commitNum_le h)
  ids := (ids_next h hallowed hkept).1
  walking := (ids_next h hallowed hkept).2

omit h in
theorem accounted_of_inv (h : CheckpointInv s) : CheckpointsAccounted s := by
  intro _
  constructor
  · have hlen := congrArg List.length h.ids
    rw [List.length_map, length_checkpointIds] at hlen
    exact hlen.symm
  · intro p hp
    refine head_checkpointIds ?_
    rw [← h.ids, List.head?_map, Option.mem_def.1 hp]
    rfl

/-- After a full flush nothing is in flight, so no entry is left. -/
theorem flush_empties (hallowed : SpeculationStep s.spec (checkpointed s x))
    (hkept : CheckpointsReturned s x) :
    FlushEmpties s x := by
  intro hfull
  have hflush : (speculationFeedback s.spec (checkpointed s x)).flushing = true :=
    flushing_of_robFlush h.pipeline hfull
  have hnone : predictedInFlight (checkpointNext s x) = [] := by
    show (inFlight (speculationNext s.spec (checkpointed s x)).front).filter _ = []
    rw [inFlight_flushed hflush, hfull, if_pos rfl, List.filter_nil]
  have hlen := congrArg List.length (ids_next h hallowed hkept).1
  rw [hnone, length_checkpointIds] at hlen
  exact hlen.symm

end Step

/-! ## Runs -/

theorem checkpointReset_inv (mem : Nat → Nat → BitVec 8) (outData : Nat → BitVec 8)
    (robBuffer : Nat → RobItem) (buffer : Nat → StoreBufferItem)
    (checkpoints : Nat → Checkpoint) :
    CheckpointInv (checkpointReset mem outData robBuffer buffer checkpoints) where
  pipeline := pipelineInv_reset mem outData robBuffer buffer
  ring := cpbufReset_wellFormed checkpoints
  ids := (checkpointIds_nil rfl rfl).symm
  walking := fun hne => absurd rfl hne

/-- Exact grants, and rename sends nothing behind an instruction that it holds back. -/
abbrev CheckpointFills (s : CheckpointState) (x : SpeculationInput) : Prop :=
  SpeculationFills s.spec (checkpointed s x)

/-- In every run whose cycles keep the reorder buffer and return the checkpoints of what
they discard the ring holds those of the predicted jumps in flight, and every full flush
leaves it empty. -/
theorem checkpoints_accounted (mem : Nat → Nat → BitVec 8) (outData : Nat → BitVec 8)
    (robBuffer : Nat → RobItem) (buffer : Nat → StoreBufferItem)
    (checkpoints : Nat → Checkpoint) (inputs : List SpeculationInput)
    (hallowed : Along checkpointNext CheckpointAllowed
      (checkpointReset mem outData robBuffer buffer checkpoints) inputs)
    (hfills : Along checkpointNext CheckpointFills
      (checkpointReset mem outData robBuffer buffer checkpoints) inputs)
    (hkept : Along checkpointNext CheckpointsReturned
      (checkpointReset mem outData robBuffer buffer checkpoints) inputs) :
    Always checkpointNext CheckpointsAccounted
        (checkpointReset mem outData robBuffer buffer checkpoints) inputs ∧
      Along checkpointNext FlushEmpties
        (checkpointReset mem outData robBuffer buffer checkpoints) inputs := by
  have hinv := checkpointReset_inv mem outData robBuffer buffer checkpoints
  have hboth := ((hallowed.and hfills).and hkept).mono
    (Q := fun s x => SpeculationStep s.spec (checkpointed s x) ∧ CheckpointsReturned s x)
    fun _ _ h => ⟨⟨h.1.1, h.1.2⟩, h.2⟩
  have hstep : ∀ s x, CheckpointInv s →
      SpeculationStep s.spec (checkpointed s x) ∧ CheckpointsReturned s x →
      CheckpointInv (checkpointNext s x) :=
    fun _ _ h hstep => checkpointInv_next h hstep.1 hstep.2
  exact ⟨(always_of_step hstep hinv hboth).mono fun _ => accounted_of_inv,
    (Along.strengthen hstep hinv hboth).mono fun _ _ h => flush_empties h.1 h.2.1 h.2.2⟩

/-! ## A branch that goes the other way -/

instance : Decidable (CheckpointsReturned s x) :=
  inferInstanceAs (Decidable (_ → _ → _ → ∀ p ∈ squashedBy _ _, p.predicted = false))

instance : Decidable (FlushEmpties s x) := inferInstanceAs (Decidable (_ → _))

/-- Reset with the program of one branch. -/
abbrev branchCheckpoints : CheckpointState :=
  checkpointReset branchFirst (fun _ => 0) (fun _ => RobItem.zero) noStores
    fun _ => Checkpoint.zero

theorem branchFound_checkpoints :
    Along checkpointNext CheckpointAllowed branchCheckpoints branchFound := by
  refine ⟨?_, ?_, ?_, ?_, ?_, trivial⟩
  · exact quietSpeculation_allowed rfl rfl fun h => absurd h Bool.false_ne_true
  · exact quietSpeculation_allowed rfl rfl fun h => absurd h Bool.false_ne_true
  · exact quietSpeculation_allowed rfl rfl fun h => absurd h Bool.false_ne_true
  · exact quietSpeculation_allowed rfl rfl fun h => absurd h Bool.false_ne_true
  · refine quietSpeculation_allowed rfl rfl fun _ _ => ⟨⟨0, ?_, ?_, ?_, ?_, ?_⟩, ?_, ?_⟩
    all_goals decide +kernel

theorem checkpoints_accounted_miss :
    ((run checkpointNext branchCheckpoints branchFound).cpbuf.wptr = 1 ∧
      (run checkpointNext branchCheckpoints branchRetires).cpbuf.wptr = 0) ∧
    Always checkpointNext CheckpointsAccounted branchCheckpoints branchRetires ∧
    Along checkpointNext FlushEmpties branchCheckpoints branchRetires := by
  refine ⟨by decide +kernel, checkpoints_accounted branchFirst (fun _ => 0)
    (fun _ => RobItem.zero) noStores (fun _ => Checkpoint.zero) branchRetires
    ((along_append ..).2 ⟨branchFound_checkpoints, ?_, ?_, ?_, trivial⟩)
    (by decide +kernel) (by decide +kernel)⟩
  · exact quietSpeculation_allowed rfl rfl fun h => absurd h Bool.false_ne_true
  · exact quietSpeculation_allowed rfl rfl fun h => absurd h Bool.false_ne_true
  · exact quietSpeculation_allowed rfl rfl fun h => absurd h Bool.false_ne_true

/-- An interrupt that discards the branch leaves its checkpoint in the ring. -/
theorem interrupt_keeps_checkpoint :
    Along checkpointNext CheckpointAllowed branchCheckpoints branchDiscarded ∧
      ¬Along checkpointNext FlushEmpties branchCheckpoints branchDiscarded := by
  refine ⟨(along_append ..).2 ⟨branchFound_checkpoints, ?_, ?_, trivial⟩, by decide +kernel⟩
  · exact quietSpeculation_allowed rfl rfl fun h => absurd h Bool.false_ne_true
  · exact quietSpeculation_allowed rfl rfl fun h => absurd h Bool.false_ne_true

end DreamCore.Proofs
