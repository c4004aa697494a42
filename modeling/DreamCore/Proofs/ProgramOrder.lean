import DreamCore.Model.ProgramOrder
import DreamCore.Proofs.HistoryRestored

/-!
# Every fetched instruction has one fate

In every run the instructions that fetch pushed are, in program order, those that retired or
were discarded and then those still awaited: none is lost, doubled, made up or overtaken.
-/

namespace DreamCore.Proofs

open DreamCore.Clocked DreamCore.Model DreamCore.Rtl

variable {s : FrontEndState} {input : FrontEndInput}

theorem map_fates (s : FrontEndState) (input : FrontEndInput) :
    (fates s input).map (·.1) = frontEndRetired s input ++ discarded s input := by
  rw [fates, List.map_append, List.map_map, List.map_map]
  exact congrArg₂ _ (List.map_id _) (List.map_id _)

theorem retiredOf_fates (s : FrontEndState) (input : FrontEndInput) :
    retiredOf (fates s input) = frontEndRetired s input := by
  rw [fates, retiredOf, List.filterMap_append, List.filterMap_map, List.filterMap_map]
  exact (congrArg₂ _ List.filterMap_some (List.filterMap_eq_nil_iff.2 fun _ _ => rfl)).trans
    (List.append_nil _)

theorem retired_run (s : FrontEndState) (inputs : List FrontEndInput) :
    retiredOf (outputs frontEndNext fates s inputs) =
      outputs frontEndNext frontEndRetired s inputs := by
  induction inputs generalizing s with
  | nil => rfl
  | cons input inputs ih =>
      rw [outputs, outputs, ← ih, ← retiredOf_fates, retiredOf, List.filterMap_append]
      rfl

/-- The front of what is in flight retires. -/
theorem retired_take (h : FrontEndInv s) (hstate : s.loadStore.commit.curState = .normal) :
    frontEndRetired s input = (inFlight s).take
      (popCount s.loadStore.commit (loadStoreCommitInput s.loadStore input.loadStore)) := by
  have hle : popCount s.loadStore.commit (loadStoreCommitInput s.loadStore input.loadStore) ≤
      s.loadStore.rob.entries.length :=
    popCount_le (loadStore_view input.loadStore (h.loadStore.normal hstate).rob)
  rw [frontEndRetired, inFlight, List.append_assoc,
    List.take_append_of_le_length (by rwa [List.length_map]), List.map_take]

/-- A cycle in which commit walks back decides nothing. -/
theorem walking_awaits (hstate : s.loadStore.commit.curState ≠ .normal) :
    awaiting s = [] ∧ frontEndRetired s input = [] ∧ discarded s input = [] ∧
      (frontEndFeedback s input).flushing = true := by
  obtain ⟨hflush, hnone, _⟩ :=
    walking_quiet (c := loadStoreCommitInput s.loadStore input.loadStore) hstate
  have hawaiting : awaiting s = [] := if_neg hstate
  refine ⟨hawaiting, ?_, ?_, hflush⟩
  · rw [frontEndRetired, hnone, List.take_zero, List.map_nil]
  · rw [discarded, hawaiting, List.drop_nil, ite_self]

/-- After a flush nothing is awaited. -/
theorem awaiting_flush (hflush : (frontEndFeedback s input).flushing = true) :
    awaiting (frontEndNext s input) = [] := by
  rw [awaiting]
  split
  · rename_i hnext
    rw [inFlight_flush hflush, flushed_clears hflush hnext, if_pos rfl]
  · rfl

/-- One cycle decides the fate of the oldest instructions. -/
theorem fates_next (h : FrontEndInv s) (hallowed : FrontEndAllowed s input)
    (hfills : FillsInOrder s input) :
    awaiting s ++ frontEndPushed s input =
      (fates s input).map (·.1) ++ awaiting (frontEndNext s input) := by
  rw [map_fates]
  cases hflush : (frontEndFeedback s input).flushing with
  | false =>
      have hkeep := frontEnd_keeps h hallowed hfills hflush
      have hflow := inFlight_next h hallowed hfills hflush
      have hnext : (frontEndNext s input).loadStore.commit.curState = .normal := hkeep.nextState
      rw [awaiting, if_pos hkeep.state, awaiting, if_pos hnext, discarded, hflush,
        if_neg Bool.false_ne_true, List.append_nil]
      exact hflow
  | true =>
      rw [awaiting_flush hflush, frontEndPushed_flush hflush, List.append_nil, List.append_nil]
      by_cases hstate : s.loadStore.commit.curState = .normal
      · rw [discarded, hflush, if_pos rfl, awaiting, if_pos hstate, retired_take h hstate,
          List.take_append_drop]
      · obtain ⟨hawaiting, hretired, hdiscarded, _⟩ := @walking_awaits s input hstate
        rw [hawaiting, hretired, hdiscarded]
        rfl

/-! ## Runs -/

/-- In every run from reset that keeps the reorder buffer, the pushed instructions are
those with a fate, in the order in which they meet it, and those still awaited; the
entries that leave `rob.sv` are those of the retired ones. -/
theorem every_instruction_has_one_fate (mem : Nat → Nat → BitVec 8) (outData : Nat → BitVec 8)
    (robBuffer : Nat → RobItem) (buffer : Nat → StoreBufferItem) (inputs : List FrontEndInput)
    (hallowed : Along frontEndNext FrontEndAllowed (frontEndReset mem outData robBuffer buffer)
      inputs)
    (hfills : Along frontEndNext FillsInOrder (frontEndReset mem outData robBuffer buffer)
      inputs) :
    outputs frontEndNext frontEndPushed (frontEndReset mem outData robBuffer buffer) inputs =
        (outputs frontEndNext fates (frontEndReset mem outData robBuffer buffer) inputs).map
            (·.1) ++
          awaiting (run frontEndNext (frontEndReset mem outData robBuffer buffer) inputs) ∧
      outputs frontEndNext frontEndRetiredPcs (frontEndReset mem outData robBuffer buffer)
          inputs =
        (retiredOf (outputs frontEndNext fates (frontEndReset mem outData robBuffer buffer)
          inputs)).map (·.pc) := by
  have hflow := outputs_conserved frontEndInv_step
    (fun _ _ h hstep => fates_next h hstep.1 hstep.2)
    (frontEndReset_inv mem outData robBuffer buffer) (hallowed.and hfills)
  refine ⟨?_, ?_⟩
  · rw [outputs_map, ← hflow]
    rfl
  · rw [retiredPcs_run (frontEndReset_inv mem outData robBuffer buffer) (hallowed.and hfills),
      retired_run]

/-! ## An interrupt behind the first instruction -/

/-- A word is pushed, renamed and discarded by an interrupt. -/
def interruptedFrontEnd : List FrontEndInput :=
  List.replicate 4 quietFrontEnd ++ [interrupted.front, quietFrontEnd]

theorem every_instruction_has_one_fate_interrupt :
    ((outputs frontEndNext fates branchReset.front interruptedFrontEnd).head?.map
        fun f => (f.1.pc, f.2)) = some (0x80000000, .discarded) ∧
      outputs frontEndNext frontEndPushed branchReset.front interruptedFrontEnd =
        (outputs frontEndNext fates branchReset.front interruptedFrontEnd).map (·.1) ++
          awaiting (run frontEndNext branchReset.front interruptedFrontEnd) ∧
      outputs frontEndNext frontEndRetiredPcs branchReset.front interruptedFrontEnd =
        (retiredOf (outputs frontEndNext fates branchReset.front interruptedFrontEnd)).map
          (·.pc) := by
  refine ⟨by decide +kernel, every_instruction_has_one_fate branchFirst (fun _ => 0)
    (fun _ => RobItem.zero) noStores interruptedFrontEnd ?_ (by decide +kernel)⟩
  refine ⟨quietFrontEnd_allowed, quietFrontEnd_allowed, quietFrontEnd_allowed,
    quietFrontEnd_allowed, ?_, quietFrontEnd_allowed, trivial⟩
  exact { others := othersAnswer_none rfl
          inOrder := fun hissue => by
            simp [issueAccepted, frontEndLoadStoreInput, interrupted, stalledSpeculation,
              quietLoadStore] at hissue }

end DreamCore.Proofs
