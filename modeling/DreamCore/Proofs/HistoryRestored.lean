import DreamCore.Proofs.BranchTracking

/-!
# The speculative branch history

Without an unresolved misprediction the speculative global history is the retired one with
the predicted outcomes in flight.  A mispredicted branch puts it right when it retires; no
other flush does, so the histories agree after a flush that discards no branch.
-/

namespace DreamCore.Proofs

open DreamCore.Clocked DreamCore.Model DreamCore.Rtl

/-! ## What is known of a state -/

section State

variable (s : SpeculationState)

/-- While commit walks back. -/
structure WalkingBack : Prop where
  history : s.bp.gshareGlobalHistory = s.bp.gshareGlobalHistoryRetired
  inFlight : ∀ p ∈ inFlight s.front, isBranchWord p.value = false
  squashed : ∀ p ∈ s.squashed, isBranchWord p.value = false

structure SpeculationInv : Prop where
  pipeline : PipelineInv s
  normal : s.front.loadStore.commit.curState = .normal → HistoryExtended s
  walking : s.front.loadStore.commit.curState ≠ .normal → WalkingBack s

end State

variable {s : SpeculationState} {x : SpeculationInput}

/-! ## Branches retire -/

theorem branch_asks {word : Nat} (h : isBranchWord word = true) : asksPredictor word = true := by
  rw [asksPredictor, h, Bool.or_true]

section RetiredBranch

/-- A predicted branch retires, and the predictor hears of it. -/
structure RetiredBranch (s : SpeculationState) (x : SpeculationInput) (k : Nat)
    (hk : k < s.front.loadStore.rob.entries.length) : Prop where
  finish : s.front.loadStore.rob.entries[k].item.finish = true
  reported : (commitValid (speculationEvents s x) && commitIsBranch (speculationEvents s x)) =
    true
  jump : commitJump (speculationEvents s x) = s.front.loadStore.rob.entries[k].item.bruJump
  hit : commitHit (speculationEvents s x) = true →
    s.front.loadStore.rob.entries[k].item.bruJump =
      s.front.loadStore.rob.entries[k].tag.op.predictedJump
  last : speculationRetired s x = k + 1

variable (h : PipelineInv s) (hstate : s.front.loadStore.commit.curState = .normal)
include h hstate

theorem retiredBranch_of_popped {k : Nat} (hpop : k < speculationRetired s x)
    (hk : k < s.front.loadStore.rob.entries.length)
    (hbranch : isPredictedBranch s.front.loadStore.rob.entries[k].tag.op.toFetchDecodePack =
      true) : RetiredBranch s x k hk := by
  have hrob := h.front.loadStore.rob
  obtain ⟨hpredicted, hword⟩ := Bool.and_eq_true_iff.1 hbranch
  obtain ⟨hvalid, hfinish, hlast⟩ := popped_predicted h hstate hpop hk hpredicted
  have hmem := List.getElem_mem hk
  have hentry := (h.normal hstate).entries _ hmem
  have hjump := (hentry.finished hfinish (h.units _ hmem (branch_asks hword))).2
  have hdata := retireData_eq (speculation_view x hrob) hk
  have hindex := commitIndex_eq hrob (Nat.lt_of_lt_of_le hpop popCount_le_width) hvalid
  have hitem : ∀ {β : Type} (f : RobItem → β),
      f (retireData (speculationCommitInput s x) (commitIndex (speculationEvents s x))) =
        f s.front.loadStore.rob.entries[k].item := fun f => by rw [hindex, hdata]
  refine ⟨hfinish, ?_, hitem (·.bruJump), fun hhit => ?_, hlast⟩
  · have hisBranch : commitIsBranch (speculationEvents s x) = true := by
      show isBranchWord (retireData _ (commitIndex (speculationEvents s x))).instValue = true
      rw [hitem (·.instValue), hentry.value]
      exact hword
    rw [commitValid, hindex, hvalid, hisBranch, Bool.and_true]
  · have hhit' : bruOpIsHit (speculationCommitInput s x)
        (commitIndex (speculationEvents s x)) = true := hhit
    rw [bruOpIsHit, hindex, hdata, Bool.and_eq_true, decide_eq_true_iff, hjump] at hhit'
    exact hhit'.1

/-- The predictor hears of no other branch. -/
theorem reported_iff_popped :
    (commitValid (speculationEvents s x) && commitIsBranch (speculationEvents s x)) = true ↔
      ∃ k, ∃ hk : k < s.front.loadStore.rob.entries.length, k < speculationRetired s x ∧
        isPredictedBranch s.front.loadStore.rob.entries[k].tag.op.toFetchDecodePack = true := by
  constructor
  · intro hreported
    rw [Bool.and_eq_true, commitValid_iff] at hreported
    obtain ⟨hany, hbranch⟩ := hreported
    obtain ⟨i, hi, hvalid⟩ := anyBit_iff.1 hany
    obtain ⟨hpop, hk, hpredicted, hdata⟩ := predicted_of_reported h hstate hi hvalid
    have hinst : isBranchWord (retireData (speculationCommitInput s x)
      (commitIndex (speculationEvents s x))).instValue = true := hbranch
    rw [commitIndex_eq h.front.loadStore.rob hi hvalid, hdata,
      ((h.normal hstate).entries _ (List.getElem_mem hk)).value] at hinst
    exact ⟨i, hk, hpop, Bool.and_eq_true_iff.2 ⟨hpredicted, hinst⟩⟩
  · rintro ⟨k, hk, hpop, hbranch⟩
    exact (retiredBranch_of_popped h hstate hpop hk hbranch).reported

/-- Without a misprediction the retired history takes the predicted outcomes of what
retires. -/
theorem retired_next (hhit : commitMiss (speculationEvents s x) = false) :
    gshareGlobalHistoryRetiredNext s.bp (speculationEvents s x) =
      extendHistory s.bp.gshareGlobalHistoryRetired
        (predictedOutcomes ((inFlight s.front).take (speculationRetired s x))) := by
  by_cases hany : ∃ k, ∃ hk : k < s.front.loadStore.rob.entries.length,
      k < speculationRetired s x ∧
        isPredictedBranch s.front.loadStore.rob.entries[k].tag.op.toFetchDecodePack = true
  · obtain ⟨k, hk, hpop, hbranch⟩ := hany
    have hretired := retiredBranch_of_popped h hstate hpop hk hbranch
    have hhits : commitHit (speculationEvents s x) = true := by
      by_contra hmiss
      rw [Bool.not_eq_true] at hmiss
      have := commitMiss_iff.2 ⟨hretired.reported, hmiss⟩
      exact Bool.false_ne_true (hhit.symm.trans this)
    have hone : predictedOutcomes
        [s.front.loadStore.rob.entries[k].tag.op.toFetchDecodePack] =
          [s.front.loadStore.rob.entries[k].tag.op.predictedJump] := by
      rw [predictedOutcomes, List.filter_cons_of_pos hbranch]
      rfl
    rw [gshareGlobalHistoryRetiredNext, if_pos hretired.reported, commitGlobalHistory,
      hretired.jump, hretired.hit hhits, predictedOutcomes_predicted,
      retired_predicted h hstate hpop hk (Bool.and_eq_true_iff.1 hbranch).1, hone]
    rfl
  · have hnone : predictedOutcomes ((inFlight s.front).take (speculationRetired s x)) = [] := by
      rw [inFlight_take x h]
      refine predictedOutcomes_none fun p hp => Bool.eq_false_iff.2 fun hbranch => hany ?_
      obtain ⟨e, he, rfl⟩ := List.mem_map.1 hp
      obtain ⟨j, hj, rfl⟩ := List.mem_iff_getElem.1 he
      rw [List.length_take] at hj
      rw [List.getElem_take] at hbranch
      exact ⟨j, by omega, by omega, hbranch⟩
    rw [gshareGlobalHistoryRetiredNext, if_neg (mt (reported_iff_popped h hstate).1 hany), hnone]
    rfl

end RetiredBranch

/-! ## A flush -/

section Flush

variable (hflush : (speculationFeedback s x).flushing = true)
include hflush

/-- Only a retiring misprediction moves the speculative history. -/
theorem gshareGlobalHistory_flushed : (speculationNext s x).bp.gshareGlobalHistory =
    if commitMiss (speculationEvents s x) then commitGlobalHistory s.bp (speculationEvents s x)
    else s.bp.gshareGlobalHistory := by
  obtain ⟨hfetch, hexbru⟩ := quiet_of_flushing hflush
  show gshareGlobalHistoryNext s.bp (speculationPredictorInput s x) = _
  rw [gshareGlobalHistoryNext, hfetch, if_neg Bool.false_ne_true]
  have hexbru' : exbruMiss (speculationPredictorInput s x).toPredictorEvents = false := hexbru
  rw [hexbru', if_neg Bool.false_ne_true]
  rfl

/-- A retiring misprediction puts the histories it names right. -/
theorem missed_flushed (hmiss : commitMiss (speculationEvents s x) = true) :
    (speculationNext s x).bp.gshareGlobalHistory =
        (speculationNext s x).bp.gshareGlobalHistoryRetired ∧
      (speculationNext s x).bp.localBht (localBhtWriteAddr (speculationEvents s x)) =
        (speculationNext s x).bp.localBhtRetired (localBhtWriteAddr (speculationEvents s x)) := by
  obtain ⟨hfetch, hexbru⟩ := quiet_of_flushing hflush
  have hreported := (commitMiss_iff.1 hmiss).1
  constructor
  · rw [gshareGlobalHistory_flushed hflush, if_pos hmiss]
    show _ = gshareGlobalHistoryRetiredNext s.bp (speculationEvents s x)
    rw [gshareGlobalHistoryRetiredNext, if_pos hreported]
  · show localBhtNext s.bp (speculationPredictorInput s x) _ =
      localBhtRetiredNext s.bp (speculationEvents s x) _
    have hexbru' : exbruMiss (speculationPredictorInput s x).toPredictorEvents = false := hexbru
    have hmiss' : commitMiss (speculationPredictorInput s x).toPredictorEvents = true := hmiss
    have haddr : (decide (localBhtWriteAddr (speculationPredictorInput s x).toPredictorEvents =
        localBhtWriteAddr (speculationEvents s x))) = true := decide_eq_true rfl
    rw [localBhtNext, hfetch, Bool.false_and, if_neg Bool.false_ne_true, hexbru', Bool.false_and,
      if_neg Bool.false_ne_true, hmiss', haddr, Bool.true_and, if_pos rfl, localBhtRetiredNext,
      hreported, Bool.true_and, if_pos (decide_eq_true rfl)]
    rfl

end Flush

/-! ## A flush in the normal state -/

/-- The outcome of a finished instruction is in the reorder buffer. -/
theorem executed_finished (hflow : Flowing s.front.loadStore) (ht : Tracked s) {k : Nat}
    {jump : Bool} (hk : k < s.front.loadStore.rob.entries.length)
    (hfinish : s.front.loadStore.rob.entries[k].item.finish = true) (h : Executed s k jump) :
    s.front.loadStore.rob.entries[k].item.bruJump = jump := by
  rcases h with ⟨_, _, hjump⟩ | ⟨j, hj, henable, hid, _⟩ | ⟨henable, hid, _⟩
  · exact hjump
  · obtain ⟨i, hi, hid', hopen, _⟩ := hflow.port.inFlight j hj henable
    have heq := entry_position hflow.wf hi hk (hid'.symm.trans hid)
    subst heq
    exact absurd (hopen.symm.trans hfinish) Bool.false_ne_true
  · obtain ⟨i, hi, hentry⟩ := ht.port henable
    have heq := entry_position hflow.wf hi hk (hentry.robId.symm.trans hid)
    subst heq
    exact absurd (hentry.unfinished.symm.trans hfinish) Bool.false_ne_true

section Normal

variable (h : PipelineInv s) (hstate : s.front.loadStore.commit.curState = .normal)
include h hstate

/-- A misprediction that has been found retires or is in flight after this cycle. -/
theorem unresolved_cases (hunresolved : Unresolved s) :
    commitMiss (speculationEvents s x) = true ∨
      ∃ k, ∃ hk : k < s.front.loadStore.rob.entries.length, speculationRetired s x ≤ k ∧
        isPredictedBranch s.front.loadStore.rob.entries[k].tag.op.toFetchDecodePack = true ∧
        Executed s k (!s.front.loadStore.rob.entries[k].tag.op.predictedJump) := by
  have hflow := h.front.loadStore.normal hstate
  have ht := h.normal hstate
  obtain ⟨k, hk, hbranch, hexecuted⟩ := hunresolved
  rcases Nat.lt_or_ge k (speculationRetired s x) with hpop | hge
  · left
    have hretired := retiredBranch_of_popped h hstate hpop hk hbranch
    have hjump := executed_finished hflow ht hk hretired.finish hexecuted
    refine commitMiss_iff.2 ⟨hretired.reported, Bool.eq_false_iff.2 fun hhit => ?_⟩
    have hsame := (hretired.hit hhit).symm.trans hjump
    cases hpredicted : s.front.loadStore.rob.entries[k].tag.op.predictedJump <;>
      simp [hpredicted] at hsame
  · exact Or.inr ⟨k, hk, hge, hbranch, hexecuted⟩

theorem mem_squashed {k : Nat} (hk : k < s.front.loadStore.rob.entries.length)
    (hge : speculationRetired s x ≤ k) :
    s.front.loadStore.rob.entries[k].tag.op.toFetchDecodePack ∈ squashedBy s x := by
  have hflow := h.front.loadStore.normal hstate
  have hle : speculationRetired s x ≤ s.front.loadStore.rob.entries.length :=
    popCount_le (speculation_view x hflow.rob)
  rw [squashedBy, if_pos hstate, inFlight, List.append_assoc,
    List.drop_append_of_le_length (by rwa [List.length_map])]
  refine List.mem_append_left _ (List.mem_iff_getElem.2 ⟨k - speculationRetired s x, ?_, ?_⟩)
  · rw [List.length_drop, List.length_map]
    omega
  · have heq : speculationRetired s x + (k - speculationRetired s x) = k := by omega
    rw [List.getElem_drop, List.getElem_map]
    simp only [heq]

variable (hkept : HistoryKept s x) (hflush : (speculationFeedback s x).flushing = true)
include hkept hflush

omit h in
theorem none_squashed (hhit : commitMiss (speculationEvents s x) = false) :
    ∀ p ∈ squashedBy s x, isBranchWord p.value = false := by
  intro p hp
  rw [Bool.eq_false_iff]
  intro hbranch
  exact Bool.false_ne_true (hhit.symm.trans (hkept.noneLost hflush hstate p hp hbranch).1)

theorem flush_restores_global (hhistory : HistoryExtended s) :
    (speculationNext s x).bp.gshareGlobalHistory =
      (speculationNext s x).bp.gshareGlobalHistoryRetired := by
  cases hmiss : commitMiss (speculationEvents s x) with
  | true => exact (missed_flushed hflush hmiss).1
  | false =>
      have hnone := none_squashed hstate hkept hflush hmiss
      have hresolved : ¬Unresolved s := by
        intro hunresolved
        rcases unresolved_cases (x := x) h hstate hunresolved with hfound | ⟨k, hk, hge, hbranch, _⟩
        · exact Bool.false_ne_true (hmiss.symm.trans hfound)
        · have hword := hnone _ (mem_squashed h hstate hk hge)
          exact Bool.false_ne_true (hword.symm.trans (branch_of_predicted hbranch))
      have hrest : predictedOutcomes ((inFlight s.front).drop (speculationRetired s x)) = [] := by
        refine predictedOutcomes_none fun p hp => Bool.eq_false_iff.2 fun hbranch => ?_
        have hmem : p ∈ squashedBy s x := by
          rw [squashedBy, if_pos hstate]
          exact hp
        exact Bool.false_ne_true ((hnone p hmem).symm.trans (branch_of_predicted hbranch))
      rw [gshareGlobalHistory_flushed hflush, hmiss, if_neg Bool.false_ne_true]
      show _ = gshareGlobalHistoryRetiredNext s.bp (speculationEvents s x)
      rw [retired_next h hstate hmiss, hhistory hresolved,
        predictedOutcomes_split (speculationRetired s x) (inFlight s.front), hrest,
        List.append_nil]

omit h in
theorem flush_restores_local {p : FetchDecodePack} (hp : p ∈ squashedBy s x)
    (hbranch : isBranchWord p.value = true) :
    (speculationNext s x).bp.localBht (localGetPcP1 p.pc) =
      (speculationNext s x).bp.localBhtRetired (localGetPcP1 p.pc) := by
  obtain ⟨hmiss, haddr⟩ := hkept.noneLost hflush hstate p hp hbranch
  rw [haddr]
  exact (missed_flushed hflush hmiss).2

end Normal

/-! ## A cycle without a flush -/

section Keep

variable (h : PipelineInv s) (hallowed : SpeculationStep s x)
  (hflush : (speculationFeedback s x).flushing = false)
include h hallowed hflush

/-- A misprediction stays unresolved. -/
theorem unresolved_next (hunresolved : Unresolved s) : Unresolved (speculationNext s x) := by
  have hkeep := speculation_keeps h hallowed hflush
  have ht := h.normal hkeep.state
  have hport : (speculationNext s x).front.loadStore.wbCommitPort = _ := hkeep.wbCommitPort_next
  have hhit : commitMiss (speculationEvents s x) = false := by
    rw [Bool.eq_false_iff]
    intro hmiss
    exact Bool.false_ne_true (hflush.symm.trans (flushing_of_miss hkeep.flow.rob hmiss).2)
  rcases unresolved_cases (x := x) h hkeep.state hunresolved with
    hmiss | ⟨k, hk, hge, hbranch, hexecuted⟩
  · exact absurd (hhit.symm.trans hmiss) Bool.false_ne_true
  · obtain ⟨i, hi, hid, hget⟩ := entry_kept h hallowed hflush hk hge
    have hop : (speculationNext s x).front.loadStore.rob.entries[i].tag.op =
        s.front.loadStore.rob.entries[k].tag.op := by
      rw [hget, update_op]
    refine ⟨i, hi, by rw [hop]; exact hbranch, ?_⟩
    rw [hop]
    rcases hexecuted with ⟨_, hfinish, hjump⟩ | ⟨j, hj, henable, hid', hjump⟩ |
      ⟨henable, hid', hjump⟩
    · left
      refine ⟨hi, ?_⟩
      rw [hget]
      rcases hkeep.item_cases hk with hsame | ⟨j, hj, henable, hid', _⟩
      · rw [hsame]
        exact ⟨hfinish, hjump⟩
      · obtain ⟨k', hk', hid'', hopen, _⟩ := hkeep.flow.port.inFlight j hj henable
        have heq := entry_position hkeep.flow.wf hk' hk (hid''.symm.trans hid')
        subst heq
        exact absurd (hopen.symm.trans hfinish) Bool.false_ne_true
    · left
      refine ⟨hi, ?_⟩
      rw [hget]
      have hwe : commitRobInputDataWe s.front.loadStore.commit
          (loadStoreCommitInput s.front.loadStore (speculationLoadStore s x)) j = true := by
        rw [commitRobInputDataWe, hkeep.state, hkeep.nextState, hkeep.noFlush]
        exact henable
      rcases robItemWritten_cases (loadStore_view (speculationLoadStore s x) hkeep.flow.rob)
        hkeep.flow.port hk with ⟨_, hnone⟩ | ⟨j', hj', hwe', hid'', _, hwritten⟩
      · exact absurd hid' (hnone j hj hwe)
      · have heq := hkeep.flow.port.once j' hj' j hj (Bool.and_eq_true_iff.1 hwe').2 henable
          (hid''.trans hid'.symm)
        subst heq
        have hitem : (loadStoreUpdate s.front.loadStore (speculationLoadStore s x) k
            s.front.loadStore.rob.entries[k]).item = _ := hwritten
        rw [hitem]
        exact ⟨rfl, hjump⟩
    · right
      left
      refine ⟨bruWbIndex, by decide, ?_⟩
      have hresult : (speculationNext s x).front.loadStore.wbCommitPort bruWbIndex =
          s.bruWbPort := by
        rw [hport]
        exact executeWb_bru s x
      rw [hresult]
      exact ⟨henable, hid'.trans hid.symm, hjump⟩

/-- A misprediction the branch unit finds is unresolved. -/
theorem unresolved_found (hmiss : exbruMiss (speculationEvents s x) = true) :
    Unresolved (speculationNext s x) := by
  rw [exbruMiss, Bool.and_eq_true, Bool.and_eq_true, Bool.not_eq_true'] at hmiss
  obtain ⟨⟨hvalid, hhit⟩, hword⟩ := hmiss
  have hvalid' : exbruBpValid x.issueBruFifoDataOutValid (speculationFeedback s x)
    x.issueBruFifoDataOut = true := hvalid
  rw [exbruBpValid, bruWbPortWe, bruWbPortFlush, hflush, Bool.or_false, Bool.not_not] at hvalid'
  simp only [Bool.and_eq_true] at hvalid'
  obtain ⟨⟨⟨hout, henable⟩, _⟩, hcheckpoint⟩ := hvalid'
  obtain ⟨i, hi, hid, hop, _⟩ := bruIssued_kept h hallowed hflush (hallowed.issued hout hflush)
  have hport : (speculationNext s x).bruWbPort = bruSendPack x := by
    rw [bruWbPort_next hflush, hout, if_pos rfl]
  have hjump : (bruSendPack x).predictedJump ≠ (bruSendPack x).bruJump :=
    of_decide_eq_false hhit
  have hpredicted : x.issueBruFifoDataOut.predicted = true := by
    obtain ⟨k, hk, _, hop', _⟩ := (hallowed.issued hout hflush).inFlight
    have hmem : x.issueBruFifoDataOut.toFetchDecodePack ∈ inFlight s.front := by
      rw [inFlight, List.append_assoc, hop']
      exact List.mem_append_left _ (List.mem_map.2 ⟨_, List.getElem_mem hk, rfl⟩)
    rw [← (h.fetched _ hmem).checkpoint]
    exact hcheckpoint
  refine ⟨i, hi, ?_, Or.inr (Or.inr ?_)⟩
  · rw [← hop]
    exact Bool.and_eq_true_iff.2 ⟨hpredicted, hword⟩
  · rw [hport, ← hop]
    refine ⟨henable, hid, ?_⟩
    have hsame : (bruSendPack x).predictedJump = x.issueBruFifoDataOut.predictedJump := rfl
    rw [hsame] at hjump
    cases hfound : (bruSendPack x).bruJump <;>
      cases hexpected : x.issueBruFifoDataOut.predictedJump <;>
      simp [hfound, hexpected] at hjump ⊢

theorem history_next (hkept : HistoryKept s x) (hhistory : HistoryExtended s) :
    HistoryExtended (speculationNext s x) := by
  intro hresolved
  have hkeep := speculation_keeps h hallowed hflush
  have hbefore : ¬Unresolved s := fun hun => hresolved (unresolved_next h hallowed hflush hun)
  have hexbru : exbruMiss (speculationEvents s x) = false :=
    Bool.eq_false_iff.2 fun hmiss => hresolved (unresolved_found h hallowed hflush hmiss)
  have hhit : commitMiss (speculationEvents s x) = false := Bool.eq_false_iff.2 fun hmiss =>
    Bool.false_ne_true (hflush.symm.trans (flushing_of_miss hkeep.flow.rob hmiss).2)
  have hpushed := @fetchPushed_outcomes s.front.fetch (speculationFetchInput s x)
    (frontEnd_space s.front (speculationFront s x))
    (fun hvalid => (sameBundle s x).fetchBpValid_eq.trans (Bool.and_eq_true_iff.1 hvalid).1)
    fun hupdates => hkept.checkpoint ((fetchUpdates_eq s x).trans hupdates)
  have hflow := outcomes_next h.front (front_allowed h hallowed) hallowed.fills hflush
  have hretired : frontEndRetired s.front (speculationFront s x) =
      (inFlight s.front).take (speculationRetired s x) := (inFlight_take x h).symm
  have hspeculative : (speculationNext s x).bp.gshareGlobalHistory =
      extendHistory s.bp.gshareGlobalHistory
        (predictedOutcomes (frontEndPushed s.front (speculationFront s x))) := by
    show gshareGlobalHistoryNext s.bp (speculationPredictorInput s x) =
      extendHistory _ (predictedOutcomes (fetchPushed s.front.fetch (speculationFetchInput s x)))
    have hexbru' : exbruMiss (speculationPredictorInput s x).toPredictorEvents = false := hexbru
    have hhit' : commitMiss (speculationPredictorInput s x).toPredictorEvents = false := hhit
    rw [hpushed, ← fetchUpdates_eq, gshareGlobalHistoryNext, hexbru', if_neg Bool.false_ne_true,
      if_neg Bool.false_ne_true, hhit', if_neg Bool.false_ne_true]
    cases fetchUpdates (speculationPredictorInput s x) <;> rfl
  have hret : (speculationNext s x).bp.gshareGlobalHistoryRetired = _ :=
    retired_next h hkeep.state hhit
  rw [hspeculative, hhistory hbefore, hret, ← extendHistory_append, ← extendHistory_append, hflow,
    hretired]
  rfl

end Keep

/-! ## The invariant -/

section Inv

variable (h : SpeculationInv s) (hallowed : SpeculationStep s x) (hkept : HistoryKept s x)
include h

/-- A history that commit walks back with stays the retired one. -/
theorem walking_next (hstate : s.front.loadStore.commit.curState ≠ .normal) :
    (speculationNext s x).bp.gshareGlobalHistory =
      (speculationNext s x).bp.gshareGlobalHistoryRetired := by
  have hflush : (speculationFeedback s x).flushing = true :=
    (walking_quiet (c := speculationCommitInput s x) hstate).1
  have hquiet : commitValid (speculationEvents s x) = false := by
    show commitBpValid s.front.loadStore.commit (speculationCommitInput s x) _ = false
    rw [commitBpValid, retireGate, decide_eq_false hstate, Bool.false_and, Bool.false_and,
      Bool.false_and, Bool.false_and]
  have hhit : commitMiss (speculationEvents s x) = false := by
    rw [commitMiss, hquiet, Bool.false_and, Bool.false_and]
  rw [gshareGlobalHistory_flushed hflush, hhit, if_neg Bool.false_ne_true,
    (h.walking hstate).history]
  show _ = gshareGlobalHistoryRetiredNext s.bp (speculationEvents s x)
  rw [gshareGlobalHistoryRetiredNext, hquiet, Bool.false_and, if_neg Bool.false_ne_true]

omit h in
/-- The pipeline is empty, and the histories agree. -/
theorem extended_flushed (hflush : (speculationFeedback s x).flushing = true)
    (hempty : fullyFlushed s x = true)
    (hhistory : (speculationNext s x).bp.gshareGlobalHistory =
      (speculationNext s x).bp.gshareGlobalHistoryRetired) :
    HistoryExtended (speculationNext s x) := by
  intro _
  rw [hhistory, inFlight_flushed hflush, hempty, if_pos rfl]
  rfl

include hallowed hkept

theorem extended_next
    (hnext : (speculationNext s x).front.loadStore.commit.curState = .normal) :
    HistoryExtended (speculationNext s x) := by
  by_cases hstate : s.front.loadStore.commit.curState = .normal
  · cases hflush : (speculationFeedback s x).flushing with
    | true =>
        exact extended_flushed hflush (flushing_cleared hstate hflush hnext)
          (flush_restores_global h.pipeline hstate hkept hflush (h.normal hstate))
    | false => exact history_next h.pipeline hallowed hflush hkept (h.normal hstate)
  · obtain ⟨hflush, _, _, hback⟩ := walking_quiet (c := speculationCommitInput s x) hstate
    exact extended_flushed hflush (hback hnext) (walking_next h hstate)

theorem walkingBack_next
    (hnext : (speculationNext s x).front.loadStore.commit.curState ≠ .normal) :
    WalkingBack (speculationNext s x) := by
  have hflush := flushing_of_walking h.pipeline hallowed hnext
  have hkeeps : ∀ p ∈ inFlight (speculationNext s x).front,
      p ∈ (inFlight s.front).drop (speculationRetired s x) :=
    fun p => mem_inFlight_flushed hflush (retired_le x h.pipeline)
  by_cases hstate : s.front.loadStore.commit.curState = .normal
  · have hhit : commitMiss (speculationEvents s x) = false := Bool.eq_false_iff.2 fun hmiss =>
      hnext (flushing_of_miss h.pipeline.front.loadStore.rob hmiss).1
    have hnone := none_squashed hstate hkept hflush hhit
    refine ⟨flush_restores_global h.pipeline hstate hkept hflush (h.normal hstate),
      fun p hp => hnone p ?_, ?_⟩
    · rw [squashedBy, if_pos hstate]
      exact hkeeps p hp
    · rw [squashed_flushed hflush]
      exact hnone
  · have hwalk := h.walking hstate
    refine ⟨walking_next h hstate,
      fun p hp => hwalk.inFlight p (List.mem_of_mem_drop (hkeeps p hp)), ?_⟩
    rw [squashed_flushed hflush, squashedBy, if_neg hstate]
    exact hwalk.squashed

theorem speculationInv_next : SpeculationInv (speculationNext s x) where
  pipeline := pipelineInv_next h.pipeline hallowed
  normal := extended_next h hallowed hkept
  walking := walkingBack_next h hallowed hkept

omit hallowed in
theorem flush_restores : FlushRestores s x := by
  intro hempty
  have hflush : (speculationFeedback s x).flushing = true :=
    flushing_of_robFlush h.pipeline hempty
  by_cases hstate : s.front.loadStore.commit.curState = .normal
  · exact ⟨flush_restores_global h.pipeline hstate hkept hflush (h.normal hstate),
      fun p hp hbranch => flush_restores_local hstate hkept hflush hp hbranch⟩
  · refine ⟨walking_next h hstate, fun p hp hbranch => ?_⟩
    rw [squashedBy, if_neg hstate] at hp
    exact absurd (((h.walking hstate).squashed p hp).symm.trans hbranch) Bool.false_ne_true

omit hallowed hkept in
theorem historyExtended_of_inv : HistoryExtended s := by
  by_cases hstate : s.front.loadStore.commit.curState = .normal
  · exact h.normal hstate
  · have hwalk := h.walking hstate
    have hnone : predictedOutcomes (inFlight s.front) = [] :=
      predictedOutcomes_none fun p hp => by
        rw [isPredictedBranch, hwalk.inFlight p hp, Bool.and_false]
    intro _
    rw [hnone]
    exact hwalk.history

end Inv

/-! ## Runs -/

theorem speculationReset_inv (mem : Nat → Nat → BitVec 8) (outData : Nat → BitVec 8)
    (robBuffer : Nat → RobItem) (buffer : Nat → StoreBufferItem) :
    SpeculationInv (speculationReset mem outData robBuffer buffer) where
  pipeline := pipelineInv_reset mem outData robBuffer buffer
  normal := fun _ _ => rfl
  walking := fun hne => absurd rfl hne

/-- In every run whose cycles keep the reorder buffer and the histories the speculative
history is the retired one with what is in flight, and every full flush leaves the retired
ones. -/
theorem history_restored (mem : Nat → Nat → BitVec 8) (outData : Nat → BitVec 8)
    (robBuffer : Nat → RobItem) (buffer : Nat → StoreBufferItem) (inputs : List SpeculationInput)
    (hallowed : Along speculationNext SpeculationAllowed
      (speculationReset mem outData robBuffer buffer) inputs)
    (hfills : Along speculationNext SpeculationFills
      (speculationReset mem outData robBuffer buffer) inputs)
    (hkept : Along speculationNext HistoryKept (speculationReset mem outData robBuffer buffer)
      inputs) :
    Always speculationNext HistoryExtended (speculationReset mem outData robBuffer buffer)
        inputs ∧
      Along speculationNext FlushRestores (speculationReset mem outData robBuffer buffer)
        inputs := by
  have hinv := speculationReset_inv mem outData robBuffer buffer
  have hboth := (speculationStep_along hallowed hfills).and hkept
  have hstep : ∀ s x, SpeculationInv s → SpeculationStep s x ∧ HistoryKept s x →
      SpeculationInv (speculationNext s x) :=
    fun _ _ h hstep => speculationInv_next h hstep.1 hstep.2
  exact ⟨(always_of_step hstep hinv hboth).mono fun _ => historyExtended_of_inv,
    (Along.strengthen hstep hinv hboth).mono fun _ _ h => flush_restores h.1 h.2.2⟩

/-! ## A branch that goes the other way -/

instance : Decidable (HistoryKept s x) :=
  decidable_of_iff ((fetchUpdates (speculationPredictorInput s x) = true →
      x.front.fetch.cpbufFetchNewIdValid = true) ∧
    ((speculationFeedback s x).flushing = true →
      s.front.loadStore.commit.curState = .normal →
      ∀ p ∈ squashedBy s x, isBranchWord p.value = true →
        commitMiss (speculationEvents s x) = true ∧
          localGetPcP1 p.pc = localBhtWriteAddr (speculationEvents s x)))
    ⟨fun h => ⟨h.1, h.2⟩, fun h => ⟨h.checkpoint, h.noneLost⟩⟩

instance : Decidable (FlushRestores s x) := inferInstanceAs (Decidable (_ → _ ∧ _))

/-- The first word is `beq x0, x0, 8`, the others are zero. -/
def branchFirst : Nat → Nat → BitVec 8 := fun bank row =>
  if row = 0 ∧ bank = 0 then 0x63 else if row = 0 ∧ bank = 1 then 0x04 else 0

/-- Predicted not to jump. -/
def firstBranch : DecodeRenamePack :=
  decode
    { enable := true, value := 0x463, pc := 0x80000000, hasException := false
      exceptionId := 0, exceptionValue := 0x80000000, predicted := true, predictedJump := false
      predictedNextPc := 0x80000004, checkpointIdValid := true, checkpointId := 0 }

/-- Nothing happens outside, and there is a free checkpoint. -/
def quietSpeculation : SpeculationInput where
  front := { quietFrontEnd with fetch := { plainFetch with cpbufFetchNewIdValid := true } }
  rasBpAddr := 0
  issueBruFifoDataOut := IssueExecutePack.zero
  issueBruFifoDataOutValid := false
  cpbufExbruData := Checkpoint.zero
  csrfAllMepcData := 0

/-- Rename waits. -/
def stalledSpeculation : SpeculationInput :=
  { quietSpeculation with
    front := { quietFrontEnd with
      fetch := quietSpeculation.front.fetch
      rename := { quietFrontEnd.rename with issueFeedbackStall := true } } }

/-- The branch unit gets the branch and finds that it jumps. -/
def branchExecutes : SpeculationInput :=
  { stalledSpeculation with
    issueBruFifoDataOut := { IssueExecutePack.zero with toDecodeRenamePack := firstBranch }
    issueBruFifoDataOutValid := true }

def interrupted : SpeculationInput :=
  { stalledSpeculation with
    front := { stalledSpeculation.front with
      loadStore := { quietLoadStore with
        env := { quietLoadStore.env with intifCommitHasInterrupt := true } } } }

/-- Fetched, decoded, renamed and executed. -/
def branchFound : List SpeculationInput :=
  [quietSpeculation, quietSpeculation, quietSpeculation, quietSpeculation, branchExecutes]

/-- Written back, finished, retired. -/
def branchRetires : List SpeculationInput :=
  branchFound ++ [stalledSpeculation, stalledSpeculation, stalledSpeculation]

/-- Discarded by an interrupt before it is written back. -/
def branchDiscarded : List SpeculationInput := branchFound ++ [interrupted, stalledSpeculation]

/-- From reset, with `beq x0, x0, 8` first. -/
def branchReset : SpeculationState :=
  speculationReset branchFirst (fun _ => 0) (fun _ => RobItem.zero) noStores

theorem quietSpeculation_allowed
    (hwb : x.front.loadStore.executeWb = fun _ => ExecuteWbPack.zero)
    (hpush : x.front.loadStore.issueLsuFifoPush = false)
    (hissued : x.issueBruFifoDataOutValid = true → (speculationFeedback s x).flushing = false →
      BruIssued s x) : SpeculationAllowed s x where
  front :=
    { others := othersAnswer_none hwb
      inOrder := fun hissue => by
        simp [issueAccepted, frontEndLoadStoreInput, hpush] at hissue }
  issued := hissued
  apart := fun _ j _ _ _ henable => by
    rw [hwb] at henable
    exact absurd henable Bool.false_ne_true
  carries := fun j _ _ _ henable => by
    rw [hwb] at henable
    exact absurd henable Bool.false_ne_true

theorem branchFound_allowed : Along speculationNext SpeculationAllowed branchReset branchFound := by
  refine ⟨?_, ?_, ?_, ?_, ?_, trivial⟩
  · exact quietSpeculation_allowed rfl rfl fun h => absurd h Bool.false_ne_true
  · exact quietSpeculation_allowed rfl rfl fun h => absurd h Bool.false_ne_true
  · exact quietSpeculation_allowed rfl rfl fun h => absurd h Bool.false_ne_true
  · exact quietSpeculation_allowed rfl rfl fun h => absurd h Bool.false_ne_true
  · refine quietSpeculation_allowed rfl rfl fun _ _ => ⟨⟨0, ?_, ?_, ?_, ?_, ?_⟩, ?_, ?_⟩
    all_goals decide +kernel

theorem history_restored_miss :
    (fullyFlushed (run speculationNext branchReset
        (branchFound ++ [stalledSpeculation, stalledSpeculation])) stalledSpeculation = true ∧
      (run speculationNext branchReset branchRetires).bp.gshareGlobalHistoryRetired = 1) ∧
    Always speculationNext HistoryExtended branchReset branchRetires ∧
    Along speculationNext FlushRestores branchReset branchRetires := by
  refine ⟨by decide +kernel, history_restored branchFirst (fun _ => 0)
    (fun _ => RobItem.zero) noStores branchRetires
    ((along_append ..).2 ⟨branchFound_allowed, ?_, ?_, ?_, trivial⟩)
    (by decide +kernel) (by decide +kernel)⟩
  · exact quietSpeculation_allowed rfl rfl fun h => absurd h Bool.false_ne_true
  · exact quietSpeculation_allowed rfl rfl fun h => absurd h Bool.false_ne_true
  · exact quietSpeculation_allowed rfl rfl fun h => absurd h Bool.false_ne_true

/-- The outcome the branch unit found stays in the history although the branch never
retires. -/
theorem interrupt_keeps_history :
    Along speculationNext SpeculationAllowed branchReset branchDiscarded ∧
      ¬Along speculationNext FlushRestores branchReset branchDiscarded := by
  refine ⟨(along_append ..).2 ⟨branchFound_allowed, ?_, ?_, trivial⟩, by decide +kernel⟩
  · exact quietSpeculation_allowed rfl rfl fun h => absurd h Bool.false_ne_true
  · exact quietSpeculation_allowed rfl rfl fun h => absurd h Bool.false_ne_true

end DreamCore.Proofs
