import DreamCore.Model.Predictors
import DreamCore.Proofs.BranchFlow

/-!
# Predicted jumps in the pipeline

An instruction that fetch predicts goes to the branch unit, whose result brings the
prediction back to its entry in the reorder buffer.  Commit tells the predictor about the
predicted jump that retires, at most one a cycle.
-/

namespace DreamCore.Proofs

open DreamCore.Clocked DreamCore.Model DreamCore.Rtl

/-! ## Jumps -/

/-- The instructions that the predictor answers for. -/
def asksPredictor (instruction : Nat) : Bool :=
  isJalWord instruction || isJalrWord instruction || isBranchWord instruction

theorem decode_jump {p : FetchDecodePack} (h : asksPredictor p.value = true) :
    (decode p).opUnit = .bru := by
  rw [asksPredictor, Bool.or_eq_true, Bool.or_eq_true] at h
  rcases h with (hjal | hjalr) | hbranch
  · have hopcode : wordOpcode p.value = 0x6f := of_decide_eq_true hjal
    show (decodeByOpcode p.value (decodeDefault p.hasException)).opUnit = .bru
    simp only [decodeByOpcode, hopcode]
    rfl
  · have hopcode : wordOpcode p.value = 0x67 := of_decide_eq_true hjalr
    show (decodeByOpcode p.value (decodeDefault p.hasException)).opUnit = .bru
    simp only [decodeByOpcode, hopcode]
    rfl
  · exact decode_branch hbranch

/-! ## What is known of a state -/

/-- A predicted instruction is a jump that owns a checkpoint. -/
structure JumpFetched (p : FetchDecodePack) : Prop where
  checkpoint : p.checkpointIdValid = p.predicted
  word : p.predicted = true → asksPredictor p.value = true

/-- Every jump goes to the branch unit. -/
def JumpDecoded (op : DecodeRenamePack) : Prop :=
  asksPredictor op.value = true → op.opUnit = .bru

/-- A finished entry knows its unit, a branch also the prediction it was fetched with. -/
structure BranchEntry (e : Entry LsuInFlight) : Prop where
  value : e.item.instValue = e.tag.op.value
  bruOp : e.item.finish = true → e.item.bruOp = decide (e.tag.op.opUnit = .bru)
  finished : e.item.finish = true → e.tag.op.opUnit = .bru →
    e.item.predicted = e.tag.op.predicted ∧ e.item.predictedJump = e.tag.op.predictedJump

/-- A pack that brings the unit back, and a branch its own prediction. -/
structure BranchResult (op : DecodeRenamePack) (w : ExecuteWbPack) : Prop where
  opUnit : w.opUnit = op.opUnit
  carries : op.opUnit = .bru → CarriesOp op w

section State

variable (s : SpeculationState)

/-- The instruction the branch unit's port answers for. -/
structure PortEntry (k : Nat) (hk : k < s.front.loadStore.rob.entries.length) : Prop where
  robId : s.bruWbPort.robId = s.front.loadStore.rob.idAt k
  opUnit : s.front.loadStore.rob.entries[k].tag.op.opUnit = .bru
  unfinished : s.front.loadStore.rob.entries[k].item.finish = false
  carries : CarriesOp s.front.loadStore.rob.entries[k].tag.op s.bruWbPort

/-- In the normal state. -/
structure Tracked : Prop where
  entries : ∀ e ∈ s.front.loadStore.rob.entries, BranchEntry e
  results : ∀ j, j < wbWidth → (s.front.loadStore.wbCommitPort j).enable = true →
    ∃ k, ∃ hk : k < s.front.loadStore.rob.entries.length,
      (s.front.loadStore.wbCommitPort j).robId = s.front.loadStore.rob.idAt k ∧
      BranchResult s.front.loadStore.rob.entries[k].tag.op (s.front.loadStore.wbCommitPort j)
  lsuFifo : s.front.loadStore.lsuFifo.hasData = true →
    s.front.loadStore.lsuFifo.data.opUnit = .lsu
  lsuPort : s.front.loadStore.lsuWbPort.enable = true → s.front.loadStore.lsuWbPort.opUnit = .lsu
  port : s.bruWbPort.enable = true → ∃ k, ∃ hk, PortEntry s k hk
  portApart : s.bruWbPort.enable = true → ∀ j, j < wbWidth →
    (s.front.loadStore.wbCommitPort j).enable = true →
    (s.front.loadStore.wbCommitPort j).robId ≠ s.bruWbPort.robId

structure PipelineInv : Prop where
  front : FrontEndInv s.front
  fetched : ∀ p ∈ inFlight s.front, JumpFetched p
  waiting : ∀ op ∈ s.front.decodeRenameFifo, JumpDecoded op
  units : ∀ e ∈ s.front.loadStore.rob.entries, JumpDecoded e.tag.op
  normal : s.front.loadStore.commit.curState = .normal → Tracked s
  walking : s.front.loadStore.commit.curState ≠ .normal → s.bruWbPort.enable = false

end State

variable {s : SpeculationState} {x : SpeculationInput}

abbrev SpeculationFills (s : SpeculationState) (x : SpeculationInput) : Prop :=
  FillsInOrder s.front (speculationFront s x)

/-- What a cycle relies on: issue and the units as assumed, exact grants, and instructions
that enter the reorder buffer in order. -/
structure SpeculationStep (s : SpeculationState) (x : SpeculationInput) : Prop
    extends SpeculationAllowed s x where
  fills : SpeculationFills s x

theorem speculationStep_along {s : SpeculationState} {inputs : List SpeculationInput}
    (hallowed : Along speculationNext SpeculationAllowed s inputs)
    (hfills : Along speculationNext SpeculationFills s inputs) :
    Along speculationNext SpeculationStep s inputs :=
  (hallowed.and hfills).mono fun _ _ h => ⟨h.1, h.2⟩

/-! ## Positions -/

theorem entry_position (hwf : s.front.loadStore.rob.WellFormed) {j k : Nat}
    (hj : j < s.front.loadStore.rob.entries.length) (hk : k < s.front.loadStore.rob.entries.length)
    (hid : s.front.loadStore.rob.idAt j = s.front.loadStore.rob.idAt k) : j = k :=
  idAt_inj hwf (Nat.lt_of_lt_of_le hj hwf.2) (Nat.lt_of_lt_of_le hk hwf.2) hid

theorem mem_inFlight_rob {k : Nat} (hk : k < s.front.loadStore.rob.entries.length) :
    s.front.loadStore.rob.entries[k].tag.op.toFetchDecodePack ∈ inFlight s.front := by
  rw [inFlight, List.append_assoc]
  exact List.mem_append_left _ (List.mem_map.2 ⟨_, List.getElem_mem hk, rfl⟩)

/-! ## The wires -/

/-- The load/store side with the branch unit's result. -/
abbrev speculationLoadStore (s : SpeculationState) (x : SpeculationInput) : LoadStoreInput :=
  frontEndLoadStoreInput s.front (speculationFront s x)

theorem speculation_view (x : SpeculationInput) (h : RobSound s.front.loadStore.rob) :
    Shows (speculationCommitInput s x).rob s.front.loadStore.rob.toIdealRob :=
  h.shows x.front.loadStore.stale

theorem executeWb_bru (s : SpeculationState) (x : SpeculationInput) :
    (speculationLoadStore s x).executeWb bruWbIndex = s.bruWbPort := by
  show (if bruWbIndex = bruWbIndex then s.bruWbPort
    else x.front.loadStore.executeWb bruWbIndex) = _
  exact if_pos rfl

theorem executeWb_other {j : Nat} (hj : j ≠ bruWbIndex) :
    (speculationLoadStore s x).executeWb j = x.front.loadStore.executeWb j := if_neg hj

theorem sameBundle (s : SpeculationState) (x : SpeculationInput) :
    SameBundle (speculationFetchInput s x) (frontEndFetchInput s.front x.front) :=
  ⟨rfl, rfl, rfl, rfl, rfl, rfl, rfl⟩

/-- Fetch hands out what it asked for. -/
theorem fetchUpdates_eq (s : SpeculationState) (x : SpeculationInput) :
    fetchUpdates (speculationPredictorInput s x) =
      (fetchBpUpdateValid s.front.fetch (speculationFetchInput s x) &&
        isBranchWord (fetchBpInstruction s.front.fetch (speculationFetchInput s x))) := by
  rw [(sameBundle s x).fetchBpInstruction_eq]
  rfl

/-- Fetch asks for nothing while commit flushes. -/
theorem fetch_quiet (hflush : (speculationFeedback s x).flushing = true) :
    (speculationEvents s x).fetchBpValid = false := by
  have hflushed : fetchDecodeFifoFlush (frontEndFetchInput s.front x.front) = true := hflush
  show fetchBpValid s.front.fetch (frontEndFetchInput s.front x.front) = false
  rw [fetchBpValid, fetchDecodeFifoPush, hflushed, Bool.not_true, Bool.and_false,
    Bool.false_and, Bool.false_and]

/-- Nothing is predicted and nothing executes while commit flushes. -/
theorem quiet_of_flushing (hflush : (speculationFeedback s x).flushing = true) :
    fetchUpdates (speculationPredictorInput s x) = false ∧
      exbruMiss (speculationEvents s x) = false := by
  have hwe : bruWbPortWe x.issueBruFifoDataOutValid (speculationFeedback s x) = false := by
    rw [bruWbPortWe, bruWbPortFlush, hflush, Bool.or_true, Bool.not_true]
  have hexbru : (speculationEvents s x).exbruBpValid = false := by
    show exbruBpValid _ _ _ = false
    rw [exbruBpValid, hwe, Bool.false_and, Bool.false_and, Bool.false_and]
  refine ⟨?_, by rw [exbruMiss, hexbru, Bool.false_and, Bool.false_and]⟩
  have hupdate : (speculationPredictorInput s x).fetchBpUpdateValid = false := by
    show (bpFetchValid (speculationEvents s x) && _) = false
    rw [bpFetchValid, fetch_quiet hflush, Bool.false_and, Bool.false_and]
  rw [fetchUpdates, hupdate, Bool.false_and]

/-- What fetch pushes owns a checkpoint and is a jump if it is predicted. -/
theorem jumpFetched_pushed {p : FetchDecodePack}
    (hp : p ∈ fetchPushed s.front.fetch (speculationFetchInput s x)) : JumpFetched p := by
  refine ⟨fetchPushed_checkpoint hp, fun hpredicted => ?_⟩
  rw [fetchPushed, fifoWritten] at hp
  split at hp
  · obtain ⟨i, _, rfl⟩ := List.mem_map.1 hp
    simp only [fetchDecodePack, fetchPredicted, Bool.and_eq_true, decide_eq_true_eq] at hpredicted
    obtain ⟨⟨⟨hindex, _⟩, hvalid⟩, _⟩ := hpredicted
    have hasks : (speculationEvents s x).fetchBpValid = true ∧
        asksPredictor (speculationEvents s x).fetchBpInstruction = true :=
      Bool.and_eq_true_iff.1 hvalid
    have hword : (speculationEvents s x).fetchBpInstruction =
        fetchOpcode s.front.fetch (speculationFetchInput s x) i := by
      rw [← hindex]
      exact ((sameBundle s x).fetchBpInstruction_eq).symm
    exact (congrArg asksPredictor hword).symm.trans hasks.2
  · exact absurd hp List.not_mem_nil

/-! ## Branches retire -/

section Retire

variable (hrob : RobSound s.front.loadStore.rob)
include hrob

/-- A channel that reports to the predictor retires a predicted operation of the branch
unit. -/
theorem commitBpValid_spec {i : Nat} (hi : i < commitWidth)
    (h : (speculationEvents s x).commitBpValid i = true) :
    i < speculationRetired s x ∧
      commitRobRetireValid s.front.loadStore.commit (speculationCommitInput s x) i = true ∧
      ∃ hk : i < s.front.loadStore.rob.entries.length,
        retireData (speculationCommitInput s x) i = s.front.loadStore.rob.entries[i].item ∧
        s.front.loadStore.rob.entries[i].item.bruOp = true ∧
        s.front.loadStore.rob.entries[i].item.predicted = true ∧
        s.front.loadStore.rob.entries[i].item.finish = true := by
  have hvalid : (retireGate s.front.loadStore.commit (speculationCommitInput s x) &&
    commitRobRetireValid s.front.loadStore.commit (speculationCommitInput s x) i &&
    !(retireData (speculationCommitInput s x) i).hasException &&
    retireIsPredictedCmp s.front.loadStore.commit (speculationCommitInput s x) i) = true := h
  simp only [retireIsPredictedCmp, Bool.and_eq_true, Bool.not_eq_true'] at hvalid
  obtain ⟨⟨⟨hgate, hretire⟩, hexc⟩, ⟨_, hbru⟩, hpredicted⟩ := hvalid
  obtain ⟨_, _, hk, hfinish⟩ := retireValid_spec (speculation_view x hrob) hi hretire
  have hdata := retireData_eq (speculation_view x hrob) hk
  have hpop : commitRobRetirePop s.front.loadStore.commit (speculationCommitInput s x) i =
      true := by
    rw [commitRobRetirePop, hgate, hretire, hexc]
    rfl
  rw [hdata] at hbru hpredicted
  exact ⟨of_decide_eq_true ((retirePop_block i hi).symm.trans hpop), hretire, hk, hdata, hbru,
    hpredicted, hfinish⟩

/-- At most one channel reports. -/
theorem commitIndex_eq {i : Nat} (hi : i < commitWidth)
    (h : (speculationEvents s x).commitBpValid i = true) :
    commitIndex (speculationEvents s x) = i := by
  obtain ⟨_, hretire, _⟩ := commitBpValid_spec hrob hi h
  refine priorityFinderFirst_eq hi h fun j hj => Bool.eq_false_iff.2 fun hbefore => ?_
  obtain ⟨_, _, hk, hdata, hbru, _⟩ := commitBpValid_spec hrob (by omega) hbefore
  have hnone := (retireValid_before hj hretire).2.2
  rw [hdata, hbru] at hnone
  exact Bool.false_ne_true hnone.symm

theorem commitNextState_normal {i : Nat} (hi : i < commitWidth)
    (h : (speculationEvents s x).commitBpValid i = true) :
    commitNextState s.front.loadStore.commit (speculationCommitInput s x) = .normal := by
  obtain ⟨_, hretire, hk, hdata, hbru, _⟩ := commitBpValid_spec hrob hi h
  have hvalid : (retireGate s.front.loadStore.commit (speculationCommitInput s x) &&
    commitRobRetireValid s.front.loadStore.commit (speculationCommitInput s x) i &&
    !(retireData (speculationCommitInput s x) i).hasException &&
    retireIsPredictedCmp s.front.loadStore.commit (speculationCommitInput s x) i) = true := h
  simp only [Bool.and_eq_true, Bool.not_eq_true'] at hvalid
  obtain ⟨⟨⟨_, _⟩, hexc⟩, _⟩ := hvalid
  obtain ⟨hstate, hint, _, _⟩ := retireValid_spec (speculation_view x hrob) hi hretire
  have hnone : retireHasException s.front.loadStore.commit (speculationCommitInput s x) =
      false := by
    rw [Bool.eq_false_iff]
    intro hany
    obtain ⟨_, _, j, _, hretirej, hexcj, _⟩ :=
      retireHasException_spec (speculation_view x hrob) hany
    rcases Nat.lt_trichotomy j i with hlt | rfl | hgt
    · exact Bool.false_ne_true ((retireValid_before hlt hretire).2.1.symm.trans hexcj)
    · exact Bool.false_ne_true (hexc.symm.trans hexcj)
    · have hbefore := (retireValid_before hgt hretirej).2.2
      rw [hdata, hbru] at hbefore
      exact Bool.false_ne_true hbefore.symm
  simp [commitNextState, hstate, hint, hnone]

end Retire

section Popped

variable (h : PipelineInv s) (hstate : s.front.loadStore.commit.curState = .normal)
include h hstate

/-- A predicted jump that retires is reported, behind it nothing retires. -/
theorem popped_predicted {k : Nat} (hpop : k < speculationRetired s x)
    (hk : k < s.front.loadStore.rob.entries.length)
    (hpredicted : s.front.loadStore.rob.entries[k].tag.op.predicted = true) :
    (speculationEvents s x).commitBpValid k = true ∧
      s.front.loadStore.rob.entries[k].item.finish = true ∧
      speculationRetired s x = k + 1 := by
  have hrob := h.front.loadStore.rob
  have hmem := List.getElem_mem hk
  have hentry := (h.normal hstate).entries _ hmem
  obtain ⟨_, hretire, hfinish, hexc, hgate⟩ := popped_spec (speculation_view x hrob) hpop
  have hwidth : k < commitWidth := Nat.lt_of_lt_of_le hpop popCount_le_width
  have hdata := retireData_eq (speculation_view x hrob) hk
  have hunit := h.units _ hmem ((h.fetched _ (mem_inFlight_rob hk)).word hpredicted)
  have hbru : s.front.loadStore.rob.entries[k].item.bruOp = true :=
    (hentry.bruOp hfinish).trans (decide_eq_true hunit)
  refine ⟨?_, hfinish, popCount_branch hwidth hgate hretire (by rw [hdata]; exact hbru)
    (by rw [hdata]; exact hexc)⟩
  show (retireGate _ _ && commitRobRetireValid _ _ k && !(retireData _ k).hasException &&
    retireIsPredictedCmp _ _ k) = true
  rw [retireIsPredictedCmp, hgate, hretire, hdata, hexc, hbru, (hentry.finished hfinish hunit).1,
    hpredicted]
  rfl

/-- Only predicted jumps are reported. -/
theorem predicted_of_reported {i : Nat} (hi : i < commitWidth)
    (hvalid : (speculationEvents s x).commitBpValid i = true) :
    i < speculationRetired s x ∧ ∃ hk : i < s.front.loadStore.rob.entries.length,
      s.front.loadStore.rob.entries[i].tag.op.predicted = true ∧
      retireData (speculationCommitInput s x) i = s.front.loadStore.rob.entries[i].item := by
  obtain ⟨hpop, _, hk, hdata, hbru, hpredicted, hfinish⟩ :=
    commitBpValid_spec h.front.loadStore.rob hi hvalid
  have hentry := (h.normal hstate).entries _ (List.getElem_mem hk)
  have hunit : s.front.loadStore.rob.entries[i].tag.op.opUnit = .bru :=
    of_decide_eq_true ((hentry.bruOp hfinish).symm.trans hbru)
  exact ⟨hpop, hk, (hentry.finished hfinish hunit).1.symm.trans hpredicted, hdata⟩

variable (x) in
omit hstate in
theorem inFlight_take : (inFlight s.front).take (speculationRetired s x) =
    (s.front.loadStore.rob.entries.take (speculationRetired s x)).map
      fun e => e.tag.op.toFetchDecodePack := by
  have hle : speculationRetired s x ≤ s.front.loadStore.rob.entries.length :=
    popCount_le (speculation_view x h.front.loadStore.rob)
  rw [inFlight, List.append_assoc, List.take_append_of_le_length (by rwa [List.length_map]),
    List.map_take]

/-- At most one predicted jump retires in a cycle. -/
theorem retired_predicted {k : Nat} (hpop : k < speculationRetired s x)
    (hk : k < s.front.loadStore.rob.entries.length)
    (hpredicted : s.front.loadStore.rob.entries[k].tag.op.predicted = true) :
    ((inFlight s.front).take (speculationRetired s x)).filter (·.predicted) =
      [s.front.loadStore.rob.entries[k].tag.op.toFetchDecodePack] := by
  obtain ⟨_, _, hlast⟩ := popped_predicted h hstate hpop hk hpredicted
  have hbefore : ((s.front.loadStore.rob.entries.take k).map
      fun e => e.tag.op.toFetchDecodePack).filter (·.predicted) = [] := by
    refine List.filter_eq_nil_iff.2 fun p hp hother => ?_
    obtain ⟨e, he, rfl⟩ := List.mem_map.1 hp
    obtain ⟨j, hj, rfl⟩ := List.mem_iff_getElem.1 he
    rw [List.length_take] at hj
    rw [List.getElem_take] at hother
    have := (popped_predicted h hstate (by omega : j < speculationRetired s x) (by omega)
      hother).2.2
    omega
  rw [inFlight_take x h, hlast, List.take_succ_eq_append_getElem hk, List.map_append,
    List.filter_append, hbefore, List.nil_append]
  exact List.filter_cons_of_pos hpredicted

omit hstate in
theorem retired_none (hnone : ∀ k, ∀ hk : k < s.front.loadStore.rob.entries.length,
    k < speculationRetired s x →
      s.front.loadStore.rob.entries[k].tag.op.predicted = false) :
    ((inFlight s.front).take (speculationRetired s x)).filter (·.predicted) = [] := by
  rw [inFlight_take x h]
  refine List.filter_eq_nil_iff.2 fun p hp hpredicted => ?_
  obtain ⟨e, he, rfl⟩ := List.mem_map.1 hp
  obtain ⟨j, hj, rfl⟩ := List.mem_iff_getElem.1 he
  rw [List.length_take] at hj
  rw [List.getElem_take] at hpredicted
  exact Bool.false_ne_true ((hnone j (by omega) (by omega)).symm.trans hpredicted)

end Popped

/-- Commit flushes when a mispredicted branch retires. -/
theorem flushing_of_miss (hrob : RobSound s.front.loadStore.rob)
    (hmiss : commitMiss (speculationEvents s x) = true) :
    commitNextState s.front.loadStore.commit (speculationCommitInput s x) = .normal ∧
      (speculationFeedback s x).flushing = true := by
  obtain ⟨hreported, hhit⟩ := commitMiss_iff.1 hmiss
  obtain ⟨i, hi, hvalid⟩ :=
    anyBit_iff.1 (commitValid_iff.1 (Bool.and_eq_true_iff.1 hreported).1)
  obtain ⟨_, hretire, hk, hdata, hbru, hpredicted, _⟩ := commitBpValid_spec hrob hi hvalid
  have hcmp : retireIsMissCmp s.front.loadStore.commit (speculationCommitInput s x) i = true := by
    have hno : bruOpIsHit (speculationCommitInput s x)
      (commitIndex (speculationEvents s x)) = false := hhit
    rw [commitIndex_eq hrob hi hvalid] at hno
    rw [retireIsMissCmp, hretire, hno, hdata, hbru, hpredicted]
    rfl
  have hany : retireIsMiss s.front.loadStore.commit (speculationCommitInput s x) = true :=
    anyBit_iff.2 ⟨i, hi, hcmp⟩
  obtain ⟨hstate, _, _⟩ := retireValid_spec (speculation_view x hrob) hi hretire
  obtain ⟨hnonempty, _⟩ := retireIsMiss_spec (speculation_view x hrob) hany
  refine ⟨commitNextState_normal hrob hi hvalid, ?_⟩
  show flushing s.front.loadStore.commit (speculationCommitInput s x) = true
  rw [flushing_normal hstate, hnonempty, hany, Bool.or_true]
  rfl

/-- Commit and fetch keep to what the predictor relies on. -/
theorem eventsPromised_of_inv (h : PipelineInv s) : EventsPromised (speculationEvents s x) := by
  by_cases hstate : s.front.loadStore.commit.curState = .normal
  · have hrob := h.front.loadStore.rob
    exact
      { oneCommit := fun i hi j hj hvalidi hvalidj =>
          (commitIndex_eq hrob hi hvalidi).symm.trans (commitIndex_eq hrob hj hvalidj)
        quiet := fun hmiss => fetch_quiet (flushing_of_miss hrob hmiss).2 }
  · exact
      { oneCommit := fun i _ _ _ hvalid _ => by
          have hgate : retireGate s.front.loadStore.commit (speculationCommitInput s x) = false := by
            rw [retireGate, decide_eq_false hstate, Bool.false_and]
          have hvalid' : commitBpValid s.front.loadStore.commit (speculationCommitInput s x) i =
            true := hvalid
          rw [commitBpValid, hgate, Bool.false_and, Bool.false_and, Bool.false_and] at hvalid'
          exact absurd hvalid' Bool.false_ne_true
        quiet := fun _ => fetch_quiet
          (walking_quiet (c := speculationCommitInput s x) hstate).1 }

/-- The buffer is only cleared in a flushing cycle. -/
theorem flushing_of_robFlush (h : PipelineInv s) (hempty : fullyFlushed s x = true) :
    (speculationFeedback s x).flushing = true := by
  by_cases hstate : s.front.loadStore.commit.curState = .normal
  · by_contra hno
    rw [Bool.not_eq_true] at hno
    have hclear := (keeping_next (speculation_view x h.front.loadStore.rob)
      hstate hno).2
    exact Bool.false_ne_true (hclear.symm.trans hempty)
  · exact (walking_quiet (c := speculationCommitInput s x) hstate).1

/-! ## A flush -/

section Flush

variable (hflush : (speculationFeedback s x).flushing = true)
include hflush

theorem fifos_flushed : (speculationNext s x).front.decodeRenameFifo = [] ∧
    (speculationNext s x).front.fetchDecodeFifo = [] :=
  @fifos_flush s.front (speculationFront s x) hflush

theorem robOps_flushed :
    (speculationNext s x).front.loadStore.rob.entries.map (fun e => e.tag.op) =
      if fullyFlushed s x then []
      else (s.front.loadStore.rob.entries.map fun e => e.tag.op).drop (speculationRetired s x) :=
  @robOps_flush s.front (speculationFront s x) hflush

theorem inFlight_flushed : inFlight (speculationNext s x).front =
    if fullyFlushed s x then []
    else (s.front.loadStore.rob.entries.map fun e => e.tag.op.toFetchDecodePack).drop
      (speculationRetired s x) :=
  @inFlight_flush s.front (speculationFront s x) hflush

/-- A flush keeps nothing that it does not discard. -/
theorem mem_inFlight_flushed
    (hle : speculationRetired s x ≤ s.front.loadStore.rob.entries.length) {p : FetchDecodePack}
    (hp : p ∈ inFlight (speculationNext s x).front) :
    p ∈ (inFlight s.front).drop (speculationRetired s x) := by
  rw [inFlight_flushed hflush] at hp
  split at hp
  · exact absurd hp List.not_mem_nil
  · rw [inFlight, List.append_assoc, List.drop_append_of_le_length (by rwa [List.length_map])]
    exact List.mem_append_left _ hp

theorem bruWbPort_flushed : (speculationNext s x).bruWbPort = ExecuteWbPack.zero := by
  have hport : bruWbPortFlush x.issueBruFifoDataOutValid (speculationFeedback s x) = true := by
    rw [bruWbPortFlush, hflush, Bool.or_true]
  show portNext _ _ _ _ = _
  rw [portNext, hport, if_pos rfl]

theorem squashed_flushed : (speculationNext s x).squashed = squashedBy s x := if_pos hflush

end Flush

/-! ## The front end's assumptions -/

section Allowed

variable (h : PipelineInv s) (hallowed : SpeculationStep s x)
include h

theorem port_of_enabled (henable : s.bruWbPort.enable = true) :
    Tracked s ∧ ∃ k, ∃ hk, PortEntry s k hk := by
  by_cases hstate : s.front.loadStore.commit.curState = .normal
  · exact ⟨h.normal hstate, (h.normal hstate).port henable⟩
  · exact absurd ((h.walking hstate).symm.trans henable) Bool.false_ne_true

include hallowed

theorem others_answer : OthersAnswer s.front.loadStore (speculationLoadStore s x) where
  inFlight := by
    intro j hj hlsu henable
    rcases eq_or_ne j bruWbIndex with rfl | hbru
    · rw [executeWb_bru] at henable ⊢
      obtain ⟨_, k, hk, hentry⟩ := port_of_enabled h henable
      refine ⟨k, hk, hentry.robId, hentry.unfinished, fun hunit => ?_⟩
      rw [hentry.opUnit] at hunit
      cases hunit
    · rw [executeWb_other hbru] at henable ⊢
      exact hallowed.front.others.inFlight j hj hlsu henable
  once := by
    intro i hi j hj hi' hj' henablei henablej hid
    rcases eq_or_ne i bruWbIndex with rfl | hbrui <;> rcases eq_or_ne j bruWbIndex with rfl | hbruj
    · rfl
    · rw [executeWb_bru] at henablei hid
      rw [executeWb_other hbruj] at henablej hid
      exact absurd hid.symm (hallowed.apart henablei j hj hj' hbruj henablej)
    · rw [executeWb_bru] at henablej hid
      rw [executeWb_other hbrui] at henablei hid
      exact absurd hid (hallowed.apart henablej i hi hi' hbrui henablei)
    · rw [executeWb_other hbrui] at henablei hid
      rw [executeWb_other hbruj] at henablej hid
      exact hallowed.front.others.once i hi j hj hi' hj' henablei henablej hid
  notPending := by
    intro i hi j hj hlsu hpending henable
    rcases eq_or_ne j bruWbIndex with rfl | hbru
    · rw [executeWb_bru] at henable ⊢
      exact (port_of_enabled h henable).1.portApart henable i hi hpending
    · rw [executeWb_other hbru] at henable ⊢
      exact hallowed.front.others.notPending i hi j hj hlsu hpending henable

theorem front_allowed : FrontEndAllowed s.front (speculationFront s x) :=
  ⟨others_answer h hallowed, hallowed.front.inOrder⟩

/-- A cycle that does not flush. -/
theorem speculation_keeps (hflush : (speculationFeedback s x).flushing = false) :
    KeepsStores s.front.loadStore (speculationLoadStore s x) :=
  frontEnd_keeps h.front (front_allowed h hallowed) hallowed.fills hflush

end Allowed

/-! ## A cycle without a flush -/

section Keep

variable (h : PipelineInv s) (hallowed : SpeculationStep s x)
  (hflush : (speculationFeedback s x).flushing = false)
include h hallowed hflush

theorem entry_kept {k : Nat} (hk : k < s.front.loadStore.rob.entries.length)
    (hle : speculationRetired s x ≤ k) :
    ∃ i, ∃ hi : i < (speculationNext s x).front.loadStore.rob.entries.length,
      (speculationNext s x).front.loadStore.rob.idAt i = s.front.loadStore.rob.idAt k ∧
      (speculationNext s x).front.loadStore.rob.entries[i] =
        loadStoreUpdate s.front.loadStore (speculationLoadStore s x) k
          s.front.loadStore.rob.entries[k] := by
  have hrob : (speculationNext s x).front.loadStore.rob.toIdealRob = _ :=
    (speculation_keeps h hallowed hflush).rob_next
  obtain ⟨hi, hget⟩ := getElem_next_list
    (loadStoreUpdate s.front.loadStore (speculationLoadStore s x))
    (loadStorePushed s.front.loadStore (speculationLoadStore s x)) hk hle
  refine ⟨k - speculationRetired s x, by rw [hrob]; exact hi, ?_, by simp only [hrob]; exact hget⟩
  rw [hrob, idAt_next_list]
  congr 1
  exact Nat.add_sub_cancel' hle

theorem unfinished_kept {k : Nat} (hk : k < s.front.loadStore.rob.entries.length)
    (hfinish : s.front.loadStore.rob.entries[k].item.finish = false) :
    speculationRetired s x ≤ k :=
  @KeepsStores.retires_le_of_unfinished _ _ (speculation_keeps h hallowed hflush) k hk hfinish

theorem entry_origin {e : Entry LsuInFlight}
    (he : e ∈ (speculationNext s x).front.loadStore.rob.entries) :
    (∃ k, ∃ hk : k < s.front.loadStore.rob.entries.length,
      e = loadStoreUpdate s.front.loadStore (speculationLoadStore s x) k
        s.front.loadStore.rob.entries[k]) ∨
    (e.tag.op ∈ s.front.decodeRenameFifo ∧ e.item.instValue = e.tag.op.value ∧
      e.item.finish = false) := by
  have hkeep := speculation_keeps h hallowed hflush
  have hrob : (speculationNext s x).front.loadStore.rob.toIdealRob = _ := hkeep.rob_next
  rw [hrob, entries_next_list] at he
  rcases List.mem_append.1 he with hold | hnew
  · left
    obtain ⟨k, hk, rfl⟩ := List.mem_mapIdx.1 (List.mem_of_mem_drop hold)
    exact ⟨k, hk, rfl⟩
  · right
    rw [hkeep.pushed_eq] at hnew
    obtain ⟨y, hy, rfl⟩ := List.mem_map.1 hnew
    have hy' : y ∈ frontEndRenamed s.front (speculationFront s x) := hy
    rw [frontEndRenamed] at hy'
    split at hy'
    · obtain ⟨i, hi, rfl⟩ := List.mem_map.1 hy'
      have hsend := (congrFun (renameRobDataValid_eq _) i).symm.trans (List.mem_filter.1 hi).2
      have hlt : i < s.front.decodeRenameFifo.length := by
        have := of_decide_eq_true (sendEnable_out hsend)
        omega
      refine ⟨?_, rfl, rfl⟩
      show s.front.decodeRenameFifo.getD i emptySlot ∈ _
      rw [List.getD_eq_getElem _ _ hlt]
      exact List.getElem_mem hlt
    · exact absurd hy' List.not_mem_nil

/-- The entry's item takes the result of its operation, or stays. -/
theorem branchEntry_update {k : Nat} (hk : k < s.front.loadStore.rob.entries.length) :
    BranchEntry (loadStoreUpdate s.front.loadStore (speculationLoadStore s x) k
      s.front.loadStore.rob.entries[k]) := by
  have hkeep := speculation_keeps h hallowed hflush
  have ht := h.normal hkeep.state
  have hentry := ht.entries _ (List.getElem_mem hk)
  rcases hkeep.item_cases hk with hsame | ⟨j, hj, henable, hid, _, hwritten⟩
  · refine ⟨?_, fun hfinish => ?_, fun hfinish hunit => ?_⟩
    · rw [hsame, update_op]
      exact hentry.value
    · rw [hsame] at hfinish ⊢
      rw [update_op]
      exact hentry.bruOp hfinish
    · rw [update_op] at hunit ⊢
      rw [hsame] at hfinish ⊢
      exact hentry.finished hfinish hunit
  · obtain ⟨i, hi, hid', hresult⟩ := ht.results j hj henable
    have heq := entry_position hkeep.flow.rob.wf hi hk (hid'.symm.trans hid)
    subst heq
    refine ⟨?_, fun _ => ?_, fun _ hunit => ?_⟩
    · rw [hwritten, update_op]
      exact hentry.value
    · rw [hwritten, update_op, ← hresult.opUnit]
      rfl
    · rw [update_op] at hunit ⊢
      have hcarries := hresult.carries hunit
      rw [hwritten]
      exact ⟨hcarries.predicted, hcarries.predictedJump⟩

theorem entries_tracked : ∀ e ∈ (speculationNext s x).front.loadStore.rob.entries,
    BranchEntry e := by
  intro e he
  rcases entry_origin h hallowed hflush he with ⟨k, hk, rfl⟩ | ⟨_, hvalue, hfinish⟩
  · exact branchEntry_update h hallowed hflush hk
  · have hopen : ¬e.item.finish = true := fun hdone =>
      Bool.false_ne_true (hfinish.symm.trans hdone)
    exact ⟨hvalue, fun hdone => absurd hdone hopen, fun hdone => absurd hdone hopen⟩

/-- The result write-back takes belongs to an entry that stays. -/
theorem executeWb_entry {j : Nat} (hj : j < wbWidth)
    (henable : (executeWbPort s.front.loadStore (speculationLoadStore s x) j).enable = true) :
    ∃ k, ∃ hk : k < s.front.loadStore.rob.entries.length,
      (executeWbPort s.front.loadStore (speculationLoadStore s x) j).robId =
        s.front.loadStore.rob.idAt k ∧
      s.front.loadStore.rob.entries[k].item.finish = false ∧
      BranchResult s.front.loadStore.rob.entries[k].tag.op
        (executeWbPort s.front.loadStore (speculationLoadStore s x) j) := by
  have hkeep := speculation_keeps h hallowed hflush
  rw [executeWbPort] at henable ⊢
  split at henable
  · rename_i hlsu
    obtain ⟨k, hk, hid, hfinish, hunit, _⟩ := hkeep.flow.result henable
    rw [if_pos hlsu]
    refine ⟨k, hk, hid, hfinish,
      ((h.normal hkeep.state).lsuPort henable).trans hunit.symm, fun hbru => ?_⟩
    rw [hunit] at hbru
    cases hbru
  · rename_i hlsu
    rw [if_neg hlsu]
    obtain ⟨k, hk, hid, hfinish, _⟩ := hkeep.allowed.others.inFlight j hj hlsu henable
    have hcarries : CarriesOp s.front.loadStore.rob.entries[k].tag.op
        ((speculationLoadStore s x).executeWb j) := by
      rcases eq_or_ne j bruWbIndex with rfl | hbru
      · rw [executeWb_bru] at henable hid ⊢
        obtain ⟨i, hi, hentry⟩ := (h.normal hkeep.state).port henable
        have heq := entry_position hkeep.flow.rob.wf hi hk (hentry.robId.symm.trans hid)
        subst heq
        exact hentry.carries
      · rw [executeWb_other hbru] at henable hid ⊢
        exact hallowed.carries j hj hlsu hbru henable k hk hid
    exact ⟨k, hk, hid, hfinish, hcarries.opUnit, fun _ => hcarries⟩

theorem results_tracked : ∀ j, j < wbWidth →
    ((speculationNext s x).front.loadStore.wbCommitPort j).enable = true →
    ∃ k, ∃ hk : k < (speculationNext s x).front.loadStore.rob.entries.length,
      ((speculationNext s x).front.loadStore.wbCommitPort j).robId =
        (speculationNext s x).front.loadStore.rob.idAt k ∧
      BranchResult (speculationNext s x).front.loadStore.rob.entries[k].tag.op
        ((speculationNext s x).front.loadStore.wbCommitPort j) := by
  have hport : (speculationNext s x).front.loadStore.wbCommitPort = _ :=
    (speculation_keeps h hallowed hflush).wbCommitPort_next
  intro j hj henable
  rw [hport] at henable ⊢
  obtain ⟨k, hk, hid, hfinish, hresult⟩ := executeWb_entry h hallowed hflush hj henable
  obtain ⟨i, hi, hid', hget⟩ := entry_kept h hallowed hflush hk
    (unfinished_kept h hallowed hflush hk hfinish)
  refine ⟨i, hi, hid.trans hid'.symm, ?_⟩
  rw [hget, update_op]
  exact hresult

theorem lsuFifo_tracked (hdata : (speculationNext s x).front.loadStore.lsuFifo.hasData = true) :
    (speculationNext s x).front.loadStore.lsuFifo.data.opUnit = .lsu := by
  have hkeep := speculation_keeps h hallowed hflush
  rcases lsuFifo_keep hkeep.notFlushing with ⟨hissue, hnext⟩ | ⟨_, _, hnext⟩ | ⟨_, hempty, _⟩
  · obtain ⟨k, hk, _, hop, hunit, _⟩ := hkeep.allowed.inOrder hissue
    have hfifo : (speculationNext s x).front.loadStore.lsuFifo = _ := hnext
    rw [hfifo]
    exact (congrArg DecodeRenamePack.opUnit hop).trans hunit
  · have hfifo : (speculationNext s x).front.loadStore.lsuFifo = _ := hnext
    rw [hfifo] at hdata ⊢
    exact (h.normal hkeep.state).lsuFifo hdata
  · exact absurd (hempty.symm.trans hdata) Bool.false_ne_true

theorem lsuPort_tracked (henable : (speculationNext s x).front.loadStore.lsuWbPort.enable = true) :
    (speculationNext s x).front.loadStore.lsuWbPort.opUnit = .lsu := by
  obtain ⟨_, hdata, _, _, hunit⟩ :=
    @KeepsStores.lsuWbPort_next s.front.loadStore (speculationLoadStore s x) henable
  exact hunit.trans ((h.normal (speculation_keeps h hallowed hflush).state).lsuFifo hdata)

omit h hallowed in
/-- What the branch unit sends to its port. -/
theorem bruWbPort_next : (speculationNext s x).bruWbPort =
    if x.issueBruFifoDataOutValid then bruSendPack x else ExecuteWbPack.zero := by
  show portNext _ _ _ _ = _
  rw [portNext, bruWbPortWe, bruWbPortFlush, hflush, Bool.or_false]
  cases x.issueBruFifoDataOutValid <;> rfl

omit h hallowed in
theorem issued_of_port (henable : (speculationNext s x).bruWbPort.enable = true) :
    x.issueBruFifoDataOutValid = true ∧ (speculationNext s x).bruWbPort = bruSendPack x := by
  rw [bruWbPort_next hflush] at henable ⊢
  cases hvalid : x.issueBruFifoDataOutValid with
  | true => exact ⟨rfl, if_pos rfl⟩
  | false =>
      rw [hvalid, if_neg Bool.false_ne_true] at henable
      exact absurd henable Bool.false_ne_true

/-- The entry of the operation the branch unit executes, in the next cycle. -/
theorem bruIssued_kept (hissued : BruIssued s x) :
    ∃ i, ∃ hi : i < (speculationNext s x).front.loadStore.rob.entries.length,
      x.issueBruFifoDataOut.robId = (speculationNext s x).front.loadStore.rob.idAt i ∧
      x.issueBruFifoDataOut.toDecodeRenamePack =
        (speculationNext s x).front.loadStore.rob.entries[i].tag.op ∧
      (speculationNext s x).front.loadStore.rob.entries[i].tag.op.opUnit = .bru ∧
      (speculationNext s x).front.loadStore.rob.entries[i].item.finish = false := by
  have hkeep := speculation_keeps h hallowed hflush
  obtain ⟨k, hk, hid, hop, hunit, hfinish⟩ := hissued.inFlight
  obtain ⟨i, hi, hid', hget⟩ := entry_kept h hallowed hflush hk
    (unfinished_kept h hallowed hflush hk hfinish)
  refine ⟨i, hi, hid.trans hid'.symm, ?_, ?_, ?_⟩
  · rw [hget, update_op]
    exact hop
  · rw [hget, update_op]
    exact hunit
  · rw [hget]
    rcases hkeep.item_cases hk with hsame | ⟨j, hj, henable, hid'', _⟩
    · rw [hsame]
      exact hfinish
    · exact absurd (hid''.trans hid.symm) (hissued.notPending j hj henable)

theorem port_tracked (henable : (speculationNext s x).bruWbPort.enable = true) :
    ∃ k, ∃ hk, PortEntry (speculationNext s x) k hk := by
  obtain ⟨hvalid, hport⟩ := issued_of_port hflush henable
  obtain ⟨i, hi, hid, hop, hunit, hfinish⟩ :=
    bruIssued_kept h hallowed hflush (hallowed.issued hvalid hflush)
  refine ⟨i, hi, ?_, hunit, hfinish, ?_⟩
  · rw [hport]
    exact hid
  · rw [hport, ← hop]
    exact ⟨rfl, rfl, rfl⟩

theorem portApart_tracked (henable : (speculationNext s x).bruWbPort.enable = true) :
    ∀ j, j < wbWidth → ((speculationNext s x).front.loadStore.wbCommitPort j).enable = true →
      ((speculationNext s x).front.loadStore.wbCommitPort j).robId ≠
        (speculationNext s x).bruWbPort.robId := by
  have hresults : (speculationNext s x).front.loadStore.wbCommitPort = _ :=
    (speculation_keeps h hallowed hflush).wbCommitPort_next
  obtain ⟨hvalid, hport⟩ := issued_of_port hflush henable
  intro j hj hpending
  rw [hresults] at hpending ⊢
  rw [hport]
  exact (hallowed.issued hvalid hflush).notAnswered j hj hpending

end Keep

/-! ## The invariant -/

/-- In front of rename is what was there before and what decode has sent. -/
theorem waiting_origin {op : DecodeRenamePack}
    (hop : op ∈ (speculationNext s x).front.decodeRenameFifo) :
    op ∈ s.front.decodeRenameFifo ∨ ∃ p ∈ s.front.fetchDecodeFifo, op = decode p := by
  cases hflush : (speculationFeedback s x).flushing with
  | true =>
      rw [(fifos_flushed hflush).1] at hop
      exact absurd hop List.not_mem_nil
  | false =>
      have hnext : (speculationNext s x).front.decodeRenameFifo = _ :=
        @decodeRenameFifo_next s.front (speculationFront s x) hflush
      rw [hnext] at hop
      rcases List.mem_append.1 hop with hold | hnew
      · exact Or.inl (List.mem_of_mem_drop hold)
      · obtain ⟨p, hp, rfl⟩ := List.mem_map.1 hnew
        exact Or.inr ⟨p, List.mem_of_mem_take hp, rfl⟩

section Inv

variable (h : PipelineInv s) (hallowed : SpeculationStep s x)
include h

variable (x) in
theorem retired_le : speculationRetired s x ≤ s.front.loadStore.rob.entries.length := by
  by_cases hstate : s.front.loadStore.commit.curState = .normal
  · exact popCount_le (speculation_view x h.front.loadStore.rob)
  · have hnone : speculationRetired s x = 0 :=
      (walking_quiet (c := speculationCommitInput s x) hstate).2.1
    rw [hnone]
    exact Nat.zero_le _

omit h in
/-- The pipeline is empty. -/
theorem tracked_flushed (hflush : (speculationFeedback s x).flushing = true)
    (hempty : fullyFlushed s x = true) : Tracked (speculationNext s x) := by
  have hentries : (speculationNext s x).front.loadStore.rob.entries = [] := by
    have hops := robOps_flushed hflush
    rw [hempty, if_pos rfl] at hops
    exact List.map_eq_nil_iff.1 hops
  obtain ⟨hfifo, hresult, hresults⟩ :=
    @ports_flush s.front.loadStore (speculationLoadStore s x) hflush
  have hresults' : (speculationNext s x).front.loadStore.wbCommitPort =
      fun _ => ExecuteWbPack.zero := hresults
  have hport := bruWbPort_flushed hflush
  refine ⟨?_, ?_, fun hdata => ?_, fun henable => ?_, fun henable => ?_, fun henable => ?_⟩
  · rw [hentries]
    exact fun e he => absurd he List.not_mem_nil
  · intro j _ henable
    rw [hresults'] at henable
    exact absurd henable Bool.false_ne_true
  · exact absurd (hfifo.symm.trans hdata) Bool.false_ne_true
  · exact absurd (hresult.symm.trans henable) Bool.false_ne_true
  · rw [hport] at henable
    exact absurd henable Bool.false_ne_true
  · rw [hport] at henable
    exact absurd henable Bool.false_ne_true

include hallowed

/-- What is in flight was so before or has just been pushed. -/
theorem mem_inFlight_next {p : FetchDecodePack} (hp : p ∈ inFlight (speculationNext s x).front) :
    p ∈ inFlight s.front ∨ p ∈ fetchPushed s.front.fetch (speculationFetchInput s x) := by
  cases hflush : (speculationFeedback s x).flushing with
  | true =>
      exact Or.inl (List.mem_of_mem_drop (mem_inFlight_flushed hflush (retired_le x h) hp))
  | false =>
      rw [inFlight, List.mem_append, List.mem_append] at hp
      rcases hp with (hrob | hdecode) | hfetch
      · left
        obtain ⟨e, he, rfl⟩ := List.mem_map.1 hrob
        rcases entry_origin h hallowed hflush he with ⟨k, hk, rfl⟩ | ⟨hmem, _⟩
        · rw [update_op]
          exact mem_inFlight_rob hk
        · rw [inFlight]
          exact List.mem_append_left _ (List.mem_append_right _ (List.mem_map.2 ⟨_, hmem, rfl⟩))
      · left
        obtain ⟨op, hop, rfl⟩ := List.mem_map.1 hdecode
        rw [inFlight]
        rcases waiting_origin hop with hold | ⟨q, hq, rfl⟩
        · exact List.mem_append_left _ (List.mem_append_right _ (List.mem_map.2 ⟨_, hold, rfl⟩))
        · exact List.mem_append_right _ hq
      · have hnext : (speculationNext s x).front.fetchDecodeFifo = _ :=
          @fetchDecodeFifo_next s.front (speculationFront s x) hflush
        rw [hnext] at hfetch
        rcases List.mem_append.1 hfetch with hold | hnew
        · left
          rw [inFlight]
          exact List.mem_append_right _ (List.mem_of_mem_drop hold)
        · exact Or.inr hnew

/-- The operation of an entry was in the reorder buffer or in front of rename. -/
theorem robOp_origin {e : Entry LsuInFlight}
    (he : e ∈ (speculationNext s x).front.loadStore.rob.entries) :
    (∃ e' ∈ s.front.loadStore.rob.entries, e.tag.op = e'.tag.op) ∨
      e.tag.op ∈ s.front.decodeRenameFifo := by
  cases hflush : (speculationFeedback s x).flushing with
  | true =>
      left
      have hmem : e.tag.op ∈ (speculationNext s x).front.loadStore.rob.entries.map
          fun e => e.tag.op := List.mem_map.2 ⟨e, he, rfl⟩
      rw [robOps_flushed hflush] at hmem
      split at hmem
      · exact absurd hmem List.not_mem_nil
      · obtain ⟨e', he', heq⟩ := List.mem_map.1 (List.mem_of_mem_drop hmem)
        exact ⟨e', he', heq.symm⟩
  | false =>
      rcases entry_origin h hallowed hflush he with ⟨k, hk, rfl⟩ | ⟨hmem, _⟩
      · exact Or.inl ⟨_, List.getElem_mem hk, update_op ..⟩
      · exact Or.inr hmem

theorem fetched_next : ∀ p ∈ inFlight (speculationNext s x).front, JumpFetched p := by
  intro p hp
  rcases mem_inFlight_next h hallowed hp with hold | hnew
  · exact h.fetched p hold
  · exact jumpFetched_pushed hnew

omit hallowed in
theorem waiting_next : ∀ op ∈ (speculationNext s x).front.decodeRenameFifo,
    JumpDecoded op := by
  intro op hop hbranch
  rcases waiting_origin hop with hold | ⟨q, _, rfl⟩
  · exact h.waiting op hold hbranch
  · exact decode_jump hbranch

theorem jumpUnits_next : ∀ e ∈ (speculationNext s x).front.loadStore.rob.entries,
    JumpDecoded e.tag.op := by
  intro e he
  rcases robOp_origin h hallowed he with ⟨e', he', heq⟩ | hmem
  · rw [heq]
    exact h.units e' he'
  · exact h.waiting _ hmem

theorem tracked_next
    (hnext : (speculationNext s x).front.loadStore.commit.curState = .normal) :
    Tracked (speculationNext s x) := by
  by_cases hstate : s.front.loadStore.commit.curState = .normal
  · cases hflush : (speculationFeedback s x).flushing with
    | true => exact tracked_flushed hflush (flushing_cleared hstate hflush hnext)
    | false =>
        exact ⟨entries_tracked h hallowed hflush, results_tracked h hallowed hflush,
          lsuFifo_tracked h hallowed hflush, lsuPort_tracked h hallowed hflush,
          port_tracked h hallowed hflush, portApart_tracked h hallowed hflush⟩
  · obtain ⟨hflush, _, _, hback⟩ := walking_quiet (c := speculationCommitInput s x) hstate
    exact tracked_flushed hflush (hback hnext)

/-- Only a flushing cycle leaves the normal state. -/
theorem flushing_of_walking
    (hnext : (speculationNext s x).front.loadStore.commit.curState ≠ .normal) :
    (speculationFeedback s x).flushing = true := by
  by_contra hno
  rw [Bool.not_eq_true] at hno
  exact hnext (speculation_keeps h hallowed hno).nextState

theorem pipelineInv_next : PipelineInv (speculationNext s x) where
  front := frontEndInv_next h.front (front_allowed h hallowed) hallowed.fills
  fetched := fetched_next h hallowed
  waiting := waiting_next h
  units := jumpUnits_next h hallowed
  normal := tracked_next h hallowed
  walking := fun hnext => by
    rw [bruWbPort_flushed (flushing_of_walking h hallowed hnext)]
    rfl

end Inv

theorem pipelineInv_reset (mem : Nat → Nat → BitVec 8) (outData : Nat → BitVec 8)
    (robBuffer : Nat → RobItem) (buffer : Nat → StoreBufferItem) :
    PipelineInv (speculationReset mem outData robBuffer buffer) where
  front := frontEndReset_inv mem outData robBuffer buffer
  fetched := fun _ hp => absurd hp List.not_mem_nil
  waiting := fun _ hop => absurd hop List.not_mem_nil
  units := fun _ he => absurd he List.not_mem_nil
  normal := fun _ =>
    { entries := fun _ he => absurd he List.not_mem_nil
      results := fun _ _ henable => absurd henable Bool.false_ne_true
      lsuFifo := fun hdata => absurd hdata Bool.false_ne_true
      lsuPort := fun henable => absurd henable Bool.false_ne_true
      port := fun henable => absurd henable Bool.false_ne_true
      portApart := fun henable => absurd henable Bool.false_ne_true }
  walking := fun hne => absurd rfl hne

end DreamCore.Proofs
