import DreamCore.Model.IssueInput
import DreamCore.Proofs.IssueList

/-!
# Segmented insertion into the issue queue

In both programs the operations of a bundle enter the queue once and in order, however
the free space varies; the stages in front wait exactly while some of them are left.
-/

namespace DreamCore.Proofs

open DreamCore.Clocked DreamCore.Model DreamCore.Rtl DreamCore.Segments

/-! ## Bundles -/

/-- The slots up to `b`, then the rest. -/
theorem bundleFrom_split (port : Nat → ReadregIssueOpInfo) {a b : Nat} (hab : a ≤ b)
    (hb : b ≤ readregWidth) :
    bundleFrom port a =
      (((List.range b).drop a).filter fun i => (port i).enable).map port ++ bundleFrom port b := by
  have hrange : List.range readregWidth =
      List.range b ++ (List.range readregWidth).drop b := by
    conv_lhs => rw [← List.take_append_drop b (List.range readregWidth)]
    rw [List.take_range, Nat.min_eq_left hb]
  rw [bundleFrom, bundleFrom, ← List.map_append, ← List.filter_append]
  conv_lhs => rw [hrange, List.drop_append_of_le_length (by simpa using hab)]

theorem bundleFrom_end (port : Nat → ReadregIssueOpInfo) {a : Nat} (ha : readregWidth ≤ a) :
    bundleFrom port a = [] := by
  rw [bundleFrom, List.drop_of_length_le (by simpa using ha)]
  rfl

theorem bundleFrom_ne_nil {port : Nat → ReadregIssueOpInfo} {a : Nat} (ha : a < readregWidth)
    (henable : (port a).enable = true) : bundleFrom port a ≠ [] := by
  intro hnil
  have hmem : a ∈ ((List.range readregWidth).drop a).filter fun i => (port i).enable := by
    rw [List.mem_filter]
    refine ⟨?_, henable⟩
    rw [List.range_eq_range', List.drop_range', List.mem_range']
    exact ⟨0, by omega, by omega⟩
  have hport := List.mem_map_of_mem (f := port) hmem
  rw [← bundleFrom, hnil] at hport
  exact absurd hport List.not_mem_nil

/-! ## Operands -/

/-- At most one channel delivers a register. -/
def OneChannel (width : Nat) (channel : Nat → FeedbackChannel) (phyId : Nat) : Prop :=
  ∀ i j, i < width → j < width → Delivers (channel i) phyId → Delivers (channel j) phyId → i = j

/-- A value the register file or a channel has for a register. -/
def OwnValue (phyf : PhyRegfileState) (execute wb : Nat → FeedbackChannel) (phyId value : Nat) :
    Prop :=
  (phyf.dataValid phyId = true ∧ value = phyf.data phyId) ∨
    (∃ j, j < executeUnitNum ∧ Delivers (execute j) phyId ∧ value = (execute j).value) ∨
    ∃ j, j < wbWidth ∧ Delivers (wb j) phyId ∧ value = (wb j).value

/-- A source keeps a value it has; any other value is one for its own register. -/
structure OperandOwn (phyf : PhyRegfileState) (execute wb : Nat → FeedbackChannel)
    (phyId : Nat) (old new : Option Nat) : Prop where
  kept : ∀ value, old = some value → new = some value
  own : old = none → OneChannel executeUnitNum execute phyId → OneChannel wbWidth wb phyId →
    ∀ value, new = some value → OwnValue phyf execute wb phyId value

/-- The item for a slot: its operation, with the sources of this operation. -/
structure ItemOwn (phyf : PhyRegfileState) (execute wb : Nat → FeedbackChannel)
    (op : ReadregIssueOpInfo) (item : IssueQueueItem) : Prop where
  same : { item with
    src1Value := op.src1Value, src1Loaded := op.src1Loaded
    src2Value := op.src2Value, src2Loaded := op.src2Loaded } = op
  src1 : OperandOwn phyf execute wb op.rs1Phy (sourceOf op.src1Loaded op.src1Value)
    (sourceOf item.src1Loaded item.src1Value)
  src2 : OperandOwn phyf execute wb op.rs2Phy (sourceOf op.src2Loaded op.src2Value)
    (sourceOf item.src2Loaded item.src2Value)

section Operands

variable {phyf : PhyRegfileState}

theorem tItem_source (input : IssueQueueInput) (loaded : Bool) (value phyId : Nat) :
    OperandOwn phyf input.executeFeedbackPack input.wbFeedbackPack phyId (sourceOf loaded value)
      (sourceOf (tItemLoaded phyf input loaded phyId)
        (tItemValue phyf input loaded value phyId)) := by
  cases loaded with
  | true => exact ⟨fun v hv => hv, fun hnone => absurd hnone (Option.some_ne_none value)⟩
  | false =>
      refine ⟨fun v hv => absurd hv (Option.some_ne_none v).symm, fun _ hexe hwb v hv => ?_⟩
      cases hvalid : phyf.dataValid phyId with
      | true =>
          simp only [tItemLoaded, tItemValue, hvalid, sourceOf, Bool.false_or, Bool.true_or,
            if_true, Bool.false_eq_true, if_false, Option.some.injEq] at hv
          exact Or.inl ⟨hvalid, hv.symm⟩
      | false =>
          have hfed := @sourceFed input phyId false value
          have hsame : sourceOf (tItemLoaded phyf input false phyId)
              (tItemValue phyf input false value phyId) =
              sourceOf (feedbackLoaded input false phyId)
                (feedbackValue input false value phyId) := by
            simp [tItemLoaded, tItemValue, feedbackLoaded, feedbackValue, hvalid]
          rw [hsame] at hv
          -- The first kind of channel that delivers the register decides.
          by_cases hexecute : ∃ j, j < executeUnitNum ∧
              Delivers (input.executeFeedbackPack j) phyId
          · obtain ⟨j, hj, hdelivers⟩ := hexecute
            have hnew := hfed.execute rfl j hj hdelivers fun i hi h => hexe i j hi hj h hdelivers
            rw [hnew, Option.some.injEq] at hv
            exact Or.inr (Or.inl ⟨j, hj, hdelivers, hv.symm⟩)
          · have hnot : ∀ i, i < executeUnitNum →
                ¬Delivers (input.executeFeedbackPack i) phyId :=
              fun i hi h => hexecute ⟨i, hi, h⟩
            by_cases hback : ∃ j, j < wbWidth ∧ Delivers (input.wbFeedbackPack j) phyId
            · obtain ⟨j, hj, hdelivers⟩ := hback
              have hnew := hfed.wb rfl hnot j hj hdelivers fun i hi h =>
                hwb i j hi hj h hdelivers
              rw [hnew, Option.some.injEq] at hv
              exact Or.inr (Or.inr ⟨j, hj, hdelivers, hv.symm⟩)
            · have hnew := (hfed.unknown rfl).2 ⟨hnot, fun i hi h => hback ⟨i, hi, h⟩⟩
              rw [hnew] at hv
              exact absurd hv.symm (Option.some_ne_none v)

theorem tItem_own (input : IssueQueueInput) (op : ReadregIssueOpInfo) :
    ItemOwn phyf input.executeFeedbackPack input.wbFeedbackPack op (tItem phyf input op) :=
  ⟨rfl, tItem_source input _ _ _, tItem_source input _ _ _⟩

variable {execute wb : Nat → FeedbackChannel} {needMap : Bool} {phyId : Nat}

theorem fedBy_loaded {src : Cpp.Source} (h : src.loaded = true) (channel : FeedbackChannel) :
    Cpp.fedBy needMap phyId src channel = src := by
  simp [Cpp.fedBy, h]

theorem fedBy_own {P : Nat → Prop} {src : Cpp.Source} {channel : FeedbackChannel}
    (hchannel : Delivers channel phyId → P channel.value)
    (h : src.loaded = true → P src.value) :
    (Cpp.fedBy needMap phyId src channel).loaded = true →
      P (Cpp.fedBy needMap phyId src channel).value := by
  unfold Cpp.fedBy
  split
  · next hcond =>
      simp only [Bool.and_eq_true, decide_eq_true_eq] at hcond
      exact fun _ => hchannel ⟨hcond.1, hcond.2.2⟩
  · exact h

/-- The loop over the channels. -/
def fedByAll (execute wb : Nat → FeedbackChannel) (needMap : Bool) (phyId : Nat)
    (src : Cpp.Source) (channels : List Nat) : Cpp.Source :=
  channels.foldl (fun src i =>
    Cpp.fedBy needMap phyId (Cpp.fedBy needMap phyId src (execute i)) (wb i)) src

theorem fedByAll_loaded {src : Cpp.Source} (h : src.loaded = true) (channels : List Nat) :
    fedByAll execute wb needMap phyId src channels = src := by
  induction channels with
  | nil => rfl
  | cons i channels ih =>
      rw [fedByAll, List.foldl_cons, fedBy_loaded h, fedBy_loaded h]
      exact ih

theorem fedByAll_own {P : Nat → Prop} {channels : List Nat}
    (hexecute : ∀ i, i ∈ channels → Delivers (execute i) phyId → P (execute i).value)
    (hwb : ∀ i, i ∈ channels → Delivers (wb i) phyId → P (wb i).value)
    {src : Cpp.Source} (h : src.loaded = true → P src.value) :
    (fedByAll execute wb needMap phyId src channels).loaded = true →
      P (fedByAll execute wb needMap phyId src channels).value := by
  induction channels generalizing src with
  | nil => exact h
  | cons i channels ih =>
      rw [fedByAll, List.foldl_cons]
      have hmem := List.mem_cons_self (a := i) (l := channels)
      exact ih (fun j hj => hexecute j (List.mem_cons_of_mem i hj))
        (fun j hj => hwb j (List.mem_cons_of_mem i hj))
        (fedBy_own (hwb i hmem) (fedBy_own (hexecute i hmem) h))

theorem inputSource_own (valid : Bool) (src : Cpp.Source) :
    OperandOwn phyf execute wb phyId (sourceOf src.loaded src.value)
      (sourceOf (Cpp.inputSource phyf execute wb valid needMap phyId src).loaded
        (Cpp.inputSource phyf execute wb valid needMap phyId src).value) := by
  cases valid with
  | false =>
      refine ⟨fun v hv => hv, fun hnone _ _ v hv => ?_⟩
      have hsame : Cpp.inputSource phyf execute wb false needMap phyId src = src := rfl
      rw [hsame, hnone] at hv
      exact absurd hv.symm (Option.some_ne_none v)
  | true =>
      cases hloaded : src.loaded with
      | true =>
          have hsame : Cpp.inputSource phyf execute wb true needMap phyId src = src := by
            simp only [Cpp.inputSource, if_true, hloaded, Bool.not_true, Bool.false_and,
              Bool.false_eq_true, if_false]
            exact fedByAll_loaded hloaded _
          rw [hsame, hloaded]
          exact ⟨fun v hv => hv, fun hnone => absurd hnone (Option.some_ne_none src.value)⟩
      | false =>
          refine ⟨fun v hv => absurd hv (Option.some_ne_none v).symm, fun _ _ _ v hv => ?_⟩
          have hown : (Cpp.inputSource phyf execute wb true needMap phyId src).loaded = true →
              OwnValue phyf execute wb phyId
                (Cpp.inputSource phyf execute wb true needMap phyId src).value := by
            simp only [Cpp.inputSource, if_true, hloaded, Bool.not_false, Bool.true_and]
            refine fedByAll_own
              (fun i hi h => Or.inr (Or.inl ⟨i, List.mem_range.1 hi, h, rfl⟩))
              (fun i hi h => Or.inr (Or.inr ⟨i, List.mem_range.1 hi, h, rfl⟩)) ?_
            split
            · next hread =>
                rw [Bool.and_eq_true] at hread
                exact fun _ => Or.inl ⟨hread.2, rfl⟩
            · exact fun h => absurd (hloaded.symm.trans h) Bool.false_ne_true
          cases hnew : (Cpp.inputSource phyf execute wb true needMap phyId src).loaded with
          | false =>
              rw [hnew] at hv
              exact absurd hv (Option.some_ne_none v).symm
          | true =>
              rw [hnew] at hv
              exact Option.some.inj hv ▸ hown hnew

theorem inputItem_own (op : ReadregIssueOpInfo) :
    ItemOwn phyf execute wb op (Cpp.inputItem phyf execute wb op) :=
  ⟨rfl, inputSource_own op.valid ⟨op.src1Loaded, op.src1Value⟩,
    inputSource_own op.valid ⟨op.src2Loaded, op.src2Value⟩⟩

end Operands

/-! ## The C++ model -/

/-- The loop from a slot on: the enabled slots it has passed are behind the queue, and it
stops early only at an enabled slot with the queue full. -/
structure InputLoopFrom (enable : Nat → Bool) (item : Nat → IssueQueueItem) (start : Nat)
    (q : List IssueQueueItem) (r : Cpp.InputRun) : Prop where
  behind : start ≤ r.lastIndex
  inside : r.lastIndex ≤ readregWidth
  pushed : r.issueQ = q ++ (((List.range r.lastIndex).drop start).filter enable).map item
  finished : r.finish = true → r.lastIndex = readregWidth
  stopped : r.finish = false → r.lastIndex < readregWidth ∧ enable r.lastIndex = true ∧
    r.issueQ.length = issueQueueSize

/-- The first slot, then those behind it. -/
theorem slots_cons (enable : Nat → Bool) {start b : Nat} (hb : start < b) :
    ((List.range b).drop start).filter enable =
      (if enable start then [start] else []) ++
        ((List.range b).drop (start + 1)).filter enable := by
  have hlt : start < (List.range b).length := by rwa [List.length_range]
  rw [List.drop_eq_getElem_cons hlt, List.getElem_range, List.filter_cons]
  split <;> rfl

theorem inputLoop_from (enable : Nat → Bool) (item : Nat → IssueQueueItem) {slots : Nat}
    (hslots : slots ≤ readregWidth) (q : List IssueQueueItem) :
    InputLoopFrom enable item (readregWidth - slots) q (Cpp.inputLoop enable item slots q) := by
  induction slots generalizing q with
  | zero => exact ⟨Nat.le_refl _, Nat.le_refl _, (List.append_nil q).symm, fun _ => rfl, nofun⟩
  | succ slots ih =>
      have hstart : readregWidth - slots = readregWidth - (slots + 1) + 1 := by omega
      have hinside : readregWidth - (slots + 1) < readregWidth := by omega
      rw [hstart] at ih
      rw [Cpp.inputLoop]
      generalize readregWidth - (slots + 1) = start at *
      cases henable : enable start with
      | false =>
          have hrest := ih (by omega) q
          have hbehind := hrest.behind
          simp only [Bool.not_false, if_true]
          refine ⟨by omega, hrest.inside, ?_, hrest.finished, hrest.stopped⟩
          rw [slots_cons enable (by omega), henable]
          exact hrest.pushed
      | true =>
          simp only [Bool.not_true, Bool.false_eq_true, if_false]
          by_cases hfull : q.length = issueQueueSize
          · rw [if_pos hfull]
            refine ⟨Nat.le_refl _, hinside.le, ?_, nofun, fun _ => ⟨hinside, henable, hfull⟩⟩
            rw [List.drop_of_length_le (by rw [List.length_range])]
            exact (List.append_nil q).symm
          · rw [if_neg hfull]
            have hrest := ih (by omega) (q ++ [item start])
            have hbehind := hrest.behind
            refine ⟨by omega, hrest.inside, ?_, hrest.finished, hrest.stopped⟩
            have hslots := slots_cons enable (show start <
              (Cpp.inputLoop enable item slots (q ++ [item start])).lastIndex by omega)
            rw [henable, if_pos rfl] at hslots
            rw [hrest.pushed, hslots, List.map_append, List.append_assoc]
            rfl

/-- One cycle of the C++ model. -/
structure CppInputStep (s : Cpp.IssueInputState) (x : Cpp.IssueInputCycle) : Prop where
  stage : cppIssueInputStage.Step s x Cpp.issueInputNext
  inserted : Cpp.issueQNext s x =
    if Cpp.issueFlushes x then []
    else x.issueQ ++ (cppInsertedSlots s x).map fun k =>
      Cpp.inputItem x.phyf x.executeFeedbackPack x.wbFeedbackPack (s.readregPort k)
  full : Cpp.issueStall s x = true → (Cpp.issueQNext s x).length = issueQueueSize
  operands : ∀ op, ItemOwn x.phyf x.executeFeedbackPack x.wbFeedbackPack op
    (Cpp.inputItem x.phyf x.executeFeedbackPack x.wbFeedbackPack op)
  frozen : Cpp.issueStall s x = true →
    (Cpp.issueInputNext s x).renamePort = s.renamePort ∧
      (Cpp.issueInputNext s x).readregPort = s.readregPort
  position : Cpp.issueStall s x = false → Cpp.inputStart (Cpp.issueInputNext s x) = 0

section CppCycle

variable {s : Cpp.IssueInputState} {x : Cpp.IssueInputCycle}

/-- The position stays inside the bundle. -/
def CppPosition (s : Cpp.IssueInputState) : Prop := Cpp.inputStart s ≤ readregWidth

theorem inputRun_from (h : CppPosition s) :
    InputLoopFrom (fun i => (s.readregPort i).enable)
      (fun i => Cpp.inputItem x.phyf x.executeFeedbackPack x.wbFeedbackPack (s.readregPort i))
      (Cpp.inputStart s) x.issueQ (Cpp.inputRun s x) := by
  have hle : Cpp.inputStart s ≤ readregWidth := h
  have hstart : readregWidth - (readregWidth - Cpp.inputStart s) = Cpp.inputStart s := by omega
  have hloop := inputLoop_from (fun i => (s.readregPort i).enable)
    (fun i => Cpp.inputItem x.phyf x.executeFeedbackPack x.wbFeedbackPack (s.readregPort i))
    (Nat.sub_le readregWidth (Cpp.inputStart s)) x.issueQ
  rwa [hstart] at hloop

/-- The cycle splits the pending operations where the loop stops. -/
theorem cppPending_split (h : CppPosition s) (hflush : Cpp.issueFlushes x = false) :
    cppIssueInputStage.pending s =
      cppIssueInputStage.inserted s x ++ bundleFrom s.readregPort (Cpp.inputRun s x).lastIndex := by
  have hrun := inputRun_from (x := x) h
  show bundleFrom _ _ = (cppInsertedSlots s x).map _ ++ _
  rw [cppInsertedSlots, hflush]
  exact bundleFrom_split s.readregPort hrun.behind hrun.inside

theorem cppRemaining (h : CppPosition s) (hflush : Cpp.issueFlushes x = false) :
    cppIssueInputStage.remaining s x =
      bundleFrom s.readregPort (Cpp.inputRun s x).lastIndex := by
  have hnot : cppIssueInputStage.flush x = false := hflush
  rw [Stage.remaining, hnot, cppPending_split h hflush, List.drop_left]
  rfl

theorem cppPosition_next (h : CppPosition s) : CppPosition (Cpp.issueInputNext s x) := by
  have hrun := inputRun_from (x := x) h
  unfold CppPosition Cpp.inputStart Cpp.issueInputNext
  cases hflush : Cpp.issueFlushes x with
  | true => simp
  | false =>
      cases hfinish : (Cpp.inputRun s x).finish with
      | true => simp
      | false => simpa [hfinish] using hrun.inside

theorem cppStage_step (h : CppPosition s) :
    cppIssueInputStage.Step s x Cpp.issueInputNext := by
  have hrun := inputRun_from (x := x) h
  cases hflush : Cpp.issueFlushes x with
  | true =>
      have hstall : Cpp.issueStall s x = false := by rw [Cpp.issueStall, hflush]; rfl
      have hinserted : cppIssueInputStage.inserted s x = [] := by
        show (cppInsertedSlots s x).map _ = []
        rw [cppInsertedSlots, hflush]
        rfl
      have hpending : cppIssueInputStage.pending (Cpp.issueInputNext s x) = [] := by
        show bundleFrom (Cpp.readregPortNext s x) _ = []
        simp [bundleFrom, Cpp.readregPortNext, hflush, ReadregIssueOpInfo.zero,
          ExecuteWbPack.zero]
      have hflushes : cppIssueInputStage.flush x = true := hflush
      refine ⟨?_, ?_, ?_, ?_, fun _ => ⟨hinserted, hpending⟩⟩
      · rw [hinserted]
        exact List.nil_prefix
      · show Cpp.issueStall s x = true ↔ _
        simp [hstall, Stage.remaining, hflushes]
      · intro hbusy
        exact absurd (hstall.symm.trans hbusy) Bool.false_ne_true
      · intro hnot
        exact absurd (hflush.symm.trans hnot).symm Bool.false_ne_true
  | false =>
      have hstall : Cpp.issueStall s x = !(Cpp.inputRun s x).finish := by
        rw [Cpp.issueStall, hflush]
        rfl
      have hport : (Cpp.issueInputNext s x).readregPort =
          if (Cpp.inputRun s x).finish then fun i =>
            Cpp.readregSend x.phyf x.executeFeedbackPack x.wbFeedbackPack (s.renamePort i)
          else s.readregPort := by
        show Cpp.readregPortNext s x = _
        rw [Cpp.readregPortNext, hflush, hstall, Bool.not_not]
        rfl
      have hstart : Cpp.inputStart (Cpp.issueInputNext s x) =
          if (Cpp.inputRun s x).finish then 0 else (Cpp.inputRun s x).lastIndex := by
        simp only [Cpp.inputStart, Cpp.issueInputNext, hflush]
        cases (Cpp.inputRun s x).finish <;> rfl
      refine ⟨⟨_, (cppPending_split h hflush).symm⟩, ?_, ?_, ?_, ?_⟩
      · show Cpp.issueStall s x = true ↔ _
        rw [cppRemaining h hflush, hstall]
        cases hfinish : (Cpp.inputRun s x).finish with
        | true => simp [bundleFrom_end s.readregPort (hrun.finished hfinish).ge]
        | false =>
            obtain ⟨hinside, henable, _⟩ := hrun.stopped hfinish
            simp [@bundleFrom_ne_nil s.readregPort _ hinside henable]
      · intro hbusy
        have hbusy : Cpp.issueStall s x = true := hbusy
        rw [hstall, Bool.not_eq_true'] at hbusy
        rw [cppRemaining h hflush]
        show bundleFrom _ _ = _
        rw [hport, hstart, hbusy]
        rfl
      · intro _ hfree
        have hfree : Cpp.issueStall s x = false := hfree
        rw [hstall, Bool.not_eq_false'] at hfree
        show bundleFrom _ _ = bundleFrom _ _
        rw [hport, hstart, hfree]
        rfl
      · intro hflushes
        exact absurd (hflush.symm.trans hflushes) Bool.false_ne_true

theorem cppInputStep (h : CppPosition s) : CppInputStep s x where
  stage := cppStage_step h
  inserted := by
    rw [Cpp.issueQNext, cppInsertedSlots]
    cases hflush : Cpp.issueFlushes x with
    | true => rfl
    | false => exact (inputRun_from h).pushed
  full := fun hstall => by
    rw [Cpp.issueStall, Bool.and_eq_true, Bool.not_eq_true', Bool.not_eq_true'] at hstall
    rw [Cpp.issueQNext, hstall.1]
    exact ((inputRun_from h).stopped hstall.2).2.2
  operands := inputItem_own
  frozen := fun hstall => by
    have hflush : Cpp.issueFlushes x = false := by
      rw [Cpp.issueStall, Bool.and_eq_true, Bool.not_eq_true'] at hstall
      exact hstall.1
    simp [Cpp.issueInputNext, Cpp.renamePortNext, Cpp.readregPortNext, hflush, hstall]
  position := fun hstall => by
    simp only [Cpp.issueStall, Bool.and_eq_false_iff, Bool.not_eq_false'] at hstall
    rcases hstall with hflush | hfinish <;>
      simp [Cpp.inputStart, Cpp.issueInputNext, *]

theorem cppInput_run (inputs : List Cpp.IssueInputCycle) :
    Along Cpp.issueInputNext CppInputStep Cpp.issueInputReset inputs := by
  have hall : Along Cpp.issueInputNext (fun _ _ => True) Cpp.issueInputReset inputs :=
    along_of_forall fun _ _ _ => trivial
  have hreset : CppPosition Cpp.issueInputReset := Nat.zero_le _
  exact (hall.strengthen (fun _ _ h _ => cppPosition_next h) hreset).mono
    fun _ _ h => cppInputStep h.1

end CppCycle

/-! ## The hardware -/

/-- One cycle of the hardware. -/
structure InputStep (s : IssueInputState) (x : IssueInputCycle) : Prop where
  stage : issueInputStage.Step s x issueInputNext
  inserted : issueList (issueQueueNext x.queue.val (queueCycle s x)) =
    if x.flush then []
    else waitingItems x.queue.val (queueCycle s x) ++
      (insertedSlots s x).map fun k => tItem x.phyf x.queueInput (s.readregPort k)
  full : x.flush = false → (insertedSlots s x).length =
    min (issueInputStage.pending s).length (issueQueueSize - x.queue.val.wptr)
  operands : ∀ op, ItemOwn x.phyf x.queueInput.executeFeedbackPack x.queueInput.wbFeedbackPack op
    (tItem x.phyf x.queueInput op)
  frozen : issueStall s x = true →
    (issueInputNext s x).renamePort = s.renamePort ∧
      (issueInputNext s x).readregPort = s.readregPort ∧
      (renameCycle s x).renameRatMap = false ∧ (renameCycle s x).renameRobPush = false ∧
      ∀ i, (renameCycle s x).renameCpbufWe i = false
  position : issueStall s x = false → (issueInputNext s x).lastIndex = 0

/-- Both registers hold a bundle whose enabled operations form a prefix. -/
structure LeadingPorts (s : IssueInputState) : Prop where
  rename : LeadingEnabled fun i => (s.renamePort i).enable
  readreg : LeadingEnabled fun i => (s.readregPort i).enable

section Cycle

variable {s : IssueInputState} {x : IssueInputCycle}

/-- The number of enabled operations of the bundle. -/
def bundleSize (port : Nat → ReadregIssueOpInfo) : Nat :=
  countOne readregWidth fun i => (port i).enable

theorem enable_eq {port : Nat → ReadregIssueOpInfo} (h : LeadingEnabled fun i => (port i).enable)
    {i : Nat} (hi : i < readregWidth) : (port i).enable = decide (i < bundleSize port) := by
  have hclosed : ∀ j, j + 1 < readregWidth → (port (j + 1)).enable = true →
      (port j).enable = true := fun j hj => h j (by omega)
  exact @countOne_block_of_closed readregWidth (fun i => (port i).enable) hclosed i hi

theorem bundleFrom_past {port : Nat → ReadregIssueOpInfo}
    (h : LeadingEnabled fun i => (port i).enable) {a : Nat} (ha : bundleSize port ≤ a) :
    bundleFrom port a = [] := by
  rw [bundleFrom, List.map_eq_nil_iff, List.filter_eq_nil_iff]
  intro i hi
  rw [List.range_eq_range', List.drop_range', List.mem_range'] at hi
  obtain ⟨k, hk, rfl⟩ := hi
  rw [enable_eq h (by omega), decide_eq_true_eq]
  omega

/-- The operations from a slot on, when they form a prefix. -/
theorem bundleFrom_leading {port : Nat → ReadregIssueOpInfo}
    (h : LeadingEnabled fun i => (port i).enable) (a : Nat) :
    bundleFrom port a = (List.range' a (bundleSize port - a)).map port := by
  have hsize : bundleSize port ≤ readregWidth := countOne_le _ _
  rcases Nat.le_total a (bundleSize port) with ha | ha
  · have hall : ∀ i, i ∈ List.range' a (bundleSize port - a) → (port i).enable = true := by
      intro i hi
      rw [List.mem_range'] at hi
      obtain ⟨k, hk, rfl⟩ := hi
      rw [enable_eq h (by omega), decide_eq_true_eq]
      omega
    rw [bundleFrom_split port ha hsize, bundleFrom_past h (Nat.le_refl _), List.append_nil,
      List.range_eq_range', List.drop_range', Nat.zero_add, Nat.mul_one, List.filter_eq_self.2 hall]
  · rw [bundleFrom_past h ha, Nat.sub_eq_zero_of_le ha]
    rfl

/-- What the queue is offered: the rest of the bundle. -/
theorem redirected_eq (h : LeadingPorts s) (i : Nat) :
    redirectedPackValid x.phyf x.queueInput s.readregPort s.lastIndex i =
      decide (i < bundleSize s.readregPort - s.lastIndex) := by
  have hsize : bundleSize s.readregPort ≤ readregWidth := countOne_le _ _
  rw [redirectedPackValid, redirectedValid]
  by_cases hi : i + s.lastIndex < readregWidth
  · have henable : (tItemRedirected x.phyf x.queueInput s.readregPort s.lastIndex i).enable =
        (s.readregPort (i + s.lastIndex)).enable := by
      rw [tItemRedirected, redirectedValid, decide_eq_true hi, if_pos rfl]
      rfl
    rw [henable, enable_eq h.readreg hi, decide_eq_true hi, Bool.true_and, decide_eq_decide]
    omega
  · rw [decide_eq_false hi, Bool.false_and]
    exact (decide_eq_false (by omega)).symm

/-- How many of them the queue has space for. -/
def pushNum (s : IssueInputState) (x : IssueInputCycle) : Nat :=
  min (bundleSize s.readregPort - s.lastIndex) (issueQueueSize - x.queue.val.wptr)

theorem offeredValid_eq (h : LeadingPorts s) (i : Nat) :
    issueIqDataValidOf x.phyf x.queueInput s.readregPort s.lastIndex x.channelEnable i =
      decide (i < pushNum s x) := by
  rw [issueIqDataValidOf, redirected_eq h, IssueInputCycle.channelEnable,
    channelEnable_eq x.queue.property, ← Bool.decide_and, decide_eq_decide, pushNum, Nat.lt_min]

theorem pushNum_le (s : IssueInputState) (x : IssueInputCycle) : pushNum s x ≤ readregWidth := by
  have hsize : bundleSize s.readregPort ≤ readregWidth := countOne_le _ _
  unfold pushNum
  omega

theorem inputPushNum_eq (h : LeadingPorts s) :
    inputPushNum x.phyf x.queueInput s.readregPort s.lastIndex x.channelEnable = pushNum s x := by
  have hclosed : ∀ i, i + 1 < readregWidth →
      issueIqDataValidOf x.phyf x.queueInput s.readregPort s.lastIndex x.channelEnable (i + 1) =
        true →
      issueIqDataValidOf x.phyf x.queueInput s.readregPort s.lastIndex x.channelEnable i =
        true := by
    intro i _ hnext
    rw [offeredValid_eq h, decide_eq_true_eq] at hnext ⊢
    omega
  rw [inputPushNum, countOneContinuous_eq (by decide) hclosed]
  exact countOne_block (pushNum_le s x) fun i _ => offeredValid_eq h i

theorem stall_iff (h : LeadingPorts s) : issueStall s x = true ↔
    x.flush = false ∧ s.lastIndex + pushNum s x < bundleSize s.readregPort := by
  have hsize : bundleSize s.readregPort ≤ readregWidth := countOne_le _ _
  rw [issueStall, issueBusy, Bool.and_eq_true, Bool.not_eq_true', anyBit_iff]
  refine and_congr_right fun _ => ?_
  simp only [offeredValid_eq h, redirected_eq h, bne_iff_ne, ne_eq, decide_eq_decide]
  unfold pushNum
  constructor
  · rintro ⟨i, hi, hdiffer⟩
    omega
  · intro hrest
    exact ⟨issueQueueSize - x.queue.val.wptr, by omega, by omega⟩

/-- What the queue accepts. -/
theorem accepted_items (h : LeadingPorts s) : acceptedItems x.queue.val (queueCycle s x) =
    (List.range' s.lastIndex (pushNum s x)).map fun k =>
      tItem x.phyf x.queueInput (s.readregPort k) := by
  have hsize : bundleSize s.readregPort ≤ readregWidth := countOne_le _ _
  have haccepted := @accepted_contiguous _ (queueCycle s x) x.queue.property rfl _
    (pushNum_le s x) fun i _ => offeredValid_eq h i
  have hmin : min (pushNum s x) (issueQueueSize - x.queue.val.wptr) = pushNum s x :=
    Nat.min_eq_left (Nat.min_le_right _ _)
  rw [haccepted, hmin, List.range'_eq_map_range, List.map_map]
  refine List.map_congr_left fun i hi => ?_
  have hlt : i < pushNum s x := List.mem_range.1 hi
  have hinside : i + s.lastIndex < readregWidth := by
    unfold pushNum at hlt
    omega
  show tItemRedirected x.phyf x.queueInput s.readregPort s.lastIndex i = _
  rw [tItemRedirected, redirectedValid, decide_eq_true hinside, if_pos rfl, Nat.add_comm]
  rfl

theorem insertedSlots_eq (h : LeadingPorts s) (hflush : x.flush = false) :
    insertedSlots s x = List.range' s.lastIndex (pushNum s x) := by
  rw [insertedSlots, hflush, inputPushNum_eq h]
  rfl

theorem lastIndex_next (h : LeadingPorts s) : (issueInputNext s x).lastIndex =
    if issueStall s x then s.lastIndex + pushNum s x else 0 := by
  have hsize : bundleSize s.readregPort ≤ readregWidth := countOne_le _ _
  show lastIndexNext _ _ _ _ _ = _
  rw [lastIndexNext, inputPushNum_eq h, ← issueStall]
  cases hstall : issueStall s x with
  | false => rfl
  | true =>
      have hrest := ((stall_iff h).1 hstall).2
      exact Nat.mod_eq_of_lt (by omega)

/-- The cycle splits the pending operations. -/
theorem pending_split (h : LeadingPorts s) (hflush : x.flush = false) :
    issueInputStage.pending s = issueInputStage.inserted s x ++
      bundleFrom s.readregPort (s.lastIndex + pushNum s x) := by
  show bundleFrom _ _ = (insertedSlots s x).map _ ++ _
  rw [insertedSlots_eq h hflush, bundleFrom_leading h.readreg, bundleFrom_leading h.readreg,
    ← List.map_append, List.range'_append_1]
  congr 2
  unfold pushNum
  omega

theorem remaining_eq (h : LeadingPorts s) (hflush : x.flush = false) :
    issueInputStage.remaining s x = bundleFrom s.readregPort (s.lastIndex + pushNum s x) := by
  have hnot : issueInputStage.flush x = false := hflush
  rw [Stage.remaining, hnot, pending_split h hflush, List.drop_left]
  rfl

theorem readregPort_next : (issueInputNext s x).readregPort =
    if x.flush then fun _ => ReadregIssueOpInfo.zero
    else if issueStall s x then s.readregPort else readregCycle s x := by
  show bundlePortNext _ _ _ _ _ = _
  rw [bundlePortNext]
  cases issueStall s x <;> rfl

theorem renamePort_next : (issueInputNext s x).renamePort =
    if x.flush then fun _ => RenameReadregOpInfo.zero
    else if issueStall s x then s.renamePort else (renameCycle s x).sendPack := by
  show bundlePortNext _ _ (!issueStall s x) x.flush _ = _
  rw [bundlePortNext]
  cases issueStall s x <;> rfl

theorem stage_step (h : LeadingPorts s) : issueInputStage.Step s x issueInputNext := by
  cases hflush : x.flush with
  | true =>
      have hflushes : issueInputStage.flush x = true := hflush
      have hstall : issueStall s x = false := by
        rw [Bool.eq_false_iff]
        intro hbusy
        exact absurd (((stall_iff h).1 hbusy).1.symm.trans hflush) Bool.false_ne_true
      have hinserted : issueInputStage.inserted s x = [] := by
        show (insertedSlots s x).map _ = []
        rw [insertedSlots, hflush]
        rfl
      have hpending : issueInputStage.pending (issueInputNext s x) = [] := by
        show bundleFrom _ _ = []
        rw [readregPort_next, hflush]
        simp [bundleFrom, ReadregIssueOpInfo.zero, ExecuteWbPack.zero]
      refine ⟨?_, ?_, ?_, ?_, fun _ => ⟨hinserted, hpending⟩⟩
      · rw [hinserted]
        exact List.nil_prefix
      · show issueStall s x = true ↔ _
        simp [hstall, Stage.remaining, hflushes]
      · intro hbusy
        exact absurd (hstall.symm.trans hbusy) Bool.false_ne_true
      · intro hnot
        exact absurd (hnot.symm.trans hflushes) Bool.false_ne_true
  | false =>
      refine ⟨⟨_, (pending_split h hflush).symm⟩, ?_, ?_, ?_, ?_⟩
      · show issueStall s x = true ↔ _
        rw [stall_iff h, remaining_eq h hflush, bundleFrom_leading h.readreg, ne_eq,
          List.map_eq_nil_iff, List.range'_eq_nil_iff]
        simp only [hflush, true_and]
        omega
      · intro hbusy
        have hbusy : issueStall s x = true := hbusy
        rw [remaining_eq h hflush]
        show bundleFrom _ _ = _
        rw [readregPort_next, lastIndex_next h, hflush, hbusy]
        rfl
      · intro _ hfree
        have hfree : issueStall s x = false := hfree
        show bundleFrom _ _ = bundleFrom _ _
        rw [readregPort_next, lastIndex_next h, hflush, hfree]
        rfl
      · intro hflushes
        exact absurd (hflush.symm.trans hflushes) Bool.false_ne_true

theorem inputStep (h : LeadingPorts s) : InputStep s x where
  stage := stage_step h
  inserted := by
    cases hflush : x.flush with
    | true => exact issueList_flush hflush
    | false =>
        rw [issueList_next x.queue.property hflush, accepted_items h, insertedSlots_eq h hflush]
        rfl
  full := fun hflush => by
    show _ = min (bundleFrom _ _).length _
    rw [insertedSlots_eq h hflush, List.length_range', bundleFrom_leading h.readreg,
      List.length_map, List.length_range', pushNum]
  operands := tItem_own x.queueInput
  frozen := fun hstall => by
    have hflush := ((stall_iff h).1 hstall).1
    have hwe : (renameCycle s x).readregPortWe = false := by
      show (!issueStall s x) = false
      rw [hstall]
      rfl
    rw [renamePort_next, readregPort_next, hflush, hstall]
    simp [RenameInput.renameRatMap, RenameInput.renameRobPush, RenameInput.renameCpbufWe, hwe]
  position := fun hstall => by
    rw [lastIndex_next h, hstall]
    rfl

/-- A bundle that rename hands over has its enabled operations in front. -/
def BundlePrefix (s : IssueInputState) (x : IssueInputCycle) : Prop :=
  x.flush = false → issueStall s x = false →
    LeadingEnabled fun i => ((renameCycle s x).sendPack i).enable

instance (s : IssueInputState) (x : IssueInputCycle) : Decidable (BundlePrefix s x) :=
  inferInstanceAs (Decidable (_ → _ → _))

theorem leadingPorts_next (h : LeadingPorts s) (hbundle : BundlePrefix s x) :
    LeadingPorts (issueInputNext s x) := by
  have hzero : ∀ i, i < readregWidth - 1 → false = true → false = true := fun _ _ h => h
  cases hflush : x.flush with
  | true =>
      refine ⟨?_, ?_⟩
      · rw [renamePort_next, hflush]
        exact hzero
      · rw [readregPort_next, hflush]
        exact hzero
  | false =>
      cases hstall : issueStall s x with
      | true =>
          refine ⟨?_, ?_⟩
          · rw [renamePort_next, hflush, hstall]
            exact h.rename
          · rw [readregPort_next, hflush, hstall]
            exact h.readreg
      | false =>
          refine ⟨?_, ?_⟩
          · rw [renamePort_next, hflush, hstall]
            exact hbundle hflush hstall
          · rw [readregPort_next, hflush, hstall]
            exact h.rename

end Cycle

/-! ## Every run -/

/-- Whatever the free space, the feedback and the flushes of the cycles are, every cycle
inserts the front of what is pending, stalls while some is left and freezes the stages in
front; over the run every operation that arrived was inserted or dropped once, in order,
or is pending.  The same holds of the C++ model, for any bundles. -/
theorem segments_exact (inputs : List IssueInputCycle)
    (h : Along issueInputNext BundlePrefix issueInputReset inputs)
    (cppInputs : List Cpp.IssueInputCycle) :
    (Along issueInputNext InputStep issueInputReset inputs ∧
      outputs issueInputNext issueInputStage.entering issueInputReset inputs =
        (outputs issueInputNext issueInputStage.leaving issueInputReset inputs).map Prod.fst ++
          issueInputStage.pending (run issueInputNext issueInputReset inputs)) ∧
    Along Cpp.issueInputNext CppInputStep Cpp.issueInputReset cppInputs ∧
      outputs Cpp.issueInputNext cppIssueInputStage.entering Cpp.issueInputReset cppInputs =
        (outputs Cpp.issueInputNext cppIssueInputStage.leaving Cpp.issueInputReset
          cppInputs).map Prod.fst ++
          cppIssueInputStage.pending (run Cpp.issueInputNext Cpp.issueInputReset cppInputs) := by
  have hreset : LeadingPorts issueInputReset := ⟨fun _ _ h => h, fun _ _ h => h⟩
  have hrun : Along issueInputNext InputStep issueInputReset inputs :=
    (h.strengthen (fun _ _ => leadingPorts_next) hreset).mono fun _ _ h => inputStep h.1
  have hcpp : Along Cpp.issueInputNext CppInputStep Cpp.issueInputReset cppInputs :=
    cppInput_run cppInputs
  have hempty : issueInputStage.pending issueInputReset = [] := rfl
  have hcppEmpty : cppIssueInputStage.pending Cpp.issueInputReset = [] := rfl
  refine ⟨⟨hrun, ?_⟩, hcpp, ?_⟩
  · rw [← Stage.delivered (hrun.mono fun _ _ h => h.stage), hempty, List.nil_append]
  · rw [← Stage.delivered (hcpp.mono fun _ _ h => h.stage), hcppEmpty, List.nil_append]

def noCommit : CommitFeedbackPack :=
  ⟨false, false, 0, false, 0, false, fun _ => 0, fun _ => false, false, false, 0⟩

/-- A cycle that offers two instructions and finds a queue with `used` entries. -/
def twoOffered (used : Nat) (h : used ≤ issueQueueSize) : IssueInputCycle where
  rename :=
    { decodeRenameFifoDataOut := fun i => { tItemEmpty.toDecodeRenamePack with enable := true, pc := 4 * i }
      decodeRenameFifoDataOutValid := fun i => decide (i < 2)
      cpbufRenameData := fun _ => ⟨fun _ => false, fun _ => false, 0, 0⟩
      ratRenameNewPhyId := fun _ => 0
      ratRenameNewPhyIdValid := fun _ => false
      ratRenameMapTableValid := fun _ => false
      ratRenameMapTableVisible := fun _ => false
      ratRenameReadPhyId := fun _ => 0
      robRenameNewId := fun i => i
      robRenameNewIdValid := fun _ => true
      issueFeedbackStall := false
      commitFeedbackPack := noCommit }
  phyf := phyRegfileReset
  queue := ⟨{ issueQueueReset (fun _ => tItemEmpty) with wptr := used }, h⟩
  queueInput :=
    { issueIqData := fun _ => tItemEmpty
      issueIqDataValid := fun _ => false
      issueIqPush := true
      issueIqFlush := false
      stbufAllEmpty := true
      issueFifoFull := fun _ _ => false
      executeFeedbackPack := fun _ => ⟨false, 0, 0⟩
      wbFeedbackPack := fun _ => ⟨false, 0, 0⟩
      commitFeedbackPack := noCommit }

/-- With one free entry in a cycle, a bundle of two takes two cycles. -/
theorem segments_twoPieces :
    Along issueInputNext InputStep issueInputReset
        (List.replicate 4 (twoOffered 15 (by decide))) ∧
      (outputs issueInputNext issueInputStage.leaving issueInputReset
        (List.replicate 4 (twoOffered 15 (by decide)))).map (fun a => (a.1.pc, a.2)) =
        [(0, true), (4, true)] :=
  ⟨(segments_exact (List.replicate 4 (twoOffered 15 (by decide))) (by decide) []).1.1,
    by decide⟩

end DreamCore.Proofs
