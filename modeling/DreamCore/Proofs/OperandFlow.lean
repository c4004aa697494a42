import DreamCore.Proofs.ResultFlow
import DreamCore.Proofs.SegmentedInput

/-!
# Operands on their way to a unit

A source is captured in register read, when the operation enters the issue queue, or in
the queue, from the register file or a feedback channel.  In every cycle a source in the
queue is known exactly when the scoreboard has its value; in the register in front of the
queue it may be behind, and catches up when it enters.
-/

namespace DreamCore.Proofs

open DreamCore.Clocked DreamCore.Model DreamCore.Renaming DreamCore.Rtl

/-! ## One source -/

/-- What a source is, as the scoreboard sees it. -/
def expectedSource (regs : Nat → Option Nat) (needMap : Bool) (argSrc : ArgSrc)
    (imm phyId : Nat) : Option Nat :=
  if needMap then regs phyId else some (if argSrc = .imm then imm else 0)

/-- A loaded source is right; one that is not loaded is a register. -/
structure SourceKnown (regs : Nat → Option Nat) (needMap : Bool) (argSrc : ArgSrc)
    (imm phyId : Nat) (source : Option Nat) : Prop where
  right : ∀ v, source = some v → expectedSource regs needMap argSrc imm phyId = some v
  register : source = none → needMap = true

/-- What file and channels show of a register in a cycle in which the scoreboard goes from
`before` to `after`. -/
structure ResultFeed (phyf : PhyRegfileState) (execute wb : Nat → FeedbackChannel) (phyId : Nat)
    (before after : Option Nat) : Prop where
  onExecute : ∀ j, j < executeUnitNum → Delivers (execute j) phyId →
    before = none ∧ after = some (execute j).value ∧
      ∀ i, i < executeUnitNum → Delivers (execute i) phyId → i = j
  onWb : ∀ j, j < wbWidth → Delivers (wb j) phyId →
    before = some (wb j).value ∧ phyf.dataValid phyId = false ∧
      ∀ i, i < wbWidth → Delivers (wb i) phyId → i = j
  quiet : (∀ j, j < executeUnitNum → ¬Delivers (execute j) phyId) → after = before
  file : (∀ j, j < wbWidth → ¬Delivers (wb j) phyId) →
    sourceOf (phyf.dataValid phyId) (phyf.data phyId) = before

namespace ResultFeed

variable {phyf : PhyRegfileState} {execute wb : Nat → FeedbackChannel} {phyId : Nat}
  {before after : Option Nat} (h : ResultFeed phyf execute wb phyId before after)
include h

theorem known {v : Nat} (hv : before = some v) : after = some v := by
  rw [h.quiet fun j hj hd => ?_, hv]
  exact absurd ((h.onExecute j hj hd).1.symm.trans hv) (Option.some_ne_none v).symm

theorem unknown_wb (hnone : before = none) : ∀ j, j < wbWidth → ¬Delivers (wb j) phyId :=
  fun j hj hd => absurd (hnone.symm.trans (h.onWb j hj hd).1) (Option.some_ne_none _).symm

/-- A register the file has is on no channel. -/
theorem valid_known (hvalid : phyf.dataValid phyId = true) :
    before = some (phyf.data phyId) := by
  have hfile := h.file fun j hj hd =>
    absurd ((h.onWb j hj hd).2.1.symm.trans hvalid) Bool.false_ne_true
  rw [hvalid] at hfile
  exact hfile.symm

/-- A register on no channel and not in the file has no value. -/
theorem absent_none (hvalid : phyf.dataValid phyId = false)
    (hexe : ∀ j, j < executeUnitNum → ¬Delivers (execute j) phyId)
    (hwb : ∀ j, j < wbWidth → ¬Delivers (wb j) phyId) : after = none := by
  have hfile := h.file hwb
  rw [hvalid] at hfile
  exact (h.quiet hexe).trans hfile.symm

end ResultFeed

section Capture

variable {phyf : PhyRegfileState} {input : IssueQueueInput} {phyId : Nat}
  {before after : Option Nat}
  (h : ResultFeed phyf input.executeFeedbackPack input.wbFeedbackPack phyId before after)
include h

/-- Capture from the channels, of a source that was up to date. -/
theorem feedback_follows {old new : Option Nat} (hfed : SourceFed input phyId old new)
    (hold : old = before) : new = after := by
  subst hold
  cases hbefore : old with
  | some v => rw [hfed.kept v hbefore, h.known hbefore]
  | none =>
      have hwb := h.unknown_wb hbefore
      by_cases hexe : ∃ j, j < executeUnitNum ∧ Delivers (input.executeFeedbackPack j) phyId
      · obtain ⟨j, hj, hd⟩ := hexe
        obtain ⟨_, hafter, honly⟩ := h.onExecute j hj hd
        rw [hfed.execute hbefore j hj hd honly, hafter]
      · have hnone : ∀ j, j < executeUnitNum → ¬Delivers (input.executeFeedbackPack j) phyId :=
          fun j hj hd => hexe ⟨j, hj, hd⟩
        rw [(hfed.unknown hbefore).2 ⟨hnone, hwb⟩, h.quiet hnone, hbefore]

/-- Capture on the way into the queue, of a source that may be behind. -/
theorem tItem_follows (loaded : Bool) (value : Nat)
    (hold : ∀ v, sourceOf loaded value = some v → before = some v) :
    sourceOf (tItemLoaded phyf input loaded phyId) (tItemValue phyf input loaded value phyId) =
      after := by
  cases loaded with
  | true => exact (h.known (hold value rfl)).symm
  | false =>
      cases hvalid : phyf.dataValid phyId with
      | true =>
          rw [h.known (h.valid_known hvalid)]
          simp [tItemLoaded, tItemValue, hvalid, sourceOf]
      | false =>
          have hsame : sourceOf (tItemLoaded phyf input false phyId)
              (tItemValue phyf input false value phyId) =
              sourceOf (feedbackLoaded input false phyId)
                (feedbackValue input false value phyId) := by
            simp [tItemLoaded, tItemValue, feedbackLoaded, feedbackValue, hvalid]
          have hfed := @sourceFed input phyId false value
          rw [hsame]
          by_cases hexe : ∃ j, j < executeUnitNum ∧ Delivers (input.executeFeedbackPack j) phyId
          · obtain ⟨j, hj, hd⟩ := hexe
            obtain ⟨_, hafter, honly⟩ := h.onExecute j hj hd
            rw [hfed.execute rfl j hj hd honly, hafter]
          · have hnone : ∀ j, j < executeUnitNum →
                ¬Delivers (input.executeFeedbackPack j) phyId := fun j hj hd => hexe ⟨j, hj, hd⟩
            by_cases hback : ∃ j, j < wbWidth ∧ Delivers (input.wbFeedbackPack j) phyId
            · obtain ⟨j, hj, hd⟩ := hback
              obtain ⟨hbefore, _, honly⟩ := h.onWb j hj hd
              rw [hfed.wb rfl hnone j hj hd honly, h.known hbefore]
            · have hwb : ∀ j, j < wbWidth → ¬Delivers (input.wbFeedbackPack j) phyId :=
                fun j hj hd => hback ⟨j, hj, hd⟩
              rw [(hfed.unknown rfl).2 ⟨hnone, hwb⟩, h.absent_none hvalid hnone hwb]

end Capture

section Readreg

variable {phyf : PhyRegfileState} {execute wb : Nat → FeedbackChannel} {phyId : Nat}
  {before after : Option Nat} (h : ResultFeed phyf execute wb phyId before after)
include h

/-- Both kinds of channels in one selection: only one channel delivers. -/
theorem feedbackDataCmp_only {k : Nat} (hk : k < executeUnitNum * 2)
    (hcmp : feedbackDataCmp execute wb phyId k = true) :
    after = some (feedbackChannel execute wb k).value ∧
      ∀ i, i < executeUnitNum * 2 → (feedbackDataCmp execute wb phyId i = true ↔ i = k) := by
  have hdelivers : ∀ i, feedbackDataCmp execute wb phyId i = true →
      Delivers (feedbackChannel execute wb i) phyId := fun i hi =>
    ⟨(Bool.and_eq_true_iff.1 hi).1, of_decide_eq_true (Bool.and_eq_true_iff.1 hi).2⟩
  have hwidth : executeUnitNum * 2 - executeUnitNum = wbWidth := rfl
  have hleft : ∀ i, i < executeUnitNum → feedbackDataCmp execute wb phyId i = true →
      Delivers (execute i) phyId := fun i hi hcmp => by
    have hd := hdelivers i hcmp
    rwa [feedbackChannel, if_pos hi] at hd
  have hright : ∀ i, executeUnitNum ≤ i → feedbackDataCmp execute wb phyId i = true →
      Delivers (wb (i - executeUnitNum)) phyId := fun i hi hcmp => by
    have hd := hdelivers i hcmp
    rwa [feedbackChannel, if_neg (Nat.not_lt.2 hi)] at hd
  -- A register is on channels of one kind only.
  have hkind : ∀ i j, i < executeUnitNum → executeUnitNum ≤ j → j < executeUnitNum * 2 →
      feedbackDataCmp execute wb phyId i = true → feedbackDataCmp execute wb phyId j = true →
      False := fun i j hi hj hj2 hci hcj => by
    have hnone := (h.onExecute i hi (hleft i hi hci)).1
    have hsome := (h.onWb (j - executeUnitNum) (by omega) (hright j hj hcj)).1
    exact absurd (hnone.symm.trans hsome) (Option.some_ne_none _).symm
  by_cases hlow : k < executeUnitNum
  · obtain ⟨_, hafter, honly⟩ := h.onExecute k hlow (hleft k hlow hcmp)
    refine ⟨by rw [feedbackChannel, if_pos hlow, hafter], fun i hi => ⟨fun hci => ?_, ?_⟩⟩
    · by_cases hil : i < executeUnitNum
      · exact honly i hil (hleft i hil hci)
      · exact absurd (hkind k i hlow (Nat.not_lt.1 hil) hi hcmp hci) id
    · rintro rfl
      exact hcmp
  · have hge := Nat.not_lt.1 hlow
    obtain ⟨hbefore, _, honly⟩ := h.onWb (k - executeUnitNum) (by omega) (hright k hge hcmp)
    refine ⟨by rw [feedbackChannel, if_neg hlow, h.known hbefore], fun i hi => ⟨fun hci => ?_, ?_⟩⟩
    · by_cases hil : i < executeUnitNum
      · exact absurd (hkind i k hil hge hk hci hcmp) id
      · have := honly (i - executeUnitNum) (by omega) (hright i (Nat.not_lt.1 hil) hci)
        omega
    · rintro rfl
      exact hcmp

/-- Capture in register read. -/
theorem readreg_follows :
    sourceOf (phyf.dataValid phyId || readregFeedbackDataValid execute wb phyId)
      (if phyf.dataValid phyId then phyf.data phyId else readregFeedbackData execute wb phyId) =
      after := by
  cases hvalid : phyf.dataValid phyId with
  | true => exact (h.known (h.valid_known hvalid)).symm
  | false =>
      rw [Bool.false_or, if_neg Bool.false_ne_true]
      cases hany : readregFeedbackDataValid execute wb phyId with
      | true =>
          obtain ⟨k, hk, hcmp⟩ := anyBit_iff.1 hany
          obtain ⟨hafter, honly⟩ := feedbackDataCmp_only h hk hcmp
          rw [hafter, readregFeedbackData, dataSelector_single Nat.zero_or Nat.or_zero hk honly]
          rfl
      | false =>
          have hnone := anyBit_eq_false_iff.1 hany
          refine (h.absent_none hvalid (fun j hj hd => ?_) fun j hj hd => ?_).symm
          · have hcmp := hnone j (by omega)
            rw [feedbackDataCmp, feedbackChannel, if_pos hj, hd.1, decide_eq_true hd.2] at hcmp
            exact absurd hcmp (by decide)
          · have hlt : executeUnitNum + j < executeUnitNum * 2 := by
              have hwidth : wbWidth = executeUnitNum := rfl
              omega
            have hcmp := hnone (executeUnitNum + j) hlt
            rw [feedbackDataCmp, feedbackChannel, if_neg (by omega), Nat.add_sub_cancel_left, hd.1,
              decide_eq_true hd.2] at hcmp
            exact absurd hcmp (by decide)

end Readreg

/-! ## Both sources of an operation -/

/-- The operation was sent for the entry: its sources are the registers they were mapped to,
its destination is the entry's register. -/
structure SentFor (e : Entry InFlight) (op : RenameReadregOpInfo) : Prop where
  decoded : op.toDecodeRenamePack = e.tag.op
  enable : op.enable = true
  rd : op.rdPhy = e.item.newPhyRegId
  rs1 : op.rs1NeedMap = true → op.rs1 ∈ archRegs ∧ op.rs1Phy = e.tag.mapBefore op.rs1
  rs2 : op.rs2NeedMap = true → op.rs2 ∈ archRegs ∧ op.rs2Phy = e.tag.mapBefore op.rs2

/-- Both sources of an accepted operation are what the scoreboard says. -/
structure OperandsFollow (regs : Nat → Option Nat) (op : ReadregIssueOpInfo) : Prop where
  src1 : op.valid = true → sourceOf op.src1Loaded op.src1Value =
    expectedSource regs op.rs1NeedMap op.arg1Src op.imm op.rs1Phy
  src2 : op.valid = true → sourceOf op.src2Loaded op.src2Value =
    expectedSource regs op.rs2NeedMap op.arg2Src op.imm op.rs2Phy

/-- They are right as far as they are loaded. -/
structure OperandsKnown (regs : Nat → Option Nat) (op : ReadregIssueOpInfo) : Prop where
  src1 : op.valid = true → SourceKnown regs op.rs1NeedMap op.arg1Src op.imm op.rs1Phy
    (sourceOf op.src1Loaded op.src1Value)
  src2 : op.valid = true → SourceKnown regs op.rs2NeedMap op.arg2Src op.imm op.rs2Phy
    (sourceOf op.src2Loaded op.src2Value)

theorem OperandsFollow.known {regs : Nat → Option Nat} {op : ReadregIssueOpInfo}
    (h : OperandsFollow regs op) : OperandsKnown regs op := by
  have hsource : ∀ {needMap argSrc imm phyId source},
      source = expectedSource regs needMap argSrc imm phyId →
      SourceKnown regs needMap argSrc imm phyId source := by
    intro needMap argSrc imm phyId source hsource
    refine ⟨fun v hv => hsource.symm.trans hv, fun hnone => ?_⟩
    rw [hnone, expectedSource] at hsource
    split at hsource
    · assumption
    · exact absurd hsource (Option.some_ne_none _).symm
  exact ⟨fun hvalid => hsource (h.src1 hvalid), fun hvalid => hsource (h.src2 hvalid)⟩

section Sources

variable {phyf : PhyRegfileState} {input : IssueQueueInput} {execute wb : Nat → FeedbackChannel}
  {regs regs' : Nat → Option Nat} {needMap : Bool} {argSrc : ArgSrc} {imm phyId : Nat}

/-- A source in the queue. -/
theorem queue_source (hfeed : needMap = true → ResultFeed phyf input.executeFeedbackPack
      input.wbFeedbackPack phyId (regs phyId) (regs' phyId)) {old new : Option Nat}
    (hfed : SourceFed input phyId old new)
    (hold : old = expectedSource regs needMap argSrc imm phyId) :
    new = expectedSource regs' needMap argSrc imm phyId := by
  cases hneed : needMap with
  | true =>
      rw [expectedSource, hneed] at hold
      exact feedback_follows (hfeed hneed) hfed hold
  | false =>
      rw [expectedSource, hneed] at hold
      exact hfed.kept _ hold

/-- A source that enters the queue. -/
theorem entering_source (hfeed : needMap = true → ResultFeed phyf input.executeFeedbackPack
      input.wbFeedbackPack phyId (regs phyId) (regs' phyId)) {loaded : Bool} {value : Nat}
    (hold : SourceKnown regs needMap argSrc imm phyId (sourceOf loaded value)) :
    sourceOf (tItemLoaded phyf input loaded phyId) (tItemValue phyf input loaded value phyId) =
      expectedSource regs' needMap argSrc imm phyId := by
  cases hneed : needMap with
  | true =>
      refine tItem_follows (hfeed hneed) loaded value fun v hv => ?_
      have hright := hold.right v hv
      rwa [expectedSource, hneed] at hright
  | false =>
      cases loaded with
      | true =>
          have hright := hold.right value rfl
          rw [expectedSource, hneed] at hright
          exact hright.symm
      | false => exact absurd ((hold.register rfl).symm.trans hneed) (by decide)

/-- A source that waits in front of the queue. -/
theorem waiting_source (hfeed : needMap = true → ResultFeed phyf execute wb phyId (regs phyId)
      (regs' phyId)) {source : Option Nat}
    (hold : SourceKnown regs needMap argSrc imm phyId source) :
    SourceKnown regs' needMap argSrc imm phyId source := by
  refine ⟨fun v hv => ?_, hold.register⟩
  have hright := hold.right v hv
  cases hneed : needMap with
  | true =>
      rw [expectedSource, hneed] at hright
      exact (hfeed hneed).known hright
  | false =>
      rw [expectedSource, hneed] at hright
      exact hright

/-- A source in register read. -/
theorem read_source (hfeed : needMap = true → ResultFeed phyf execute wb phyId (regs phyId)
      (regs' phyId)) {enable valid : Bool} (henable : enable = true) (hvalid : valid = true) :
    sourceOf (readregLoaded phyf execute wb enable valid needMap phyId)
      (readregValue phyf execute wb needMap argSrc imm phyId) =
      expectedSource regs' needMap argSrc imm phyId := by
  subst henable hvalid
  cases hneed : needMap with
  | true => exact readreg_follows (hfeed hneed)
  | false => rfl

end Sources

/-- The register file and the channels show both sources of the operation. -/
structure OperandFeed (phyf : PhyRegfileState) (execute wb : Nat → FeedbackChannel)
    (regs regs' : Nat → Option Nat) (op : RenameReadregOpInfo) : Prop where
  rs1 : op.rs1NeedMap = true →
    ResultFeed phyf execute wb op.rs1Phy (regs op.rs1Phy) (regs' op.rs1Phy)
  rs2 : op.rs2NeedMap = true →
    ResultFeed phyf execute wb op.rs2Phy (regs op.rs2Phy) (regs' op.rs2Phy)

section Operation

variable {phyf : PhyRegfileState} {input : IssueQueueInput} {execute wb : Nat → FeedbackChannel}
  {regs regs' : Nat → Option Nat} {op : ReadregIssueOpInfo}

theorem itemFeedback_follows (hfeed : OperandFeed phyf input.executeFeedbackPack
      input.wbFeedbackPack regs regs' op.toRenameReadregOpInfo) (h : OperandsFollow regs op) :
    OperandsFollow regs' (itemFeedback input op) :=
  ⟨fun hvalid => queue_source hfeed.rs1 (itemFed op).src1 (h.src1 hvalid),
    fun hvalid => queue_source hfeed.rs2 (itemFed op).src2 (h.src2 hvalid)⟩

theorem tItem_operands (hfeed : OperandFeed phyf input.executeFeedbackPack
      input.wbFeedbackPack regs regs' op.toRenameReadregOpInfo) (h : OperandsKnown regs op) :
    OperandsFollow regs' (tItem phyf input op) :=
  ⟨fun hvalid => entering_source hfeed.rs1 (h.src1 hvalid),
    fun hvalid => entering_source hfeed.rs2 (h.src2 hvalid)⟩

theorem waiting_operands (hfeed : OperandFeed phyf execute wb regs regs' op.toRenameReadregOpInfo)
    (h : OperandsKnown regs op) : OperandsKnown regs' op :=
  ⟨fun hvalid => waiting_source hfeed.rs1 (h.src1 hvalid),
    fun hvalid => waiting_source hfeed.rs2 (h.src2 hvalid)⟩

theorem read_operands {rev : RenameReadregOpInfo}
    (hfeed : OperandFeed phyf execute wb regs regs' rev) (henable : rev.enable = true) :
    OperandsFollow regs' (readregSendPack phyf execute wb rev) :=
  ⟨fun hvalid => read_source hfeed.rs1 henable hvalid,
    fun hvalid => read_source hfeed.rs2 henable hvalid⟩

end Operation

/-! ## What rename sends -/

section Rename

variable {r : RenameInput} {m : RegMap}

/-- The newest earlier slot that renames a register decides what it is mapped to. -/
theorem phyFeedback_bundleMap (h : BundleOk r m) {n : Nat} (hn : n ≤ renameWidth)
    (hgrant : ∀ j, j < n → r.robRenameNewIdValid j = true) {a : Nat} {cmp : Nat → Bool}
    (hcmp : ∀ j, cmp j = true ↔ j < n ∧ r.newPhyIdNeed j = true ∧ (r.revPack j).rd = a) :
    r.phyFeedback cmp a = bundleMap r n a := by
  induction n generalizing cmp with
  | zero =>
      have hnone : anyBit renameWidth cmp = false := anyBit_eq_false_iff.2 fun j _ =>
        Bool.eq_false_iff.2 fun hj => absurd ((hcmp j).1 hj).1 (Nat.not_lt_zero j)
      rw [RenameInput.phyFeedback, hnone, if_neg Bool.false_ne_true]
      rfl
  | succ n ih =>
      have hbinds : r.renameRatPhyIdValid n = r.newPhyIdNeed n := by
        rw [Bool.eq_iff_iff, binds_iff h (by omega)]
        exact and_iff_left (hgrant n (Nat.lt_succ_self n))
      rw [bundleMap, hbinds]
      by_cases hlast : r.newPhyIdNeed n = true ∧ (r.revPack n).rd = a
      · have hbit : cmp n = true := (hcmp n).2 ⟨Nat.lt_succ_self n, hlast⟩
        have hindex : priorityFinderLast renameWidth cmp = n :=
          lastIndexTemp_eq (by omega) hbit fun j hj _ => Bool.eq_false_iff.2 fun hcmpj => by
            have := ((hcmp j).1 hcmpj).1
            omega
        rw [RenameInput.phyFeedback, if_pos (anyBit_iff.2 ⟨n, by omega, hbit⟩), hindex,
          if_pos hlast.1, ← hlast.2, Function.update_self]
      · have hrest : r.phyFeedback cmp a = bundleMap r n a := by
          refine ih (by omega) (fun j hj => hgrant j (by omega)) fun j => (hcmp j).trans ⟨?_, ?_⟩
          · rintro ⟨hj, hmatch⟩
            refine ⟨Nat.lt_of_le_of_ne (Nat.le_of_lt_succ hj) ?_, hmatch⟩
            rintro rfl
            exact hlast hmatch
          · rintro ⟨hj, hmatch⟩
            exact ⟨by omega, hmatch⟩
        rw [hrest]
        split
        · rename_i hneed
          rw [Function.update_of_ne fun heq => hlast ⟨hneed, heq.symm⟩]
        · rfl

end Rename

/-! ## Operations and their entries -/

/-- The operation is that of an entry no unit has answered for. -/
def InPlace (s : DataflowState) (op : RenameReadregOpInfo) : Prop :=
  ∃ k, ∃ hk : k < s.back.rob.entries.length, op.robId = s.back.rob.idAt k ∧ Unanswered s k hk ∧
    SentFor s.back.rob.entries[k] op

namespace FlowCycle

variable {m : RegMap} {s : DataflowState} {regs : Nat → Option Nat} {x : DataflowInput}
  (h : FlowCycle m s regs x)
include h

theorem wb_enable_iff {j : Nat} : (wbFeedback s x j).enable = true ↔ Writes (s.executeWb j) := by
  have hport : wbCommitPortFlush (dataflowFeedback s x) = false := h.flush
  simp [wbFeedback, wbPhyfWe, hport, Writes, and_assoc]

/-- What file and channels show of a register in use. -/
theorem feed {p : Nat} (hp : p ∈ allocated archRegs m (bindings s.back.rob.entries)) :
    ResultFeed s.back.phyf (executeFeedback s x) (wbFeedback s x) p (regs p)
      (Scoreboard.next regs (deliveries s x) (allocations s x) p) := by
  have hheld := h.ok.used p hp
  rw [h.regs_next_used hp]
  refine ⟨fun j hj hd => ?_, fun j hj hd => ?_, fun hnone => ?_, fun hnone => ?_⟩
  · have hw := h.enable_iff.1 hd.1
    obtain ⟨hphy, hvalue⟩ := channel_eq s hw
    rw [hd.2, hphy, hvalue]
    refine ⟨h.delivered_none hj hw, h.learned_delivered hj hw, fun i hi hdi => ?_⟩
    have hwi := h.enable_iff.1 hdi.1
    exact writes_once h.bound h.nodup h.answers hi hj hwi hw
      ((channel_eq s hwi).1.symm.trans hdi.2.symm)
  · have hw := h.wb_enable_iff.1 hd.1
    have hpending := hheld.pending j hj hw hd.2.symm
    refine ⟨hpending.1, hpending.2, fun i hi hdi => ?_⟩
    exact writes_once h.bound h.nodup h.port hi hj (h.wb_enable_iff.1 hdi.1) hw
      (hdi.2.symm.trans hd.2)
  · refine h.learned_other fun j hj hw heq => hnone j hj ⟨h.enable_iff.2 hw, ?_⟩
    exact ((channel_eq s hw).1.trans heq).symm
  · exact hheld.file fun j hj hw heq => hnone j hj ⟨h.wb_enable_iff.2 hw, heq.symm⟩

/-- The sources of an entry are in use. -/
theorem source_used {k : Nat} (hk : k < s.back.rob.entries.length) {a : Nat} (ha : a ∈ archRegs) :
    s.back.rob.entries[k].tag.mapBefore a ∈
      allocated archRegs m (bindings s.back.rob.entries) := by
  rw [(h.cycle.settled.chain.get hk).mapBefore, bindings_split s.back.rob.entries k,
    (allocated_retire archRegs_nodup _ (h.cycle.settled.chain.split _).1.arch_mem).mem_iff,
    List.mem_append]
  exact Or.inr (List.mem_append_left _ (List.mem_map_of_mem ha))

theorem sent_feed {k : Nat} (hk : k < s.back.rob.entries.length) {op : RenameReadregOpInfo}
    (hsent : SentFor s.back.rob.entries[k] op) :
    OperandFeed s.back.phyf (executeFeedback s x) (wbFeedback s x) regs
      (Scoreboard.next regs (deliveries s x) (allocations s x)) op := by
  refine ⟨fun hneed => ?_, fun hneed => ?_⟩
  · obtain ⟨harch, hphy⟩ := hsent.rs1 hneed
    rw [hphy]
    exact h.feed (h.source_used hk harch)
  · obtain ⟨harch, hphy⟩ := hsent.rs2 hneed
    rw [hphy]
    exact h.feed (h.source_used hk harch)

theorem operand_feed {op : RenameReadregOpInfo} (hop : InPlace s op) :
    OperandFeed s.back.phyf (executeFeedback s x) (wbFeedback s x) regs
      (Scoreboard.next regs (deliveries s x) (allocations s x)) op := by
  obtain ⟨_, hk, _, _, hsent⟩ := hop
  exact h.sent_feed hk hsent

/-- An operation that its unit has not answered for is that of the same entry. -/
theorem inPlace_next {op : RenameReadregOpInfo} (hop : InPlace s op)
    (hsent : ∀ j, j < wbWidth → (unitAnswers x j).enable = true →
      op.robId ≠ (unitAnswers x j).robId) : InPlace (dataflowNext s x) op := by
  obtain ⟨k, hk, hid, hun, hfor⟩ := hop
  have hpop : leavingNum s x ≤ k := by
    by_contra hlt
    obtain ⟨_, _, hdone, _⟩ := popped_spec (s := s.back.commit)
      (c := backendCommitInput (dataflowCheckpoint s x) s.back (dataflowBack s x))
      (backend_view _ _ h.cycle.settled.rob) (by omega : k < leavingNum s x)
    exact Bool.false_ne_true (hun.finish.symm.trans hdone)
  have hsame : backendUpdate (dataflowCheckpoint s x) s.back (dataflowBack s x) k
      s.back.rob.entries[k] = s.back.rob.entries[k] := by
    rcases update_cases (dataflowCheckpoint s x) (dataflowBack s x) h.cycle.settled h.cycle.port hk
      with ⟨hsame, _⟩ | ⟨j, hj, hwe, hidj, _⟩
    · exact hsame
    · exact absurd hidj (hun.wbPort j hj (Bool.and_eq_true_iff.1 hwe).2)
  obtain ⟨hk', hget⟩ := h.entry_kept hk hpop
  have hidNext := h.idAt_kept hpop
  rw [hsame] at hget
  refine ⟨k - leavingNum s x, hk', hid.trans hidNext.symm, ⟨?_, fun j hj henable => ?_,
    fun j hj henable => ?_⟩, hget ▸ hfor⟩
  · rw [hget]
    exact hun.finish
  · rw [h.executeWb_next] at henable ⊢
    rw [hidNext, ← hid]
    exact (hsent j hj henable).symm
  · rw [h.wbPort_next] at henable ⊢
    rw [hidNext]
    exact hun.executeWb j hj henable

/-! ### New operations -/

theorem newId_eq (i : Nat) :
    s.back.rob.newId i = s.back.rob.idAt (s.back.rob.entries.length + i) :=
  congrFun h.cycle.settled.rob.newId_eq i

/-- The id granted to a slot is that of its entry. -/
theorem idAt_pushed (i : Nat) : (dataflowNext s x).back.rob.idAt
    (s.back.rob.entries.length - leavingNum s x + i) = s.back.rob.newId i := by
  have hpops : leavingNum s x ≤ s.back.rob.entries.length :=
    popCount_le (backend_view _ _ h.cycle.settled.rob)
  have hnext := @idAt_next (dataflowCheckpoint s x) s.back (dataflowBack s x) _
    (s.back.rob.entries.length - leavingNum s x + i) h.cycle.noFlush rfl
  rw [← Nat.add_assoc, Nat.add_sub_cancel' hpops] at hnext
  exact hnext.trans (h.newId_eq i).symm

theorem granted_eq {i : Nat} (hi : i < renameWidth) :
    (dataflowRename s x).robRenameNewIdValid i =
      decide (s.back.rob.entries.length + i < robSize) :=
  h.cycle.settled.rob.newIdValid_eq h.cycle.exact hi

variable (hmap : (dataflowRename s x).renameRatMap = true)
include hmap

theorem bundleOk_sent : BundleOk (dataflowRename s x) (bindAll m (bindings s.back.rob.entries)) :=
  bundleOk h.cycle.settled h.cycle.exact h.cycle.ok.table h.cycle.bundle h.cycle.accept hmap

/-- Rename sends the front of the bundle, as far as the reorder buffer has room. -/
theorem sendEnable_eq {i : Nat} (hi : i < renameWidth) :
    (dataflowRename s x).sendEnable i = true ↔
      i < x.outside.backend.bundle.length ∧ s.back.rob.entries.length + i < robSize := by
  rw [sendEnable_iff (h.bundleOk_sent hmap) hi, h.granted_eq hi, decide_eq_true_iff]
  refine and_congr_left fun _ => ?_
  show (decide (i < x.outside.backend.bundle.length) &&
    (x.outside.backend.bundle.getD i emptySlot).enable) = true ↔ _
  rw [Bool.and_eq_true, decide_eq_true_iff]
  refine and_iff_left_of_imp fun hlt => ?_
  have hget : x.outside.backend.bundle.getD i emptySlot = x.outside.backend.bundle[i] := by
    simp [hlt]
  rw [hget]
  exact h.allowed.bundle.enabled _ (List.getElem_mem hlt)

omit h hmap in
theorem dataValid_sendEnable (s : DataflowState) (x : DataflowInput) (i : Nat) :
    (dataflowRename s x).renameRobDataValid i =
    (dataflowRename s x).sendEnable i := by
  rw [RenameInput.renameRobDataValid, Bool.eq_iff_iff, Bool.and_eq_true]
  exact and_iff_right_of_imp fun hsend => (Bool.and_eq_true_iff.1 hsend).2

/-- The entry pushed for a slot that is sent. -/
theorem pushed_get {i : Nat} (hi : i < renameWidth)
    (hsend : (dataflowRename s x).sendEnable i = true) :
    (pushedEntries (dataflowRename s x))[i]? = some (pushedEntry (dataflowRename s x) i) := by
  have hbefore : ∀ j, j < i → (dataflowRename s x).renameRobDataValid j = true := fun j hj => by
    have hlen := (h.sendEnable_eq hmap hi).1 hsend
    rw [dataValid_sendEnable, h.sendEnable_eq hmap (by omega)]
    omega
  have hvalid : (dataflowRename s x).renameRobDataValid i = true :=
    (dataValid_sendEnable s x i).trans hsend
  have hat := Compaction.kept_getElem?_rank hi hvalid
  rw [Compaction.rank_all hbefore] at hat
  have hpush : (dataflowRename s x).renameRobPush = true := hmap
  rw [pushedEntries, hpush, if_pos rfl, List.getElem?_map]
  exact congrArg (Option.map _) hat

/-- The forwarding network inside the bundle and the alias table together read the map
before the slot. -/
theorem source_sent {i : Nat} (hi : i < renameWidth)
    (hsend : (dataflowRename s x).sendEnable i = true) {a : Nat} (ha : a ∈ archRegs)
    {cmp : Nat → Bool} (hcmp : ∀ j, cmp j = true ↔ j < i ∧
      ((dataflowRename s x).revEnable j = true ∧ ((dataflowRename s x).revPack j).valid = true ∧
        ((dataflowRename s x).revPack j).rdEnable = true) ∧
      ((dataflowRename s x).revPack j).rd = a) :
    (dataflowRename s x).phyFeedback cmp a = bundleMap (dataflowRename s x) i a := by
  have hlen := (h.sendEnable_eq hmap hi).1 hsend
  have hpos := (mem_archRegs.1 ha).1
  refine phyFeedback_bundleMap (h.bundleOk_sent hmap) (Nat.le_of_lt hi)
    (fun j hj => (h.granted_eq (by omega)).trans (decide_eq_true (by omega)))
    fun j => (hcmp j).trans ?_
  refine and_congr_right fun _ => and_congr_left fun hrd => ?_
  rw [RenameInput.newPhyIdNeed, Bool.and_eq_true, Bool.and_eq_true, and_assoc]
  refine and_congr_right fun hrev => and_congr_right fun _ => ?_
  have hmem : (dataflowRename s x).revPack j ∈ x.outside.backend.bundle :=
    @revPack_mem (dataflowCheckpoint s x) s.back (dataflowBack s x) _ hrev
  rw [h.allowed.bundle.decoded _ hmem] at hrd ⊢
  show _ ↔ ((decode _).rdEnable && decide ((decode _).rd ≠ 0)) = true
  rw [hrd, decide_eq_true (by omega : a ≠ 0), Bool.and_true]

theorem sentFor {i : Nat} (hi : i < renameWidth)
    (hsend : (dataflowRename s x).sendEnable i = true) :
    SentFor (pushedEntry (dataflowRename s x) i) ((dataflowRename s x).sendPack i) := by
  have hrev := ((sendEnable_iff (h.bundleOk_sent hmap) hi).1 hsend).1
  have hmem : (dataflowRename s x).revPack i ∈ x.outside.backend.bundle :=
    @revPack_mem (dataflowCheckpoint s x) s.back (dataflowBack s x) _ hrev
  have hsources := decode_needMap_sources ((dataflowRename s x).revPack i).toFetchDecodePack
  rw [← h.allowed.bundle.decoded _ hmem] at hsources
  refine ⟨?_, hsend, rfl, fun hneed => ?_, fun hneed => ?_⟩
  · have henable := h.allowed.bundle.enabled _ hmem
    show { (dataflowRename s x).revPack i with
      toFetchDecodePack := { ((dataflowRename s x).revPack i).toFetchDecodePack with
        enable := (dataflowRename s x).sendEnable i } } = (dataflowRename s x).revPack i
    rw [hsend, ← henable]
  · have harch := mem_archRegs.2 (hsources.1 hneed)
    refine ⟨harch, h.source_sent hmap hi hsend harch fun j => ?_⟩
    simp only [RenameInput.rs1PhyFeedbackCmp, Bool.and_eq_true, decide_eq_true_eq, and_assoc]
  · have harch := mem_archRegs.2 (hsources.2 hneed)
    refine ⟨harch, h.source_sent hmap hi hsend harch fun j => ?_⟩
    simp only [RenameInput.rs2PhyFeedbackCmp, Bool.and_eq_true, decide_eq_true_eq, and_assoc]

/-- A new operation is that of its new entry. -/
theorem inPlace_sent {i : Nat} (hi : i < renameWidth)
    (hsend : (dataflowRename s x).sendEnable i = true) :
    InPlace (dataflowNext s x) ((dataflowRename s x).sendPack i) := by
  have hroom := ((h.sendEnable_eq hmap hi).1 hsend).2
  have hlength : ((written (dataflowCheckpoint s x) s.back (dataflowBack s x)).drop
      (leavingNum s x)).length = s.back.rob.entries.length - leavingNum s x := by
    rw [List.length_drop, List.length_mapIdx]
  have hentries : (dataflowNext s x).back.rob.entries =
      (written (dataflowCheckpoint s x) s.back (dataflowBack s x)).drop (leavingNum s x) ++
        pushedEntries (dataflowRename s x) := entries_next h.cycle.noFlush
  have hat : (dataflowNext s x).back.rob.entries[s.back.rob.entries.length - leavingNum s x + i]? =
      some (pushedEntry (dataflowRename s x) i) := by
    rw [hentries, List.getElem?_append_right (by omega), hlength, Nat.add_sub_cancel_left,
      h.pushed_get hmap hi hsend]
  obtain ⟨hk, hget⟩ := List.getElem?_eq_some_iff.1 hat
  have hid := h.idAt_pushed i
  -- The units answer for older entries.
  have hfresh : ∀ packs : Nat → ExecuteWbPack, Completes s.back.rob packs → ∀ j, j < wbWidth →
      (packs j).enable = true → (packs j).robId ≠ s.back.rob.newId i := by
    intro packs hpacks j hj henable heq
    obtain ⟨k, hk, hidk, _⟩ := hpacks.inFlight j hj henable
    have hsize := h.cycle.settled.wf.2
    have := idAt_inj h.cycle.settled.wf (by omega) hroom
      (hidk.symm.trans (heq.trans (h.newId_eq i)))
    omega
  refine ⟨_, hk, hid.symm, ⟨?_, fun j hj henable => ?_, fun j hj henable => ?_⟩, ?_⟩
  · rw [hget]
    rfl
  · rw [h.executeWb_next] at henable ⊢
    rw [hid]
    exact hfresh _ h.answers j hj henable
  · rw [h.wbPort_next] at henable ⊢
    rw [hid]
    exact hfresh _ h.port j hj henable
  · rw [hget]
    exact h.sentFor hmap hi hsend

end FlowCycle

/-! ## The stages in front of the queue -/

/-- The cycle as the input of issue sees it. -/
def inputCycle (s : DataflowState) (x : DataflowInput) (hwf : IqWellFormed s.queue) :
    IssueInputCycle := ⟨dataflowRename s x, s.back.phyf, ⟨s.queue, hwf⟩, queueSides s x⟩

section Stages

variable {s : DataflowState} (x : DataflowInput) (hwf : IqWellFormed s.queue)

theorem front_next : (dataflowNext s x).front = issueInputNext s.front (inputCycle s x hwf) := rfl

theorem stall_eq : dataflowStall s x = issueStall s.front (inputCycle s x hwf) := rfl

end Stages

/-- What is known of the operations between rename and the units. -/
structure OperandsInv (m : RegMap) (s : DataflowState) (regs : Nat → Option Nat) : Prop where
  results : ResultsInv m s regs
  wf : IqWellFormed s.queue
  leading : LeadingPorts s.front
  renamed : ∀ op ∈ renamedOps s, InPlace s op
  input : ∀ op ∈ bundleFrom s.front.readregPort s.front.lastIndex,
    InPlace s op.toRenameReadregOpInfo ∧ OperandsKnown regs op
  queue : ∀ op ∈ issueList s.queue,
    InPlace s op.toRenameReadregOpInfo ∧ OperandsFollow regs op

section Cycle

variable {m : RegMap} {s : DataflowState} {regs : Nat → Option Nat} {x : DataflowInput}

theorem held_renamed {op : RenameReadregOpInfo} (hop : op ∈ renamedOps s) : op ∈ heldOps s :=
  List.mem_append_left _ hop

theorem held_input {op : ReadregIssueOpInfo}
    (hop : op ∈ bundleFrom s.front.readregPort s.front.lastIndex) :
    op.toRenameReadregOpInfo ∈ heldOps s :=
  List.mem_append_right _ (List.mem_map_of_mem (List.mem_append_left _ hop))

theorem held_queue {op : ReadregIssueOpInfo} (hop : op ∈ issueList s.queue) :
    op.toRenameReadregOpInfo ∈ heldOps s :=
  List.mem_append_right _ (List.mem_map_of_mem (List.mem_append_right _ hop))

/-- The operations of a cycle without a flush. -/
structure OperandCycle (m : RegMap) (s : DataflowState) (regs : Nat → Option Nat)
    (x : DataflowInput) : Prop where
  flow : FlowCycle m s regs x
  inv : OperandsInv m s regs

namespace OperandCycle

variable (h : OperandCycle m s regs x)
include h

theorem flush_eq : (inputCycle s x h.inv.wf).flush = false := h.flow.flush

theorem kept_inPlace {op : RenameReadregOpInfo} (hheld : op ∈ heldOps s) (hop : InPlace s op) :
    InPlace (dataflowNext s x) op :=
  h.flow.inPlace_next hop fun j hj henable => h.flow.allowed.sent h.flow.flush op hheld j hj henable

theorem sends_bundle (hstall : issueStall s.front (inputCycle s x h.inv.wf) = false) :
    (dataflowRename s x).renameRatMap = true := by
  have hflush : (dataflowRename s x).readregPortFlush = false := h.flow.flush
  have hwe : (dataflowRename s x).readregPortWe = true := by
    show (!dataflowStall s x) = true
    rw [stall_eq x h.inv.wf, hstall]
    rfl
  rw [RenameInput.renameRatMap, hflush, hwe]
  rfl

theorem bundle_prefix : BundlePrefix s.front (inputCycle s x h.inv.wf) := by
  intro _ hstall i hi hnext
  have hmap := h.sends_bundle hstall
  have hlen : i + 1 < renameWidth := by
    have : readregWidth = renameWidth := rfl
    omega
  have hsend : (dataflowRename s x).sendEnable (i + 1) = true := hnext
  have hboth := (h.flow.sendEnable_eq hmap hlen).1 hsend
  show (dataflowRename s x).sendEnable i = true
  rw [h.flow.sendEnable_eq hmap (by omega)]
  omega

theorem renamed_next {op : RenameReadregOpInfo} (hop : op ∈ renamedOps (dataflowNext s x)) :
    InPlace (dataflowNext s x) op := by
  obtain ⟨i, hi, rfl⟩ := List.mem_map.1 hop
  rw [List.mem_filter, List.mem_range] at hi
  obtain ⟨hi, henable⟩ := hi
  rw [front_next x h.inv.wf, renamePort_next, h.flush_eq, if_neg Bool.false_ne_true] at henable ⊢
  cases hstall : issueStall s.front (inputCycle s x h.inv.wf) with
  | true =>
      rw [hstall, if_pos rfl] at henable
      have hmem : s.front.renamePort i ∈ renamedOps s :=
        List.mem_map_of_mem (List.mem_filter.2 ⟨List.mem_range.2 hi, henable⟩)
      exact h.kept_inPlace (held_renamed hmem) (h.inv.renamed _ hmem)
  | false =>
      rw [hstall, if_neg Bool.false_ne_true] at henable
      exact h.flow.inPlace_sent (h.sends_bundle hstall) hi henable

/-- The operations in the register in front of the queue. -/
theorem input_next {op : ReadregIssueOpInfo}
    (hop : op ∈ bundleFrom (dataflowNext s x).front.readregPort (dataflowNext s x).front.lastIndex) :
    InPlace (dataflowNext s x) op.toRenameReadregOpInfo ∧
      OperandsKnown (Scoreboard.next regs (deliveries s x) (allocations s x)) op := by
  rw [front_next x h.inv.wf, readregPort_next, lastIndex_next h.inv.leading, h.flush_eq,
    if_neg Bool.false_ne_true] at hop
  cases hstall : issueStall s.front (inputCycle s x h.inv.wf) with
  | true =>
      rw [hstall, if_pos rfl, if_pos rfl] at hop
      have hmem : op ∈ bundleFrom s.front.readregPort s.front.lastIndex := by
        have hsplit := pending_split h.inv.leading h.flush_eq
        rw [show issueInputStage.pending s.front =
          bundleFrom s.front.readregPort s.front.lastIndex from rfl] at hsplit
        rw [hsplit]
        exact List.mem_append_right _ hop
      obtain ⟨hplace, hknown⟩ := h.inv.input op hmem
      exact ⟨h.kept_inPlace (held_input hmem) hplace,
        waiting_operands (h.flow.operand_feed hplace) hknown⟩
  | false =>
      rw [hstall, if_neg Bool.false_ne_true, if_neg Bool.false_ne_true] at hop
      obtain ⟨i, hi, rfl⟩ := List.mem_map.1 hop
      rw [List.mem_filter, List.drop_zero, List.mem_range] at hi
      obtain ⟨hi, henable⟩ := hi
      have henable : (s.front.renamePort i).enable = true := henable
      have hmem : s.front.renamePort i ∈ renamedOps s :=
        List.mem_map_of_mem (List.mem_filter.2 ⟨List.mem_range.2 hi, henable⟩)
      have hplace := h.inv.renamed _ hmem
      exact ⟨h.kept_inPlace (held_renamed hmem) hplace,
        (read_operands (h.flow.operand_feed hplace) henable).known⟩

/-- The operations in the queue. -/
theorem queue_next {op : ReadregIssueOpInfo} (hop : op ∈ issueList (dataflowNext s x).queue) :
    InPlace (dataflowNext s x) op.toRenameReadregOpInfo ∧
      OperandsFollow (Scoreboard.next regs (deliveries s x) (allocations s x)) op := by
  have hlist : issueList (dataflowNext s x).queue =
      waitingItems s.queue (dataflowQueueInput s x) ++
        acceptedItems s.queue (dataflowQueueInput s x) := issueList_next h.inv.wf h.flow.flush
  rw [hlist, List.mem_append] at hop
  rcases hop with hold | hnew
  · obtain ⟨i, hi, rfl⟩ := List.mem_map.1 hold
    have hlt : i < s.queue.wptr := List.mem_range.1 (List.mem_filter.1 hi).1
    have hmem : s.queue.buffer i ∈ issueList s.queue :=
      List.mem_map_of_mem (List.mem_range.2 hlt)
    obtain ⟨hplace, hfollow⟩ := h.inv.queue _ hmem
    have hkept := h.kept_inPlace (held_queue hmem) hplace
    exact ⟨hkept, itemFeedback_follows (h.flow.operand_feed hplace) hfollow⟩
  · have haccepted : acceptedItems s.queue (dataflowQueueInput s x) =
        (List.range' s.front.lastIndex (pushNum s.front (inputCycle s x h.inv.wf))).map fun k =>
          tItem s.back.phyf (queueSides s x) (s.front.readregPort k) :=
      accepted_items (x := inputCycle s x h.inv.wf) h.inv.leading
    rw [haccepted] at hnew
    obtain ⟨k, hk, rfl⟩ := List.mem_map.1 hnew
    have hmem : s.front.readregPort k ∈ bundleFrom s.front.readregPort s.front.lastIndex := by
      rw [bundleFrom_leading h.inv.leading.readreg]
      refine List.mem_map_of_mem ?_
      rw [List.mem_range'_1] at hk ⊢
      have hfits : pushNum s.front (inputCycle s x h.inv.wf) ≤
          bundleSize s.front.readregPort - s.front.lastIndex := Nat.min_le_left _ _
      omega
    obtain ⟨hplace, hknown⟩ := h.inv.input _ hmem
    have hkept := h.kept_inPlace (held_input hmem) hplace
    exact ⟨hkept, tItem_operands (h.flow.operand_feed hplace) hknown⟩

end OperandCycle

/-- A cycle without a flush keeps the buffer. -/
theorem flowCycle_of_quiet (h : ResultsInv m s regs) (hallowed : DataflowAllowed s x)
    (hflush : (dataflowFeedback s x).flushing = false) : FlowCycle m s regs x := by
  have hnot : ∀ {b : Bool}, b = true → b = (dataflowFeedback s x).flushing → False :=
    fun htrue heq => Bool.false_ne_true (hflush.symm.trans (heq.symm.trans htrue))
  by_cases hstate : s.back.commit.curState = .normal
  · rcases normal_cycle (backend_view (dataflowCheckpoint s x) (dataflowBack s x) h.back.rob)
      (branchesClean_of_items h.back.items) hstate with hkeep | ⟨i, hmiss⟩ | htrap
    · exact FlowCycle.of_keep h hallowed hstate hkeep
    · exact absurd (hnot hmiss.flushing rfl) id
    · exact absurd (hnot htrap.flushing rfl) id
  · obtain ⟨k, hw, _⟩ := h.walking hstate
    obtain ⟨_, _, _, hwalk⟩ := walk_quiet
      (c := backendCommitInput (dataflowCheckpoint s x) s.back (dataflowBack s x)) hw.walk
    exact absurd (hnot hwalk rfl) id

/-- A flush empties the stages. -/
theorem held_flush (hwf : IqWellFormed s.queue) (hflush : (dataflowFeedback s x).flushing = true) :
    heldOps (dataflowNext s x) = [] := by
  have hinput : (inputCycle s x hwf).flush = true := hflush
  have hrenamed : renamedOps (dataflowNext s x) = [] := by
    rw [renamedOps, front_next x hwf, renamePort_next, hinput]
    rfl
  have hwaiting : bundleFrom (dataflowNext s x).front.readregPort
      (dataflowNext s x).front.lastIndex = [] := by
    rw [front_next x hwf, readregPort_next, hinput]
    simp [bundleFrom, ReadregIssueOpInfo.zero, ExecuteWbPack.zero]
  have hqueue : issueList (dataflowNext s x).queue = [] := issueList_flush hflush
  rw [heldOps, waitingOps, hrenamed, hwaiting, hqueue]
  rfl

theorem operandsInv_flush (h : OperandsInv m s regs)
    (hflush : (dataflowFeedback s x).flushing = true) {m' : RegMap} {regs' : Nat → Option Nat}
    (hresults : ResultsInv m' (dataflowNext s x) regs') :
    OperandsInv m' (dataflowNext s x) regs' := by
  have hinput : (inputCycle s x h.wf).flush = true := hflush
  have hnone : ∀ op, op ∉ heldOps (dataflowNext s x) := fun op => by
    rw [held_flush h.wf hflush]
    exact List.not_mem_nil
  refine ⟨hresults, iqWellFormed_next h.wf, ?_, fun op hop => absurd (held_renamed hop) (hnone op),
    fun _ hop => absurd (held_input hop) (hnone _), fun _ hop => absurd (held_queue hop) (hnone _)⟩
  rw [front_next x h.wf]
  exact leadingPorts_next h.leading fun hno => absurd (hno.symm.trans hinput) Bool.false_ne_true

theorem operandsInv_next (h : OperandsInv m s regs) (hallowed : DataflowAllowed s x) :
    OperandsInv (retiredMap m s.back (leavingNum s x)) (dataflowNext s x)
      (Scoreboard.next regs (deliveries s x) (allocations s x)) := by
  have hresults := resultsInv_next h.results hallowed
  cases hflush : (dataflowFeedback s x).flushing with
  | true => exact operandsInv_flush h hflush hresults
  | false =>
      have hc : OperandCycle m s regs x := ⟨flowCycle_of_quiet h.results hallowed hflush, h⟩
      refine ⟨hresults, iqWellFormed_next h.wf, ?_, fun op hop => hc.renamed_next hop,
        fun op hop => hc.input_next hop, fun op hop => hc.queue_next hop⟩
      rw [front_next x h.wf]
      exact leadingPorts_next h.leading hc.bundle_prefix

theorem operandsInv_reset (robBuffer : Nat → RobItem) (checkpoints : Nat → Checkpoint)
    (buffer : Nat → IssueQueueItem) :
    OperandsInv (fun a => if a ∈ archRegs then a else 0)
      (dataflowReset robBuffer checkpoints buffer)
      (trackedReset robBuffer checkpoints buffer).regs where
  results := resultsInv_reset robBuffer checkpoints buffer
  wf := Nat.zero_le _
  leading := ⟨fun _ _ h => h, fun _ _ h => h⟩
  renamed := fun _ hop => absurd hop List.not_mem_nil
  input := fun _ hop => absurd hop List.not_mem_nil
  queue := fun _ hop => absurd hop List.not_mem_nil

end Cycle

/-! ## Every run -/

/-- Every waiting operation is that of an unfinished entry.  In the queue its sources are
loaded exactly when the scoreboard has a value for them, with that value; in front of the
queue they are right as far as they are loaded. -/
structure OperandsTracked (t : TrackedState) : Prop where
  input : ∀ op ∈ bundleFrom t.machine.front.readregPort t.machine.front.lastIndex,
    InPlace t.machine op.toRenameReadregOpInfo ∧ OperandsKnown t.regs op
  queue : ∀ op ∈ issueList t.machine.queue,
    InPlace t.machine op.toRenameReadregOpInfo ∧ OperandsFollow t.regs op

/-- An operation sent to a unit has both sources. -/
def IssuedComplete (t : TrackedState) (x : DataflowInput) : Prop :=
  (dataflowFeedback t.machine x).flushing = false → ∀ i,
    iqIssueDataValid t.machine.queue (dataflowQueueInput t.machine x) i = true →
      (iqIssueData t.machine.queue (dataflowQueueInput t.machine x) i).src1Loaded = true ∧
      (iqIssueData t.machine.queue (dataflowQueueInput t.machine x) i).src2Loaded = true ∧
      OperandsFollow (trackedNext t x).regs
        (iqIssueData t.machine.queue (dataflowQueueInput t.machine x) i)

/-- No two channels carry one register, and what rename takes has no value. -/
structure ResultsDistinct (s : DataflowState) (x : DataflowInput) : Prop where
  execute : ∀ i, i < executeUnitNum → ∀ j, j < executeUnitNum →
    (executeFeedback s x i).enable = true → (executeFeedback s x j).enable = true →
    (executeFeedback s x i).phyId = (executeFeedback s x j).phyId → i = j
  wb : ∀ i, i < wbWidth → ∀ j, j < wbWidth →
    (wbFeedback s x i).enable = true → (wbFeedback s x j).enable = true →
    (wbFeedback s x i).phyId = (wbFeedback s x j).phyId → i = j
  apart : ∀ i, i < executeUnitNum → ∀ j, j < wbWidth →
    (executeFeedback s x i).enable = true → (wbFeedback s x j).enable = true →
    (executeFeedback s x i).phyId ≠ (wbFeedback s x j).phyId
  fresh : ∀ p ∈ allocations s x, s.back.phyf.dataValid p = false

section Results

variable {m : RegMap} {t : TrackedState} {x : DataflowInput}

theorem issuedComplete (h : OperandsInv m t.machine t.regs)
    (hallowed : DataflowAllowed t.machine x) : IssuedComplete t x := by
  intro hflush i hvalid
  have hc : OperandCycle m t.machine t.regs x := ⟨flowCycle_of_quiet h.results hallowed hflush, h⟩
  rw [iqIssueDataValid_eq h.wf, decide_eq_true_iff] at hvalid
  have hissued : iqIssueData t.machine.queue (dataflowQueueInput t.machine x) i ∈
      issuedItems t.machine.queue (dataflowQueueInput t.machine x) := by
    rw [← ports_issued h.wf]
    exact List.mem_map_of_mem (List.mem_range.2 hvalid)
  obtain ⟨j, hj, heq⟩ := List.mem_map.1 hissued
  have hinvalid := (List.mem_filter.1 hj).2
  have hready := invalid_ready hinvalid
  simp only [itemReady, Bool.and_eq_true] at hready
  have hmem : t.machine.queue.buffer j ∈ issueList t.machine.queue :=
    List.mem_map_of_mem (List.mem_range.2 (invalid_lt hinvalid))
  obtain ⟨hplace, hfollow⟩ := h.queue _ hmem
  rw [← heq]
  exact ⟨hready.1.1.1.2.1, hready.1.1.1.2.2,
    itemFeedback_follows (hc.flow.operand_feed hplace) hfollow⟩

theorem resultsDistinct (h : OperandsInv m t.machine t.regs)
    (hallowed : DataflowAllowed t.machine x) : ResultsDistinct t.machine x := by
  cases hflush : (dataflowFeedback t.machine x).flushing with
  | true =>
      have hexe : ∀ i, (executeFeedback t.machine x i).enable = false := fun i => by
        simp [executeFeedback, unitWbPortWe, hflush]
      have hwb : ∀ i, (wbFeedback t.machine x i).enable = false := fun i => by
        have hport : wbCommitPortFlush (dataflowFeedback t.machine x) = true := hflush
        simp [wbFeedback, wbPhyfWe, hport]
      have hnone : allocations t.machine x = [] := by
        rw [allocations, (rename_quiet hflush).1]
        rfl
      refine ⟨fun i _ j _ hi => ?_, fun i _ j _ hi => ?_, fun i _ j _ hi => ?_, fun p hp => ?_⟩
      · exact absurd ((hexe i).symm.trans hi) Bool.false_ne_true
      · exact absurd ((hwb i).symm.trans hi) Bool.false_ne_true
      · exact absurd ((hexe i).symm.trans hi) Bool.false_ne_true
      · rw [hnone] at hp
        exact absurd hp List.not_mem_nil
  | false =>
      have hc := flowCycle_of_quiet h.results hallowed hflush
      have hfeed : ∀ j, j < wbWidth → (wbFeedback t.machine x j).enable = true →
          ResultFeed t.machine.back.phyf (executeFeedback t.machine x) (wbFeedback t.machine x)
            (wbFeedback t.machine x j).phyId (t.regs (wbFeedback t.machine x j).phyId) _ :=
        fun j hj hwb => hc.feed (writes_used hc.bound hc.port hj (hc.wb_enable_iff.1 hwb))
      have hfeedExe : ∀ j, j < executeUnitNum → (executeFeedback t.machine x j).enable = true →
          ResultFeed t.machine.back.phyf (executeFeedback t.machine x) (wbFeedback t.machine x)
            (executeFeedback t.machine x j).phyId
            (t.regs (executeFeedback t.machine x j).phyId) _ := fun j hj hexe => by
        have hw := hc.enable_iff.1 hexe
        refine hc.feed ?_
        rw [(FlowCycle.channel_eq t.machine hw).1]
        exact writes_used hc.bound hc.answers hj hw
      refine ⟨fun i hi j hj hei hej heq => ?_, fun i hi j hj hei hej heq => ?_,
        fun i hi j hj hei hej heq => ?_, fun p hp => hc.ok.free p (hc.allocation_free hp)⟩
      · exact ((hfeedExe j hj hej).onExecute j hj ⟨hej, rfl⟩).2.2 i hi ⟨hei, heq.symm⟩
      · exact ((hfeed j hj hej).onWb j hj ⟨hej, rfl⟩).2.2 i hi ⟨hei, heq.symm⟩
      · have hnone := ((hfeed j hj hej).onExecute i hi ⟨hei, heq.symm⟩).1
        have hsome := ((hfeed j hj hej).onWb j hj ⟨hej, rfl⟩).1
        exact absurd (hnone.symm.trans hsome) (Option.some_ne_none _).symm

end Results

/-- In every run over decoded instructions in which the units answer for operations that
were sent to them, each once, whatever stalls, completes or is flushed when: the sources of
the waiting operations are tracked in every state, every operation that is sent has both of
them, and no two results of a cycle are for one register. -/
theorem operands_follow_results (robBuffer : Nat → RobItem) (checkpoints : Nat → Checkpoint)
    (buffer : Nat → IssueQueueItem) {inputs : List DataflowInput}
    (h : Along trackedNext (fun t x => DataflowAllowed t.machine x)
      (trackedReset robBuffer checkpoints buffer) inputs) :
    Always trackedNext OperandsTracked (trackedReset robBuffer checkpoints buffer) inputs ∧
      Along trackedNext (fun t x => IssuedComplete t x ∧ ResultsDistinct t.machine x)
        (trackedReset robBuffer checkpoints buffer) inputs := by
  have hstep : ∀ (t : TrackedState) (x : DataflowInput),
      (∃ m, OperandsInv m t.machine t.regs) → DataflowAllowed t.machine x →
      ∃ m, OperandsInv m (trackedNext t x).machine (trackedNext t x).regs :=
    fun t x ⟨_, hinv⟩ hallowed => ⟨_, operandsInv_next hinv hallowed⟩
  have hreset : ∃ m, OperandsInv m (trackedReset robBuffer checkpoints buffer).machine
      (trackedReset robBuffer checkpoints buffer).regs :=
    ⟨_, operandsInv_reset robBuffer checkpoints buffer⟩
  refine ⟨(always_of_step hstep hreset h).mono fun t ⟨_, hinv⟩ => ⟨hinv.input, hinv.queue⟩, ?_⟩
  exact (h.strengthen hstep hreset).mono fun t x ⟨⟨_, hinv⟩, hallowed⟩ =>
    ⟨issuedComplete hinv hallowed, resultsDistinct hinv hallowed⟩

/-! ## Two dependent additions -/

/-- A cycle in which the units hand over nothing. -/
def quietUnits (bundle : List DecodeRenamePack) : DataflowInput :=
  ⟨plainCycle (offer bundle), true, fun _ _ => false, fun _ => false, fun _ => ExecuteWbPack.zero⟩

theorem quietUnits_allowed {s : DataflowState} {bundle : List DecodeRenamePack}
    (hbundle : DecodedBundle bundle) (hvalid : ∀ op ∈ bundle, op.valid = true)
    (hbuffers : BuffersKept s.recovery (dataflowRecovery s (quietUnits bundle))) :
    DataflowAllowed s (quietUnits bundle) where
  buffers := hbuffers
  bundle := hbundle
  accept := fun _ i _ hrev _ _ => hvalid _
    (@revPack_mem (dataflowCheckpoint s (quietUnits bundle)) s.back
      (dataflowBack s (quietUnits bundle)) i hrev)
  answers := fun _ => answers_zero _ _
  notPort := fun _ _ _ _ _ _ henable => absurd henable Bool.false_ne_true
  notPending := fun _ _ _ _ _ _ henable => absurd henable Bool.false_ne_true
  sent := fun _ _ _ _ _ henable => absurd henable Bool.false_ne_true

/-- The result of `addi x5, x0, 2`, renamed to physical register 0 under id 0. -/
def addiResult : ExecuteWbPack :=
  { ExecuteWbPack.zero with
    toDecodeRenamePack := decode (fetched 0x80000000 0x00200293)
    rdValue := 2 }

def addiDelivered : DataflowInput :=
  { quietUnits [] with unitValid := fun j => decide (j = 0), unitPack := fun _ => addiResult }

/-- `addi x5, x0, 2` and `add x6, x5, x5`; the first is issued in the fourth cycle and
answered in the fifth. -/
def dependentRun : List DataflowInput :=
  [quietUnits ([fetched 0x80000000 0x00200293, fetched 0x80000004 0x00528333].map decode),
    quietUnits [], quietUnits [], quietUnits [], addiDelivered]

/-- Reset with nothing in the entries of the buffers. -/
def zeroTracked : TrackedState :=
  trackedReset (fun _ => RobItem.zero) (fun _ => Checkpoint.zero) fun _ => tItemEmpty

/-- The state in which the result of the first addition arrives. -/
def beforeResult : TrackedState := run trackedNext zeroTracked (dependentRun.take 4)

theorem addiDelivered_allowed : DataflowAllowed beforeResult.machine addiDelivered := by
  have hfirst : ∀ {j}, (unitAnswers addiDelivered j).enable = true → j = 0 := by
    intro j henable
    by_contra hne
    have hvalid : addiDelivered.unitValid j = false := decide_eq_false hne
    rw [unitAnswers, hvalid] at henable
    exact Bool.false_ne_true henable
  refine ⟨by decide +kernel, nothing_decoded, by decide +kernel, fun _ => ⟨?_, ?_⟩, fun _ => ?_,
    fun _ => ?_, fun _ => ?_⟩
  · intro j _ henable
    obtain rfl := hfirst henable
    refine ⟨0, by decide +kernel, by decide +kernel, by decide +kernel, ?_⟩
    constructor <;> decide +kernel
  · intro i _ j _ hi hj _
    rw [hfirst hi, hfirst hj]
  · decide +kernel
  · decide +kernel
  · decide +kernel

/-- The second addition waits for the first, takes its result off the channel in the cycle
in which it is delivered, and is issued with it. -/
theorem operands_follow_results_dependentAdds :
    (Always trackedNext OperandsTracked zeroTracked dependentRun ∧
      Along trackedNext (fun t x => IssuedComplete t x ∧ ResultsDistinct t.machine x)
        zeroTracked dependentRun) ∧
    iqIssueDataValid beforeResult.machine.queue
      (dataflowQueueInput beforeResult.machine addiDelivered) 0 = true ∧
    (iqIssueData beforeResult.machine.queue
      (dataflowQueueInput beforeResult.machine addiDelivered) 0).src1Value = 2 := by
  refine ⟨operands_follow_results (fun _ => RobItem.zero) (fun _ => Checkpoint.zero)
    (fun _ => tItemEmpty) ⟨quietUnits_allowed ?_ (by decide) (by decide +kernel),
      quietUnits_allowed nothing_decoded (by simp) (by decide +kernel),
      quietUnits_allowed nothing_decoded (by simp) (by decide +kernel),
      quietUnits_allowed nothing_decoded (by simp) (by decide +kernel),
      addiDelivered_allowed, trivial⟩,
    by decide +kernel, by decide +kernel⟩
  exact decodedBundle_map (by decide) (by decide) (by decide) (by decide)

end DreamCore.Proofs
