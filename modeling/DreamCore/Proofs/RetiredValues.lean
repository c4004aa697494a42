import DreamCore.Proofs.UnitFlow

/-!
# Retired instructions on the architectural registers

The architectural registers are the scoreboard read through the map the retired
instructions have left.  A retiring instruction finds in them the values its sources were
sent with, and leaves in its destination what its unit made of these: however instructions
were reordered, the registers go as if they were executed one after the other.
-/

namespace DreamCore.Proofs

open DreamCore.Clocked DreamCore.Model DreamCore.Renaming DreamCore.Rtl

/-! ## One instruction after the other -/

/-- The value is what a unit makes of the operation. -/
def MadeBy (op : ReadregIssueOpInfo) (v : Nat) : Prop :=
  ∃ (s : UnitFlowState) (x : UnitFlowInput) (i : Nat),
    (s.fifo op.opUnit i).data = issueDataConverted op ∧
      v = (unitSendPack s x op.opUnit i).rdValue

/-- The instruction was sent with the values of its source registers, and the value is what its
unit makes of it. -/
structure Executes (arch : Nat → Option Nat) (op : DecodeRenamePack) (sent : ReadregIssueOpInfo)
    (v : Nat) : Prop where
  decoded : sent.toDecodeRenamePack = op
  src1 : expectedSource arch op.rs1NeedMap op.arg1Src op.imm op.rs1 = some sent.src1Value
  src2 : expectedSource arch op.rs2NeedMap op.arg2Src op.imm op.rs2 = some sent.src2Value
  made : MadeBy sent v

/-! ### The value is determined -/

/-- What the units without a memory or a CSR read of a pack. -/
structure SameOperands (p p' : IssueExecutePack) : Prop where
  subOp : p.subOp = p'.subOp
  pc : p.pc = p'.pc
  imm : p.imm = p'.imm
  src1Value : p.src1Value = p'.src1Value
  src2Value : p.src2Value = p'.src2Value

namespace SameOperands

variable {p p' : IssueExecutePack} (h : SameOperands p p')
include h

theorem alu : aluRdValue p = aluRdValue p' := by
  unfold aluRdValue aluSrc1 aluSrc2 aluShift
  rw [h.subOp, h.pc, h.imm, h.src1Value, h.src2Value]

theorem bru : bruRdValue p = bruRdValue p' := by
  unfold bruRdValue
  rw [h.subOp, h.pc]

theorem mul : mulRdValue p = mulRdValue p' := by
  unfold mulRdValue aluSrc1 aluSrc2
  rw [h.subOp, h.src1Value, h.src2Value]

theorem div : divRdValue p = divRdValue p' := by
  unfold divRdValue divOverflow aluSrc1 aluSrc2
  rw [h.subOp, h.src1Value, h.src2Value]

end SameOperands

/-- Loads and CSR reads apart, what an instruction makes of the registers is one value. -/
theorem Executes.determined {arch : Nat → Option Nat} {op : DecodeRenamePack}
    {sent sent' : ReadregIssueOpInfo} {v v' : Nat} (h : Executes arch op sent v)
    (h' : Executes arch op sent' v') (hlsu : op.opUnit ≠ .lsu) (hcsr : op.opUnit ≠ .csr) :
    v = v' := by
  obtain ⟨s, x, i, hdata, rfl⟩ := h.made
  obtain ⟨s', x', i', hdata', rfl⟩ := h'.made
  have hdecoded : sent.toDecodeRenamePack = sent'.toDecodeRenamePack :=
    h.decoded.trans h'.decoded.symm
  have hsame : SameOperands (s.fifo sent.opUnit i).data (s'.fifo sent'.opUnit i').data := by
    rw [hdata, hdata']
    exact ⟨congrArg (·.subOp) hdecoded, congrArg (·.pc) hdecoded, congrArg (·.imm) hdecoded,
      Option.some.inj (h.src1.symm.trans h'.src1), Option.some.inj (h.src2.symm.trans h'.src2)⟩
  have hunit : sent.opUnit = op.opUnit := congrArg (·.opUnit) h.decoded
  have hunit' : sent'.opUnit = op.opUnit := congrArg (·.opUnit) h'.decoded
  rw [hunit, hunit'] at hsame
  rw [hunit, hunit']
  cases hu : op.opUnit with
  | lsu => exact absurd hu hlsu
  | csr => exact absurd hu hcsr
  | alu =>
      rw [hu] at hsame
      exact hsame.alu
  | bru =>
      rw [hu] at hsame
      exact hsame.bru
  | mul =>
      rw [hu] at hsame
      exact congrArg BitVec.toNat hsame.mul
  | div =>
      rw [hu] at hsame
      exact congrArg BitVec.toNat hsame.div

/-- One instruction on the registers. -/
def PerformsOn (op : DecodeRenamePack) (arch arch' : Nat → Option Nat) : Prop :=
  if op.valid && op.needRename then
    ∃ sent v, Executes arch op sent v ∧ arch' = Function.update arch op.rd (some v)
  else arch' = arch

def PerformAll : List DecodeRenamePack → (Nat → Option Nat) → (Nat → Option Nat) → Prop
  | [], arch, arch' => arch' = arch
  | op :: ops, arch, arch' => ∃ between, PerformsOn op arch between ∧ PerformAll ops between arch'

theorem PerformsOn.determined {op : DecodeRenamePack} {arch after after' : Nat → Option Nat}
    (h : PerformsOn op arch after) (h' : PerformsOn op arch after') (hlsu : op.opUnit ≠ .lsu)
    (hcsr : op.opUnit ≠ .csr) : after = after' := by
  unfold PerformsOn at h h'
  cases hwrites : op.valid && op.needRename with
  | false =>
      rw [hwrites] at h h'
      exact h.trans h'.symm
  | true =>
      rw [hwrites] at h h'
      obtain ⟨_, _, hexecutes, rfl⟩ := h
      obtain ⟨_, _, hexecutes', rfl⟩ := h'
      rw [hexecutes.determined hexecutes' hlsu hcsr]

/-- Without loads and CSR reads there is one way through the instructions. -/
theorem PerformAll.determined {ops : List DecodeRenamePack} {arch after after' : Nat → Option Nat}
    (h : PerformAll ops arch after) (h' : PerformAll ops arch after')
    (hops : ∀ op ∈ ops, op.opUnit ≠ .lsu ∧ op.opUnit ≠ .csr) : after = after' := by
  induction ops generalizing arch with
  | nil => exact Eq.trans h (Eq.symm h')
  | cons op ops ih =>
      obtain ⟨between, hfirst, hrest⟩ := h
      obtain ⟨between', hfirst', hrest'⟩ := h'
      obtain ⟨hlsu, hcsr⟩ := hops op List.mem_cons_self
      obtain rfl := hfirst.determined hfirst' hlsu hcsr
      exact ih hrest hrest' fun op hop => hops op (List.mem_cons_of_mem _ hop)

/-- The registers behind the instructions of the map. -/
def archValues (m : RegMap) (regs : Nat → Option Nat) (a : Nat) : Option Nat :=
  if a ∈ archRegs then regs (m a) else none

/-- What an entry's register holds is what a unit made of its operation. -/
def EntryExecuted (regs : Nat → Option Nat) (e : Entry InFlight) : Prop :=
  e.item.oldPhyRegIdValid = true → ∀ v, regs e.item.newPhyRegId = some v →
    ∃ op : ReadregIssueOpInfo, SentFor e op.toRenameReadregOpInfo ∧ OperandsLoaded regs op ∧
      MadeBy op v

section Retire

variable {m : RegMap} {regs : Nat → Option Nat}

theorem archValues_bind {b : RegBinding} (hb : b.arch ∈ archRegs) :
    archValues (bind m b) regs = Function.update (archValues m regs) b.arch (regs b.phy) := by
  funext a
  by_cases heq : a = b.arch
  · subst heq
    rw [Function.update_self, archValues, if_pos hb, bind_arch]
  · rw [Function.update_of_ne heq, archValues, archValues, bind_of_ne heq]

/-- A mapped source is the architectural register. -/
theorem source_arch {needMap : Bool} {argSrc : ArgSrc} {imm a phyId : Nat} {v : Option Nat}
    (hsent : needMap = true → a ∈ archRegs ∧ phyId = m a)
    (h : expectedSource regs needMap argSrc imm phyId = v) :
    expectedSource (archValues m regs) needMap argSrc imm a = v := by
  cases hneed : needMap with
  | false =>
      rw [hneed] at h
      exact h
  | true =>
      obtain ⟨ha, rfl⟩ := hsent hneed
      rw [hneed] at h
      rw [expectedSource, if_pos rfl, archValues, if_pos ha]
      exact h

theorem executes_entry {e : Entry InFlight} (hfrom : RenamedFrom m e)
    {op : ReadregIssueOpInfo} (hsent : SentFor e op.toRenameReadregOpInfo)
    (hloaded : OperandsLoaded regs op) {v : Nat} (hmade : MadeBy op v)
    (hvalid : e.tag.op.valid = true) : Executes (archValues m regs) e.tag.op op v := by
  have hdecoded : op.toDecodeRenamePack = e.tag.op := hsent.decoded
  have hopValid : op.valid = true := (congrArg (·.valid) hdecoded).trans hvalid
  rw [← hdecoded]
  refine ⟨rfl, source_arch (fun hneed => ?_) (hloaded.src1 hopValid),
    source_arch (fun hneed => ?_) (hloaded.src2 hopValid), hmade⟩
  · exact hfrom.mapBefore ▸ hsent.rs1 hneed
  · exact hfrom.mapBefore ▸ hsent.rs2 hneed

/-- The entries that leave, one after the other. -/
theorem performAll_entries {es : List (Entry InFlight)} (hchain : Chain m es)
    (hbound : AllBound es) (hexecuted : ∀ e ∈ es, EntryExecuted regs e)
    (hknown : ∀ e ∈ es, e.item.oldPhyRegIdValid = true → (regs e.item.newPhyRegId).isSome) :
    PerformAll (es.map (·.tag.op)) (archValues m regs)
      (archValues (bindAll m (bindings es)) regs) := by
  induction es generalizing m with
  | nil => rfl
  | cons e es ih =>
      have hrest := ih hchain.2 (fun e he => hbound e (List.mem_cons_of_mem _ he))
        (fun e he => hexecuted e (List.mem_cons_of_mem _ he))
        (fun e he => hknown e (List.mem_cons_of_mem _ he))
      rw [bindings_cons, bindAll_append]
      refine ⟨_, ?_, hrest⟩
      have hmem : e ∈ e :: es := List.mem_cons_self
      rw [PerformsOn, ← hbound e hmem, entryBinding]
      cases hold : e.item.oldPhyRegIdValid with
      | false => rfl
      | true =>
          have hvalid : e.tag.op.valid = true :=
            (Bool.and_eq_true_iff.1 ((hbound e hmem).symm.trans hold)).1
          obtain ⟨v, hv⟩ := Option.isSome_iff_exists.1 (hknown e hmem hold)
          obtain ⟨op, hsent, hloaded, hmade⟩ := hexecuted e hmem hold v hv
          refine ⟨op, v, executes_entry hchain.1 hsent hloaded hmade hvalid, ?_⟩
          rw [if_pos rfl, bindAll_cons, bindAll_nil, archValues_bind (hchain.1.destination hold), hv]

end Retire

/-! ## One cycle -/

theorem SentFor.same {e e' : Entry InFlight} (hsame : SameRenaming e e')
    {op : RenameReadregOpInfo} (h : SentFor e op) : SentFor e' op where
  decoded := h.decoded.trans (congrArg (·.op) hsame.tag).symm
  enable := h.enable
  rd := h.rd.trans hsame.newPhyRegId.symm
  rs1 := by
    rw [hsame.tag]
    exact h.rs1
  rs2 := by
    rw [hsame.tag]
    exact h.rs2

structure ValuesInv (m : RegMap) (outstanding : List ReadregIssueOpInfo) (t : TrackedUnits) :
    Prop extends UnitsInv m outstanding t where
  executed : t.units.flow.back.commit.curState = .normal →
    ∀ e ∈ t.units.flow.back.rob.entries, EntryExecuted t.regs e

section Cycle

variable {m : RegMap} {outstanding : List ReadregIssueOpInfo} {t : TrackedUnits}
  {x : UnitFlowInput}

theorem UnitsInv.results (h : UnitsInv m outstanding t) : ResultsInv m t.units.flow t.regs :=
  h.sent.operands.results

/-- The unit that delivers a register had the operation of its entry in front of it. -/
theorem entry_made (h : UnitsInv m outstanding t)
    (hc : FlowCycle m t.units.flow t.regs (unitInput t.units x)) {j : Nat} (hj : j < wbWidth)
    (hw : Writes (unitAnswers (unitInput t.units x) j)) {k : Nat}
    (hk : k < t.units.flow.back.rob.entries.length)
    (hold : t.units.flow.back.rob.entries[k].item.oldPhyRegIdValid = true)
    (hphy : (unitAnswers (unitInput t.units x) j).rdPhy =
      t.units.flow.back.rob.entries[k].item.newPhyRegId) :
    ∃ op : ReadregIssueOpInfo, SentFor t.units.flow.back.rob.entries[k] op.toRenameReadregOpInfo ∧
      OperandsLoaded t.regs op ∧ MadeBy op (unitAnswers (unitInput t.units x) j).rdValue := by
  obtain ⟨hwe, hpack⟩ := unitAnswers_valid hw.1
  obtain ⟨op, hop, hunit, hdata⟩ := h.units.holds _ _ (channelUnit_lt j) (unitWe_hasData hwe)
  obtain ⟨i, hi, hid, _, hfor⟩ := h.sent.outstanding op hop
  obtain ⟨n, hn, hidn, _, holdn, hphyn⟩ := writes_entry hc.bound hc.answers hj hw
  obtain rfl : n = k := newPhy_inj hc.nodup hn hk holdn hold (hphyn.symm.trans hphy)
  have hrobId : (unitAnswers (unitInput t.units x) j).robId = op.robId := by
    rw [hpack]
    exact (answerTo_unit hunit hdata).robId
  have hsize := hc.cycle.settled.wf.2
  obtain rfl : i = n := idAt_inj hc.cycle.settled.wf (Nat.lt_of_lt_of_le hi hsize)
    (Nat.lt_of_lt_of_le hn hsize) (hid.symm.trans (hrobId.symm.trans hidn))
  refine ⟨op, hfor, h.sent.loaded op hop, t.units, x, (channelUnit j).2, ?_, ?_⟩
  · rw [hunit]
    exact hdata
  · rw [hunit, hpack]

theorem executed_next (h : ValuesInv m outstanding t)
    (hc : FlowCycle m t.units.flow t.regs (unitInput t.units x)) :
    ∀ e ∈ (trackedUnitsNext t x).units.flow.back.rob.entries,
      EntryExecuted (trackedUnitsNext t x).regs e := by
  intro e he hold v hv
  obtain ⟨k', hk', rfl⟩ := List.mem_iff_getElem.1 he
  rcases hc.entry_next hk' with ⟨k, hk, _, _, hget⟩ | ⟨i, hi, _, hget⟩
  · have hsame : SameRenaming t.units.flow.back.rob.entries[k]
        (trackedUnitsNext t x).units.flow.back.rob.entries[k'] := by
      have hupdate := sameRenaming_update (dataflowCheckpoint t.units.flow (unitInput t.units x))
        (dataflowBack t.units.flow (unitInput t.units x)) hc.cycle.settled hc.cycle.port hk
      rw [← hget] at hupdate
      exact hupdate
    rw [hsame.oldPhyRegIdValid] at hold
    rw [hsame.newPhyRegId] at hv
    have hused := List.mem_append_right (archRegs.map m) (newPhy_mem hk hold)
    have hlearned := (hc.regs_next_used hused).symm.trans hv
    have hmade : ∃ op : ReadregIssueOpInfo,
        SentFor t.units.flow.back.rob.entries[k] op.toRenameReadregOpInfo ∧
          OperandsLoaded t.regs op ∧ MadeBy op v := by
      by_cases hdelivered : ∃ j, j < wbWidth ∧ Writes (unitAnswers (unitInput t.units x) j) ∧
          (unitAnswers (unitInput t.units x) j).rdPhy =
            t.units.flow.back.rob.entries[k].item.newPhyRegId
      · obtain ⟨j, hj, hw, hphy⟩ := hdelivered
        rw [← hphy, hc.learned_delivered hj hw] at hlearned
        obtain rfl := Option.some.inj hlearned
        exact entry_made h.toUnitsInv hc hj hw hk hold hphy
      · rw [hc.learned_other fun j hj hw heq => hdelivered ⟨j, hj, hw, heq⟩] at hlearned
        exact h.executed hc.cycle.state _ (List.getElem_mem hk) hold v hlearned
    obtain ⟨op, hsent, hloaded, hmade⟩ := hmade
    exact ⟨op, hsent.same hsame, hloaded.next (hc.sent_feed hk hsent), hmade⟩
  · have hget' : (trackedUnitsNext t x).units.flow.back.rob.entries[k'] =
        (pushedEntries (dataflowRename t.units.flow (unitInput t.units x)))[i] := hget
    rw [hget'] at hold hv
    have hnone : (trackedUnitsNext t x).regs (pushedEntries
        (dataflowRename t.units.flow (unitInput t.units x)))[i].item.newPhyRegId = none :=
      Scoreboard.next_of_mem (hc.pushed_allocated (List.getElem_mem hi) hold)
    exact absurd (hnone.symm.trans hv) (Option.some_ne_none v).symm

/-- What the entries that leave were executed on. -/
theorem leaving_performed (h : ValuesInv m outstanding t)
    (hstate : t.units.flow.back.commit.curState = .normal) :
    PerformAll ((t.units.flow.back.rob.entries.take
        (leavingNum t.units.flow (unitInput t.units x))).map (·.tag.op)) (archValues m t.regs)
      (archValues (retiredMap m t.units.flow.back (leavingNum t.units.flow (unitInput t.units x)))
        t.regs) := by
  have hresults := h.toUnitsInv.results
  refine performAll_entries (hresults.back.chain.split _).1
    (fun e he => hresults.bound e (List.mem_of_mem_take he))
    (fun e he => h.executed hstate e (List.mem_of_mem_take he)) fun e he hold => ?_
  obtain ⟨i, hi, rfl⟩ := List.mem_iff_getElem.1 he
  rw [List.length_take] at hi
  obtain ⟨hlen, _, hfinish, hexc, _⟩ := popped_spec (s := t.units.flow.back.commit)
    (c := backendCommitInput (dataflowCheckpoint t.units.flow (unitInput t.units x))
      t.units.flow.back
      (dataflowBack t.units.flow (unitInput t.units x))) (backend_view _ _ hresults.back.rob)
    (by omega : i < leavingNum t.units.flow (unitInput t.units x))
  rw [List.getElem_take] at hold ⊢
  rw [valid_data (hresults.normal hstate) (List.mem_append_right _ (newPhy_mem hlen hold))
    ((hresults.back.normal hstate).finished _ (List.getElem_mem hlen) hfinish hexc hold)]
  rfl

/-- The cycle keeps the values of the map behind what retires. -/
theorem archValues_next (h : UnitsInv m outstanding t) (hx : UnitFlowAllowed t.units x)
    (hstate : t.units.flow.back.commit.curState = .normal) :
    archValues (retiredMap m t.units.flow.back (leavingNum t.units.flow (unitInput t.units x)))
        (trackedUnitsNext t x).regs =
      archValues (retiredMap m t.units.flow.back (leavingNum t.units.flow (unitInput t.units x)))
        t.regs := by
  have hallowed := h.sent.allowed (h.units.answersSent hx t.regs)
  have hresults := h.results
  funext a
  rw [archValues, archValues]
  by_cases ha : a ∈ archRegs
  · rw [if_pos ha, if_pos ha]
    cases hflush : (dataflowFeedback t.units.flow (unitInput t.units x)).flushing with
    | true => exact congrFun (flush_quiet t.regs hflush).2.2 _
    | false =>
        have hc := flowCycle_of_quiet hresults hallowed hflush
        have hknown := retired_known (x := unitInput t.units x) hresults.back.toSettled
          (hresults.back.normal hstate) (hresults.normal hstate) ha
        rw [hknown]
        exact (hc.feed (retired_used hc.cycle.settled _ ha)).known hknown
  · rw [if_neg ha, if_neg ha]

theorem retires_in_order (h : ValuesInv m outstanding t) (hx : UnitFlowAllowed t.units x) :
    PerformAll ((t.units.flow.back.rob.entries.take
        (leavingNum t.units.flow (unitInput t.units x))).map (·.tag.op)) (archValues m t.regs)
      (archValues (retiredMap m t.units.flow.back (leavingNum t.units.flow (unitInput t.units x)))
        (trackedUnitsNext t x).regs) := by
  by_cases hstate : t.units.flow.back.commit.curState = .normal
  · rw [archValues_next h.toUnitsInv hx hstate]
    exact leaving_performed h hstate
  · obtain ⟨k, hw, _⟩ := h.toUnitsInv.results.walking hstate
    obtain ⟨_, hpop, _, hflush⟩ := walk_quiet (c := backendCommitInput
      (dataflowCheckpoint t.units.flow (unitInput t.units x)) t.units.flow.back
      (dataflowBack t.units.flow (unitInput t.units x))) hw.walk
    have hleaving : leavingNum t.units.flow (unitInput t.units x) = 0 := hpop
    have hregs : (trackedUnitsNext t x).regs = t.regs := (flush_quiet t.regs hflush).2.2
    rw [hleaving, hregs]
    rfl

theorem valuesInv_next (h : ValuesInv m outstanding t) (hx : UnitFlowAllowed t.units x) :
    ValuesInv (retiredMap m t.units.flow.back (leavingNum t.units.flow (unitInput t.units x)))
      (sentNext ⟨⟨t.units.flow, t.regs⟩, outstanding⟩ (unitInput t.units x)).outstanding
      (trackedUnitsNext t x) := by
  have hallowed := h.sent.allowed (h.units.answersSent hx t.regs)
  refine ⟨unitsInv_next h.toUnitsInv hx, fun hnormal => ?_⟩
  cases hflush : (dataflowFeedback t.units.flow (unitInput t.units x)).flushing with
  | false =>
      exact executed_next h (flowCycle_of_quiet h.toUnitsInv.results hallowed hflush)
  | true =>
      have hempty : (trackedUnitsNext t x).units.flow.back.rob.entries = [] :=
        entries_flush h.toUnitsInv.results hallowed hflush hnormal
      rw [hempty]
      exact fun e he => absurd he List.not_mem_nil

/-- The architectural registers are in the register file. -/
theorem archValues_data (h : UnitsInv m outstanding t) {a : Nat} (ha : a ∈ archRegs) :
    archValues m t.regs a = some (t.units.flow.back.phyf.data (m a)) := by
  have hresults := h.results
  rw [archValues, if_pos ha]
  by_cases hstate : t.units.flow.back.commit.curState = .normal
  · exact valid_data (hresults.normal hstate) (List.mem_append_left _ (List.mem_map_of_mem ha))
      (hresults.back.mapped a ha)
  · obtain ⟨k, _, hwalk⟩ := hresults.walking hstate
    exact hwalk.mapped a ha

end Cycle

/-! ## Every run -/

/-- The circuit and the map the retired instructions have left. -/
structure RetiredState where
  tracked : TrackedUnits
  map : RegMap

def retiredStateNext (t : RetiredState) (x : UnitFlowInput) : RetiredState where
  tracked := trackedUnitsNext t.tracked x
  map := retiredMap t.map t.tracked.units.flow.back
    (leavingNum t.tracked.units.flow (unitInput t.tracked.units x))

def retiredStateReset (robBuffer : Nat → RobItem) (checkpoints : Nat → Checkpoint)
    (buffer : Nat → IssueQueueItem) : RetiredState :=
  ⟨trackedUnitsReset robBuffer checkpoints buffer, fun a => if a ∈ archRegs then a else 0⟩

/-- The instructions that retire in the cycle, oldest first. -/
def retiringOps (t : RetiredState) (x : UnitFlowInput) : List DecodeRenamePack :=
  (t.tracked.units.flow.back.rob.entries.take
    (leavingNum t.tracked.units.flow (unitInput t.tracked.units x))).map (·.tag.op)

def RetiredState.arch (t : RetiredState) : Nat → Option Nat := archValues t.map t.tracked.regs

/-- In every run over decoded instructions, whatever is reordered, stalls and is flushed when:
the registers of the map behind the retired instructions are in the register file, and every
cycle takes them through the instructions that retire in it, one after the other. -/
theorem retired_values_in_order (robBuffer : Nat → RobItem) (checkpoints : Nat → Checkpoint)
    (buffer : Nat → IssueQueueItem) {inputs : List UnitFlowInput}
    (h : Along retiredStateNext (fun t x => UnitFlowAllowed t.tracked.units x)
      (retiredStateReset robBuffer checkpoints buffer) inputs) :
    Always retiredStateNext (fun t => ∀ a ∈ archRegs,
        t.arch a = some (t.tracked.units.flow.back.phyf.data (t.map a)))
        (retiredStateReset robBuffer checkpoints buffer) inputs ∧
      Along retiredStateNext (fun t x =>
        PerformAll (retiringOps t x) t.arch (retiredStateNext t x).arch)
        (retiredStateReset robBuffer checkpoints buffer) inputs := by
  have hstep : ∀ (t : RetiredState) (x : UnitFlowInput),
      (∃ outstanding, ValuesInv t.map outstanding t.tracked) →
      UnitFlowAllowed t.tracked.units x →
      ∃ outstanding, ValuesInv (retiredStateNext t x).map outstanding
        (retiredStateNext t x).tracked :=
    fun t x ⟨_, hinv⟩ hx => ⟨_, valuesInv_next hinv hx⟩
  have hreset : ∃ outstanding,
      ValuesInv (retiredStateReset robBuffer checkpoints buffer).map outstanding
        (retiredStateReset robBuffer checkpoints buffer).tracked :=
    ⟨[], unitsInv_reset robBuffer checkpoints buffer, fun _ e he => absurd he List.not_mem_nil⟩
  refine ⟨(always_of_step hstep hreset h).mono fun t ⟨_, hinv⟩ a ha =>
    archValues_data hinv.toUnitsInv ha, ?_⟩
  exact (h.strengthen hstep hreset).mono fun t x ⟨⟨_, hinv⟩, hx⟩ => retires_in_order hinv hx

/-! ## Two dependent additions -/

/-- Reset with nothing in the entries of the buffers. -/
def zeroRetired : RetiredState :=
  retiredStateReset (fun _ => RobItem.zero) (fun _ => Checkpoint.zero) fun _ => tItemEmpty

def retiredAfter (n : Nat) : RetiredState := run retiredStateNext zeroRetired (additionRun n)

/-- Eight cycles after they were offered both additions have retired. -/
theorem retired_values_in_order_dependentAdds :
    (Always retiredStateNext (fun t => ∀ a ∈ archRegs,
        t.arch a = some (t.tracked.units.flow.back.phyf.data (t.map a)))
        zeroRetired (additionRun 8) ∧
      Along retiredStateNext (fun t x =>
        PerformAll (retiringOps t x) t.arch (retiredStateNext t x).arch)
        zeroRetired (additionRun 8)) ∧
    (retiredAfter 7).arch 5 = some 2 ∧ (retiredAfter 8).arch 6 = some 4 := by
  have hbuffers : Along retiredStateNext (fun t x => UnitBuffersKept t.tracked.units x)
      zeroRetired (additionRun 8) := by decide +kernel
  have hmem : Along retiredStateNext (fun _ x => x ∈ additionRun 8) zeroRetired
      (additionRun 8) := along_of_forall fun _ _ hx => hx
  exact ⟨retired_values_in_order (fun _ => RobItem.zero) (fun _ => Checkpoint.zero)
    (fun _ => tItemEmpty) ((hmem.and hbuffers).mono fun _ _ h => additionRun_allowed h.1 h.2),
    by decide +kernel, by decide +kernel⟩

end DreamCore.Proofs
