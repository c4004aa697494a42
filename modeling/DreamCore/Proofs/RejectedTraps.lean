import DreamCore.Proofs.PreciseTraps
import DreamCore.Proofs.RejectedWords

/-!
# Rejected words trap

The arithmetic unit turns a rejected operation into an illegal-instruction exception;
the branch unit and the load/store unit do not, and a rejected operation with a
destination is mapped to a register nothing will ever write.  In a run without such
words every rejected instruction ends in a trap and leaves nothing behind.
-/

namespace DreamCore.Proofs

open DreamCore.Clocked DreamCore.Model DreamCore.Renaming DreamCore.Rtl

/-! ## The execution units -/

/-- The pack is what the unit of `op` makes of the pack issue sends it. -/
def UnitResult (op : DecodeRenamePack) (w : ExecuteWbPack) : Prop :=
  ∃ item : ReadregIssueOpInfo, item.toDecodeRenamePack = op ∧
    (op.opUnit = .alu → w = executeAlu (issueDataConverted item)) ∧
    (op.opUnit = .bru → ∃ mepc, w = executeBru mepc (issueDataConverted item)) ∧
    (op.opUnit = .lsu → ∃ x : ExecuteLsuInput, x.revPack = issueDataConverted item ∧
      w = x.sendPack)

/-- Every answer for an instruction in flight is its unit's. -/
def UnitsAnswer (s : BackendState) (input : BackendInput) : Prop :=
  ∀ j, j < wbWidth → (input.executeWb j).enable = true →
    ∀ k (hk : k < s.rob.entries.length), (input.executeWb j).robId = s.rob.idAt k →
      UnitResult s.rob.entries[k].tag.op (input.executeWb j)

/-- No rejected word that needs another unit or a register is renamed in this cycle. -/
def RejectedHarmless (cp : Nat → Checkpoint) (s : BackendState) (input : BackendInput) : Prop :=
  ∀ e ∈ pushedEntries (backendRenameInput cp s input), Rejected e.tag.op →
    TrapsByOpcode e.tag.op.value

/-- The result of a rejected operation. -/
structure RejectedResult (w : ExecuteWbPack) : Prop where
  hasException : w.hasException = true
  exceptionId : w.exceptionId = RiscvException.illegalInstruction
  exceptionValue : w.exceptionValue = 0
  csrNewvalueValid : w.csrNewvalueValid = false
  valid : w.valid = false
  opUnit : w.opUnit = .alu

theorem rejectedResult_of_unit {op : DecodeRenamePack} {w : ExecuteWbPack}
    (hop : Rejected op) (hunit : op.opUnit = .alu) (h : UnitResult op w) : RejectedResult w := by
  obtain ⟨item, rfl, halu, _⟩ := h
  have hitem := issueDataConverted_rejected hop.1
  have hvalid : (issueDataConverted item).valid = false :=
    (congrArg (·.valid) hitem).trans hop.1
  have hexc : (issueDataConverted item).hasException = false :=
    (congrArg (·.hasException) hitem).trans hop.2
  obtain ⟨htrap, hid, hvalue⟩ := executeAlu_rejected hvalid hexc
  have hw := halu hunit
  exact ⟨hw ▸ htrap, hw ▸ hid, hw ▸ hvalue, hw ▸ rfl, hw ▸ hvalid, hw ▸ hunit⟩

/-! ## What is known of a rejected entry -/

structure RejectedOk (e : Entry InFlight) : Prop where
  opUnit : e.tag.op.opUnit = .alu
  needRename : e.tag.op.needRename = false
  isMret : e.item.isMret = false
  exceptionId : e.item.finish = true → e.item.hasException = true ∧
    e.item.exceptionId = RiscvException.illegalInstruction ∧ e.item.exceptionValue = 0
  bruOp : e.item.finish = true → e.item.bruOp = false

/-- The entries of rejected instructions, and the results on their way to them. -/
structure RejectedInv (s : BackendState) : Prop where
  entries : ∀ e ∈ s.rob.entries, Rejected e.tag.op → RejectedOk e
  port : ∀ j, j < wbWidth → (s.wbPort j).enable = true →
    ∀ k (hk : k < s.rob.entries.length), (s.wbPort j).robId = s.rob.idAt k →
      UnitResult s.rob.entries[k].tag.op (s.wbPort j)

theorem RejectedOk.finished {e : Entry InFlight} (h : RejectedOk e) {w : ExecuteWbPack}
    (hresult : RejectedResult w) : RejectedOk { e with item := finishedItem e.item w } where
  opUnit := h.opUnit
  needRename := h.needRename
  isMret := h.isMret
  exceptionId := fun _ => ⟨hresult.hasException, hresult.exceptionId, hresult.exceptionValue⟩
  bruOp := fun _ => by simp [finishedItem, hresult.opUnit]

section Cycle

variable {cp : Nat → Checkpoint} {m : RegMap} {s : BackendState} {input : BackendInput}

theorem rejectedOk_pushed (hbundle : DecodedBundle input.bundle)
    (hharmless : RejectedHarmless cp s input) {e : Entry InFlight}
    (he : e ∈ pushedEntries (backendRenameInput cp s input))
    (hop : Rejected e.tag.op) : RejectedOk e := by
  have htraps := hharmless e he hop
  have hfinish := (items_pushed hbundle he).2
  obtain ⟨i, _, _, hdata, rfl⟩ := mem_pushed he
  obtain ⟨hadd, hiff⟩ := decode_rejected (hbundle.decoded _ (pushed_mem_bundle hdata)) hop
  obtain ⟨hunit, hneed⟩ := hiff.2 htraps
  refine ⟨hunit, hneed, ?_, fun h => absurd (hfinish.symm.trans h) Bool.false_ne_true,
    fun h => absurd (hfinish.symm.trans h) Bool.false_ne_true⟩
  exact decide_eq_false fun hmret => Op.noConfusion (hadd.symm.trans hmret)

/-- The condition keeps rejected instructions out of the alias table. -/
theorem noRejectedRename_of_harmless (hbundle : DecodedBundle input.bundle)
    (hharmless : RejectedHarmless cp s input) :
    NoRejectedRename cp s input := by
  intro hmap i hi henable hneed hgrant
  by_contra hvalid
  have hinvalid := Bool.eq_false_iff.2 hvalid
  have hmem := revPack_mem henable
  have hdecoded := hbundle.decoded _ hmem
  have hexc : ((backendRenameInput cp s input).revPack i).hasException = false := by
    by_contra hexc
    have hzero := decode_zero (hbundle.misaligned _ hmem (Bool.eq_true_of_not_eq_false hexc))
    rw [← hdecoded, hneed] at hzero
    exact Bool.false_ne_true hzero.2.2.symm
  have hsend : (backendRenameInput cp s input).sendEnable i = true := by
    simp only [RenameInput.sendEnable, henable, hinvalid, Bool.not_false, Bool.or_true,
      Bool.true_or, Bool.true_and]
    exact hgrant
  have hpushed : pushedEntry (backendRenameInput cp s input) i ∈
      pushedEntries (backendRenameInput cp s input) := by
    have hpush : (backendRenameInput cp s input).renameRobPush = true := hmap
    rw [pushedEntries, if_pos hpush]
    refine List.mem_map_of_mem (List.mem_filter.2 ⟨List.mem_range.2 hi, ?_⟩)
    exact Bool.and_eq_true_iff.2 ⟨hgrant, hsend⟩
  have htraps := hharmless _ hpushed ⟨hinvalid, hexc⟩
  have hnone := ((decode_rejected hdecoded ⟨hinvalid, hexc⟩).2.2 htraps).2
  exact Bool.false_ne_true (hnone.symm.trans hneed)

theorem rejected_entries_next (h : BackendInv m s) (hr : RejectedInv s)
    (hbundle : DecodedBundle input.bundle) (hharmless : RejectedHarmless cp s input) :
    ∀ e ∈ (backendNextWith cp s input).rob.entries, Rejected e.tag.op → RejectedOk e := by
  intro e he hop
  cases hflush : commitRobFlush s.commit (backendCommitInput cp s input) with
  | true =>
      have hnone : (backendNextWith cp s input).rob.entries = [] := entries_flushed hflush
      rw [hnone] at he
      exact absurd he (List.not_mem_nil)
  | false =>
      rcases mem_entries_next hflush he with ⟨k, hk, _, rfl⟩ | hpushed
      · have hok := hr.entries _ (List.getElem_mem hk) hop
        rcases update_cases cp input h.toSettled h.port hk with
          ⟨hsame, _⟩ | ⟨j, hj, hwe, hid, _, hwritten⟩
        · rw [hsame]
          exact hok
        · have hunit := hr.port j hj (Bool.and_eq_true_iff.1 hwe).2 k hk hid
          rw [hwritten]
          exact hok.finished (rejectedResult_of_unit hop hok.opUnit hunit)
      · exact rejectedOk_pushed hbundle hharmless hpushed hop

theorem rejected_port_next (h : BackendInv m s) (hallowed : CycleAllowed s input)
    (hunits : UnitsAnswer s input) (hwf : (backendNextWith cp s input).rob.WellFormed) :
    ∀ j, j < wbWidth → ((backendNextWith cp s input).wbPort j).enable = true →
      ∀ k (hk : k < (backendNextWith cp s input).rob.entries.length),
        ((backendNextWith cp s input).wbPort j).robId = (backendNextWith cp s input).rob.idAt k →
        UnitResult (backendNextWith cp s input).rob.entries[k].tag.op
          ((backendNextWith cp s input).wbPort j) := by
  intro j hj henable k hk hid
  cases hflushing : flushing s.commit (backendCommitInput cp s input) with
  | true =>
      have hport : (backendNextWith cp s input).wbPort = fun _ => ExecuteWbPack.zero :=
        (flushing_quiet hflushing).2.2
      rw [hport] at henable
      exact absurd henable Bool.false_ne_true
  | false =>
      have hport : (backendNextWith cp s input).wbPort = input.executeWb := by
        have : wbCommitPortFlush (backendFeedback cp s input) = false := hflushing
        simp [backendNextWith, wbCommitPortNext, this]
      rw [hport] at henable hid ⊢
      cases hflush : commitRobFlush s.commit (backendCommitInput cp s input) with
      | true =>
          have hnone : (backendNextWith cp s input).rob.entries = [] := entries_flushed hflush
          rw [hnone] at hk
          exact absurd hk (Nat.not_lt_zero k)
      | false =>
          obtain ⟨i, hi, hidi, hfinish, _⟩ := hallowed.results.inFlight j hj henable
          have hpop : pops cp s input ≤ i := by
            by_contra hlt
            obtain ⟨_, _, hdone, _⟩ := popped_spec (s := s.commit)
              (c := backendCommitInput cp s input)
              (backend_view cp input h.rob) (by omega : i < pops cp s input)
            exact Bool.false_ne_true (hfinish.symm.trans hdone)
          obtain ⟨hk', hget⟩ := getElem_next hi hpop hflush
          have hmoved := @idAt_next cp s input _
            (i - pops cp s input) hflush rfl
          rw [Nat.add_sub_cancel' hpop] at hmoved
          have hsize := hwf.2
          have heq : k = i - pops cp s input :=
            idAt_inj hwf (by omega) (Nat.lt_of_lt_of_le hk' hsize)
              (hid.symm.trans (hidi.trans hmoved.symm))
          subst heq
          have htag := congrArg (fun e : Entry InFlight => e.tag.op) hget
          exact htag ▸ hunits j hj henable i hi hidi

end Cycle

/-! ## Runs -/

/-- No rejected word that needs another unit or a register is renamed in this cycle. -/
abbrev RenamesHarmless (s : RecoveryState) (input : RecoveryInput) : Prop :=
  RejectedHarmless (recoveryCommitData s input) s.backend (recoveryBackendInput s input)

/-- What is known in every state of a run without harmful rejected words. -/
structure TrapsInv (s : RecoveryState) : Prop where
  recovery : RecoveryInv s
  rejected : RejectedInv s.backend

/-- A cycle of such a run. -/
structure TrapsAllowed (s : RecoveryState) (input : RecoveryInput) : Prop where
  cycle : CycleAllowed s.backend input.backend
  units : UnitsAnswer s.backend input.backend
  harmless : RenamesHarmless s input
  exact : GrantsExact s.backend.rob

theorem TrapsAllowed.accepts {s : RecoveryState} {input : RecoveryInput}
    (h : TrapsAllowed s input) : MapsAccepted s input :=
  noRejectedRename_of_harmless (cycleAllowed_recovery h.cycle).bundle h.harmless

theorem trapsInv_next {s : RecoveryState} {input : RecoveryInput} (h : TrapsInv s)
    (hallowed : TrapsAllowed s input) (hover : NoOverwrite s input) :
    TrapsInv (recoveryNext s input) := by
  have hnext := recoveryInv_next h.recovery hallowed.cycle hallowed.exact hover hallowed.accepts
  have hcycle := cycleAllowed_recovery hallowed.cycle
  obtain ⟨m, hinv⟩ := h.recovery.backend
  refine ⟨hnext, rejected_entries_next hinv h.rejected hcycle.bundle hallowed.harmless, ?_⟩
  obtain ⟨_, hbackend⟩ := hnext.backend
  exact rejected_port_next hinv hcycle hallowed.units hbackend.wf

theorem trapsInv_reset (robBuffer : Nat → RobItem) (buffer : Nat → Checkpoint) :
    TrapsInv (recoveryReset robBuffer buffer) where
  recovery := recoveryReset_inv robBuffer buffer
  rejected := ⟨fun _ he => absurd he List.not_mem_nil,
    fun _ _ henable => absurd henable Bool.false_ne_true⟩

/-! ## The whole trap -/

/-- The trap of a rejected instruction `e`: precise, without a jump, and with the three
trap registers as its only writes when the walk ends. -/
structure IllegalTrap (s : RecoveryState) (trap : RecoveryInput) (walk : List RecoveryInput)
    (e : Entry InFlight) : Prop where
  precise : PreciseTrap s trap walk (trapPops s trap) e
  noJump : (commitFeedbackPack s.backend.commit (recoveryCommitInput s trap)).jumpEnable = false
  walkNoJump : ∀ j (hj : j < walk.length),
    let now := run recoveryNext (recoveryNext s trap) (walk.take j)
    (commitFeedbackPack now.backend.commit (recoveryCommitInput now walk[j])).jumpEnable = false
  csr : commitNextState s.backend.commit (recoveryCommitInput s trap) = .flush →
    ∀ j (hj : j < walk.length), j + 1 = walk.length →
      let last := run recoveryNext (recoveryNext s trap) (walk.take j)
      let c := recoveryCommitInput last walk[j]
      commitCsrfWrite last.backend.commit c 0 = ⟨true, Csr.mepc, e.tag.op.pc⟩ ∧
      commitCsrfWrite last.backend.commit c 1 = ⟨true, Csr.mtval, 0⟩ ∧
      commitCsrfWrite last.backend.commit c 2 =
        ⟨true, Csr.mcause, RiscvException.illegalInstruction⟩ ∧
      (∀ i, 2 < i → (commitCsrfWrite last.backend.commit c i).we = false) ∧
      (commitFeedbackPack last.backend.commit c).hasException = true ∧
      (commitFeedbackPack last.backend.commit c).exceptionPc = walk[j].backend.csrfCommitReadData

/-- What one cycle of a run shows of the rejected instructions in flight. -/
structure RejectedTraps (s : RecoveryState) (input : RecoveryInput) : Prop where
  kept : ∀ k e, k < trapPops s input → s.backend.rob.entries[k]? = some e → ¬Rejected e.tag.op
  taken : ∀ e, s.backend.commit.curState = .normal → s.backend.rob.entries[0]? = some e →
    Rejected e.tag.op → e.item.finish = true → TakesTrap s input ∧
      (input.backend.intifCommitHasInterrupt = false →
        commitNextState s.backend.commit (recoveryCommitInput s input) = .flush)
  trap : ∀ e walk, TakesTrap s input →
    Along recoveryNext (fun s _ => GrantsExact s.backend.rob) (recoveryNext s input) walk →
    s.backend.rob.entries[trapPops s input]? = some e → Rejected e.tag.op →
    walk.length = s.backend.rob.entries.length - trapPops s input → IllegalTrap s input walk e
  silent : ∀ k e j, s.backend.rob.entries[k]? = some e → Rejected e.tag.op → j < wbWidth →
    (input.backend.executeWb j).enable = true →
    (input.backend.executeWb j).robId = s.backend.rob.idAt k →
      wbPhyfWe (commitFeedbackPack s.backend.commit (recoveryCommitInput s input))
        input.backend.executeWb j = false
  noStore : ∀ e ∈ s.backend.rob.entries, Rejected e.tag.op → ∀ x : ExecuteLsuInput,
    x.revPack.toDecodeRenamePack = e.tag.op → x.exlsuStbufPush = false
  noRegister : ∀ k (e e' : Entry InFlight), s.backend.rob.entries[k]? = some e →
    Rejected e.tag.op → s.backend.rob.entries[k + 1]? = some e' →
      e'.tag.mapBefore = e.tag.mapBefore
  supplied : ∀ k (e : Entry InFlight) a, s.backend.rob.entries[k]? = some e →
    1 ≤ a → a < archRegNum → s.backend.phyf.dataValid (e.tag.mapBefore a) = true ∨
      ∃ (j : Nat) (e' : Entry InFlight), j < k ∧ s.backend.rob.entries[j]? = some e' ∧
        e'.tag.op.valid = true ∧ e'.tag.op.needRename = true ∧ e'.tag.op.rd = a ∧
        e'.item.newPhyRegId = e.tag.mapBefore a

section Entries

variable {cp : Nat → Checkpoint} {m : RegMap} {s : BackendState} {trap : BackendInput}

theorem rejected_binds_nothing (h : Settled m s) {e : Entry InFlight} (he : e ∈ s.rob.entries)
    (hop : Rejected e.tag.op) : entryBinding e = [] := by
  rw [entryBinding, if_neg]
  exact fun hold => Bool.false_ne_true (hop.1.symm.trans ((h.items e he).renamed hold).1)

/-- The instruction behind a rejected one is renamed against the same map. -/
theorem rejected_keeps_map (h : Settled m s) {k : Nat} {e e' : Entry InFlight}
    (hget : s.rob.entries[k]? = some e) (hop : Rejected e.tag.op)
    (hget' : s.rob.entries[k + 1]? = some e') : e'.tag.mapBefore = e.tag.mapBefore := by
  obtain ⟨hk, rfl⟩ := List.getElem?_eq_some_iff.1 hget
  obtain ⟨hk', rfl⟩ := List.getElem?_eq_some_iff.1 hget'
  rw [(h.chain.get hk).mapBefore, (h.chain.get hk').mapBefore, bindings_take_succ hk,
    rejected_binds_nothing h (List.getElem_mem hk) hop, List.append_nil]

/-- Every register an instruction was renamed against is written already, or belongs to an
older accepted instruction in flight. -/
theorem source_supplied (h : Settled m s) {k a : Nat} {e : Entry InFlight}
    (hget : s.rob.entries[k]? = some e) (ha : a ∈ archRegs) :
    s.phyf.dataValid (e.tag.mapBefore a) = true ∨
      ∃ (j : Nat) (e' : Entry InFlight), j < k ∧ s.rob.entries[j]? = some e' ∧
        e'.tag.op.valid = true ∧ e'.tag.op.needRename = true ∧ e'.tag.op.rd = a ∧
        e'.item.newPhyRegId = e.tag.mapBefore a := by
  obtain ⟨hk, rfl⟩ := List.getElem?_eq_some_iff.1 hget
  rw [(h.chain.get hk).mapBefore]
  rcases bindAll_cases m (bindings (s.rob.entries.take k)) a with hkept | ⟨b, hb, harch, hphy⟩
  · left
    rw [hkept]
    exact h.mapped a ha
  · right
    obtain ⟨e', he', hold, rfl⟩ := mem_bindings.1 hb
    obtain ⟨j, hj, rfl⟩ := List.mem_iff_getElem.1 he'
    rw [List.length_take] at hj
    have hjk : j < k := by omega
    have hlen : j < s.rob.entries.length := by omega
    rw [List.getElem_take] at hold harch hphy
    obtain ⟨hvalid, hneed, _⟩ := (h.items _ (List.getElem_mem hlen)).renamed hold
    exact ⟨j, _, hjk, List.getElem?_eq_getElem hlen, hvalid, hneed, harch, hphy.symm⟩

/-- A retired slot is no rejected instruction: its entry would carry an exception. -/
theorem popped_not_rejected (h : BackendInv m s) (hr : RejectedInv s) {k : Nat}
    {e : Entry InFlight} (hk : k < pops cp s trap)
    (hget : s.rob.entries[k]? = some e) : ¬Rejected e.tag.op := by
  intro hop
  obtain ⟨hlt, _, hfinish, hexc, _⟩ := popped_spec (backend_view cp trap h.rob) hk
  obtain ⟨_, rfl⟩ := List.getElem?_eq_some_iff.1 hget
  have hok := hr.entries _ (List.getElem_mem hlt) hop
  exact Bool.false_ne_true (hexc.symm.trans (hok.exceptionId hfinish).1)

/-- A finished head with an exception makes commit leave the normal state. -/
theorem head_traps (h : Settled m s) (hstate : s.commit.curState = .normal)
    (hlen : 0 < s.rob.entries.length) (hfinish : s.rob.entries[0].item.finish = true)
    (hexc : s.rob.entries[0].item.hasException = true) :
    commitNextState s.commit (backendCommitInput cp s trap) ≠ .normal ∧
      (trap.intifCommitHasInterrupt = false →
        commitNextState s.commit (backendCommitInput cp s trap) = .flush) := by
  have hview := backend_view cp trap h.rob
  have hempty : (backendCommitInput cp s trap).rob.empty = false := empty_of_length hview hlen
  have hinterrupt : (backendCommitInput cp s trap).intifCommitHasInterrupt =
      trap.intifCommitHasInterrupt := rfl
  cases hint : trap.intifCommitHasInterrupt with
  | true =>
      refine ⟨?_, fun hno => absurd hno Bool.noConfusion⟩
      simp [commitNextState, hstate, hempty, hinterrupt, hint]
  | false =>
      have hdata := retireData_eq hview hlen
      have hinrange :
          (backendCommitInput cp s trap).rob.retireIdValid
            (retireId (backendCommitInput cp s trap) 0) = true := by
        rw [retireId_eq hview, hview.retireIdValid 0 (by decide)]
        exact decide_eq_true hlen
      have hvalid : commitRobRetireValid s.commit (backendCommitInput cp s trap) 0 = true := by
        simp only [commitRobRetireValid, hstate, hinrange, hdata, hfinish, hinterrupt, hint]
        rfl
      have hany : retireHasException s.commit (backendCommitInput cp s trap) = true :=
        anyBit_iff.2 ⟨0, by decide, by simp only [retireHasExceptionCmp, hvalid, hdata, hexc]; rfl⟩
      have hnext : commitNextState s.commit (backendCommitInput cp s trap) = .flush := by
        simp [commitNextState, hstate, hempty, hinterrupt, hint, hany]
      exact ⟨by rw [hnext]; exact CommitFsm.noConfusion, fun _ => hnext⟩

/-- No branch retires in front of a trap: commit asks for no jump. -/
theorem trap_noJump (h : BackendInv m s) (hr : RejectedInv s) (hstate : s.commit.curState = .normal)
    (htrap : commitNextState s.commit (backendCommitInput cp s trap) ≠ .normal)
    {e : Entry InFlight}
    (hget : s.rob.entries[pops cp s trap]? = some e)
    (hop : Rejected e.tag.op) :
    (commitFeedbackPack s.commit (backendCommitInput cp s trap)).jumpEnable = false := by
  have hview := backend_view cp trap h.rob
  have hnone : retireHasBruOp s.commit (backendCommitInput cp s trap) = false := by
    refine anyBit_eq_false_iff.2 fun i hi => Bool.eq_false_iff.2 fun hcmp => ?_
    obtain ⟨hvalid, hbru⟩ := Bool.and_eq_true_iff.1 hcmp
    rcases trap_cause h.toSettled hstate htrap with ⟨_, hlt, hexc, hhead⟩ | ⟨hkind, _⟩
    · obtain ⟨_, rfl⟩ := List.getElem?_eq_some_iff.1 hget
      rcases Nat.lt_trichotomy i (pops cp s trap) with hlt' | rfl | hgt
      · exact Bool.false_ne_true ((retireValid_before hlt' hhead).2.2.symm.trans hbru)
      · obtain ⟨_, _, _, hfinish⟩ := retireValid_spec hview hi hvalid
        rw [retireData_eq hview hlt] at hbru
        have hok := hr.entries _ (List.getElem_mem hlt) hop
        exact Bool.false_ne_true ((hok.bruOp hfinish).symm.trans hbru)
      · have hclean := (retireValid_before hgt hvalid).2.1
        rw [retireData_eq hview hlt] at hclean
        exact Bool.false_ne_true (hclean.symm.trans hexc)
    · obtain ⟨_, hint, _⟩ := retireValid_spec hview hi hvalid
      rw [commitNextState, hstate] at hkind
      simp only [hint, Bool.and_false, Bool.false_eq_true, if_false] at hkind
      split at hkind <;> exact CommitFsm.noConfusion hkind
  simp only [commitFeedbackPack, hstate, normalFeedbackPack, hnone, Bool.false_and]

/-- The last cycle of an exception's walk writes the three trap registers and no other. -/
theorem walk_csr_exception (h : Settled m s) (hw : WalkOk m s 0)
    (hstate : s.commit.curState = .flush) :
    commitCsrfWrite s.commit (backendCommitInput cp s trap) 1 =
        ⟨true, Csr.mtval, s.commit.curRobItem.exceptionValue⟩ ∧
      commitCsrfWrite s.commit (backendCommitInput cp s trap) 2 =
        ⟨true, Csr.mcause, s.commit.curRobItem.exceptionId⟩ ∧
      (∀ i, 2 < i → (commitCsrfWrite s.commit (backendCommitInput cp s trap) i).we = false) ∧
      (commitFeedbackPack s.commit (backendCommitInput cp s trap)).hasException = true ∧
      (commitFeedbackPack s.commit (backendCommitInput cp s trap)).exceptionPc =
        trap.csrfCommitReadData := by
  have hnext := walk_nextState (backend_view cp trap h.rob) hw.walk
  rw [if_pos rfl] at hnext
  have hdone : flushDone s.commit (backendCommitInput cp s trap) = true := by
    simp [flushDone, hstate, hnext]
  refine ⟨?_, ?_, fun i hi => ?_, ?_, ?_⟩
  · simp [commitCsrfWrite, hstate, flushCsrfWrite, hdone]
  · simp [commitCsrfWrite, hstate, flushCsrfWrite, hdone]
  · obtain _ | _ | _ | i := i
    · omega
    · omega
    · omega
    · simp [commitCsrfWrite, hstate, flushCsrfWrite]
  · simp [commitFeedbackPack, hstate, flushingFeedbackPack, hdone]
  · simp [commitFeedbackPack, hstate, flushingFeedbackPack, backendCommitInput]

theorem walk_noJump (hstate : s.commit.curState ≠ .normal) :
    (commitFeedbackPack s.commit (backendCommitInput cp s trap)).jumpEnable = false := by
  cases hs : s.commit.curState with
  | normal => exact absurd hs hstate
  | flush => simp [commitFeedbackPack, hs, flushingFeedbackPack]
  | interruptFlush => simp [commitFeedbackPack, hs, flushingFeedbackPack]

end Entries

section Whole

variable {m : RegMap} {s : RecoveryState} {trap : RecoveryInput} {walk : List RecoveryInput}

theorem illegalTrap_of_inv (h : BackendInv m s.backend) (hr : RejectedInv s.backend)
    (hallowed : TrapsAllowed s trap) (htrap : TakesTrap s trap)
    (hwalking : Along recoveryNext (fun s _ => GrantsExact s.backend.rob)
      (recoveryNext s trap) walk) {e : Entry InFlight}
    (hget : s.backend.rob.entries[trapPops s trap]? = some e)
    (hop : Rejected e.tag.op)
    (hlen : walk.length = s.backend.rob.entries.length - trapPops s trap) :
    IllegalTrap s trap walk e := by
  obtain ⟨n, e', hprecise⟩ := preciseTrap_of_inv h hallowed.exact hallowed.cycle hallowed.accepts
    htrap hwalking hlen
  have hslot := hprecise.atTrap.slot
  rw [← hprecise.atTrap.retires, hget, Option.some_inj] at hslot
  obtain rfl := hslot
  obtain rfl := hprecise.atTrap.retires
  obtain ⟨hcycle, hinv, hwalk⟩ := trap_starts_walk h hallowed.exact hallowed.cycle
    hallowed.accepts htrap
  have hleft := hcycle.left
  refine ⟨hprecise, trap_noJump h hr htrap.1 htrap.2 hget hop,
    fun j hj => walk_noJump (hprecise.inWalk.walking j hj), fun hkind j hj hlast => ?_⟩
  have hpos : j = s.backend.rob.entries.length - trapPops s trap - 1 := by omega
  obtain ⟨hj', hwj, hkeeps⟩ := walk_states hinv hwalk hwalking j (Nat.le_of_eq hpos) (by omega)
  have hzero : s.backend.rob.entries.length - trapPops s trap - 1 - j = 0 := by
    rw [hpos]
    exact Nat.sub_self _
  rw [hzero] at hwj
  have hflush := hkeeps.curState.trans
    (show (recoveryNext s trap).backend.commit.curState = .flush from hkind)
  obtain ⟨hmtval, hmcause, hquiet, hexc, hpc⟩ :=
    @walk_csr_exception (recoveryCommitData _ walk[j]) _ _ (recoveryBackendInput _ walk[j])
      hj'.toSettled hwj hflush
  have hitem :
      (run recoveryNext (recoveryNext s trap) (walk.take j)).backend.commit.curRobItem =
        e.item := by
    obtain ⟨_, rfl⟩ := List.getElem?_eq_some_iff.1 hget
    exact hkeeps.curRobItem.trans hcycle.curRobItem
  obtain ⟨hlt, rfl⟩ := List.getElem?_eq_some_iff.1 hget
  have hfinish : s.backend.rob.entries[trapPops s trap].item.finish = true := by
    rcases trap_cause h.toSettled htrap.1 htrap.2 with ⟨_, _, _, hhead⟩ | ⟨hother, _⟩
    · rw [← retireData_eq (backend_view _ _ h.rob) hlt]
      exact retireValid_finish hhead
    · exact CommitFsm.noConfusion (hkind.symm.trans hother)
  obtain ⟨_, hid, hvalue⟩ := (hr.entries _ (List.getElem_mem hlt) hop).exceptionId hfinish
  rw [hitem, hvalue] at hmtval
  rw [hitem, hid] at hmcause
  exact ⟨(hprecise.inWalk.mepc j hj hlast).1, hmtval, hmcause, hquiet, hexc, hpc⟩

/-- No channel writes a register for a rejected instruction. -/
theorem rejected_silent {input : RecoveryInput} (hr : RejectedInv s.backend)
    (hunits : UnitsAnswer s.backend input.backend)
    {k j : Nat} {e : Entry InFlight} (hget : s.backend.rob.entries[k]? = some e)
    (hop : Rejected e.tag.op)
    (hj : j < wbWidth) (henable : (input.backend.executeWb j).enable = true)
    (hid : (input.backend.executeWb j).robId = s.backend.rob.idAt k) :
    wbPhyfWe (commitFeedbackPack s.backend.commit (recoveryCommitInput s input))
      input.backend.executeWb j = false := by
  obtain ⟨hk, rfl⟩ := List.getElem?_eq_some_iff.1 hget
  have hunit := (hr.entries _ (List.getElem_mem hk) hop).opUnit
  have hresult := rejectedResult_of_unit hop hunit (hunits j hj henable k hk hid)
  simp [wbPhyfWe, hresult.valid]

theorem rejectedTraps_of_inv {input : RecoveryInput} (h : TrapsInv s)
    (hallowed : TrapsAllowed s input) : RejectedTraps s input := by
  obtain ⟨⟨⟨m, hinv⟩, _⟩, hr⟩ := h
  refine ⟨fun k e hk hget => popped_not_rejected hinv hr hk hget, fun e hstate hget hop hfinish => ?_,
    fun e walk htrap hwalking hget hop hlen =>
      illegalTrap_of_inv hinv hr hallowed htrap hwalking hget hop hlen,
    fun k e j hget hop hj henable hid => rejected_silent hr hallowed.units hget hop hj henable hid,
    fun e he hop x hx => ?_, fun k e e' hget hop hget' =>
      rejected_keeps_map hinv.toSettled hget hop hget',
    fun k e a hget h1 h2 => source_supplied hinv.toSettled hget (mem_archRegs.2 ⟨h1, h2⟩)⟩
  · obtain ⟨hlen, rfl⟩ := List.getElem?_eq_some_iff.1 hget
    have hok := hr.entries _ (List.getElem_mem hlen) hop
    obtain ⟨htrap, hcause⟩ := @head_traps (recoveryCommitData s input) m s.backend
      (recoveryBackendInput s input) hinv.toSettled hstate hlen hfinish (hok.exceptionId hfinish).1
    exact ⟨⟨hstate, htrap⟩, hcause⟩
  · exact exlsuStbufPush_rejected ((congrArg (·.valid) hx).trans hop.1)

end Whole

/-- In every run that renames no rejected BRANCH, LOAD or STORE word and no rejected OP or
OP-IMM word with a destination, overwrites no checkpoint and leaves a wrapped reorder buffer
a bundle, every rejected instruction traps and has no effect. -/
theorem rejected_words_trap (robBuffer : Nat → RobItem) (buffer : Nat → Checkpoint)
    {before : List RecoveryInput} {input : RecoveryInput}
    (hallowed : Along recoveryNext (fun s input => CycleAllowed s.backend input.backend)
      (recoveryReset robBuffer buffer) (before ++ [input]))
    (hunits : Along recoveryNext (fun s input => UnitsAnswer s.backend input.backend)
      (recoveryReset robBuffer buffer) (before ++ [input]))
    (hharmless : Along recoveryNext RenamesHarmless (recoveryReset robBuffer buffer)
      (before ++ [input]))
    (hover : Along recoveryNext NoOverwrite (recoveryReset robBuffer buffer) before)
    (hexact : Along recoveryNext (fun s _ => GrantsExact s.backend.rob)
      (recoveryReset robBuffer buffer) (before ++ [input])) :
    RejectedTraps (run recoveryNext (recoveryReset robBuffer buffer) before) input := by
  have hall : Along recoveryNext TrapsAllowed (recoveryReset robBuffer buffer)
      (before ++ [input]) :=
    (((hallowed.and hunits).and hharmless).and hexact).mono
      fun _ _ h => ⟨h.1.1.1, h.1.1.2, h.1.2, h.2⟩
  rw [along_append] at hall
  have hinv := invariant_run (fun _ _ h hc => trapsInv_next h hc.1 hc.2)
    (trapsInv_reset robBuffer buffer) (hall.1.and hover)
  exact rejectedTraps_of_inv hinv hall.2.1

/-! ## One rejected word -/

instance (cp : Nat → Checkpoint) (s : BackendState) (input : BackendInput) :
    Decidable (RejectedHarmless cp s input) :=
  inferInstanceAs (Decidable (∀ e ∈ _, _ → _))

/-- What issue sends for an instruction whose sources are zero. -/
def issued (op : DecodeRenamePack) : ReadregIssueOpInfo :=
  { ExecuteWbPack.zero.toReadregIssueOpInfo with toDecodeRenamePack := op }

theorem unitsAnswer_offer (s : BackendState) (bundle : List DecodeRenamePack) :
    UnitsAnswer s (offer bundle) := fun _ _ henable => absurd henable Bool.false_ne_true

theorem unitsAnswer_answers {s : BackendState} {op : DecodeRenamePack} {w : ExecuteWbPack}
    (hop : ∀ e ∈ s.rob.entries, e.tag.op = op) (hw : UnitResult op w) :
    UnitsAnswer s (answers w ExecuteWbPack.zero) := by
  intro j _ henable k hk _
  have hfirst : j = 0 := by
    rcases answers_enable henable with rfl | rfl
    · rfl
    · exact absurd henable Bool.false_ne_true
  subst hfirst
  rw [hop _ (List.getElem_mem hk)]
  exact hw

/-- A word of an opcode the decoder does not know. -/
def unknownWord : DecodeRenamePack := decode (fetched 0x80000000 0x0000007f)

def unknownAlone : List RecoveryInput :=
  [offer [unknownWord],
    answers (executeAlu (issueDataConverted (issued unknownWord))) ExecuteWbPack.zero,
    offer []].map plainCycle

theorem rejected_words_trap_unknown :
    RejectedTraps (run recoveryNext zeroReset unknownAlone) (plainCycle (offer [])) := by
  have hidle : ∀ {s : BackendState}, CycleAllowed s (offer []) := offer_allowed nothing_decoded
  refine @rejected_words_trap _ _ unknownAlone _ ⟨?_, ?_, hidle, hidle, trivial⟩
    ⟨unitsAnswer_offer _ _, unitsAnswer_answers ?_ ⟨issued unknownWord, rfl, fun _ => rfl, ?_, ?_⟩,
      unitsAnswer_offer _ _, unitsAnswer_offer _ _, trivial⟩
    (by decide +kernel) (by decide +kernel) (by decide +kernel)
  · exact offer_allowed (decodedBundle_map (by decide) (by decide) (by decide) (by decide) :
      DecodedBundle ([fetched 0x80000000 0x0000007f].map decode))
  · refine ⟨nothing_decoded, ⟨fun j hj henable => ?_, by decide +kernel⟩, by decide +kernel⟩
    have hfirst : j = 0 := by
      revert j
      decide +kernel
    subst hfirst
    refine ⟨0, by decide +kernel, by decide +kernel, by decide +kernel, ?_⟩
    constructor <;> decide +kernel
  · decide +kernel
  · exact fun hunit => absurd hunit (by decide +kernel)
  · exact fun hunit => absurd hunit (by decide +kernel)

/-- A BRANCH word with the reserved `funct3` 2, offset 8 and both sources `x0`. -/
def reservedBranch : DecodeRenamePack := decode (fetched 0x80000000 0x00002463)

def reservedBranchAlone : List RecoveryInput :=
  [offer [reservedBranch],
    answers (executeBru 0 (issueDataConverted (issued reservedBranch))) ExecuteWbPack.zero,
    offer []].map plainCycle

/-- The branch unit takes the rejected word for a `beq`: it retires and commit jumps to its
target. -/
theorem rejected_branch_jumps :
    Along recoveryNext (fun s input => CycleAllowed s.backend input.backend) zeroReset
        (reservedBranchAlone ++ [plainCycle (offer [])]) ∧
      Along recoveryNext (fun s input => UnitsAnswer s.backend input.backend) zeroReset
        (reservedBranchAlone ++ [plainCycle (offer [])]) ∧
      Rejected reservedBranch ∧
      (let s := run recoveryNext zeroReset reservedBranchAlone
       let fb := commitFeedbackPack s.backend.commit (recoveryCommitInput s (plainCycle (offer [])))
       fb.jumpEnable = true ∧ fb.jump = true ∧ fb.nextPc = 0x80000008) ∧
      ¬RejectedTraps (run recoveryNext zeroReset reservedBranchAlone) (plainCycle (offer [])) := by
  have hidle : ∀ {s : BackendState}, CycleAllowed s (offer []) := offer_allowed nothing_decoded
  refine ⟨⟨?_, ?_, hidle, hidle, trivial⟩,
    ⟨unitsAnswer_offer _ _,
      unitsAnswer_answers ?_ ⟨issued reservedBranch, rfl, ?_, fun _ => ⟨0, rfl⟩, ?_⟩,
      unitsAnswer_offer _ _, unitsAnswer_offer _ _, trivial⟩, by decide +kernel,
    by decide +kernel, fun h => ?_⟩
  · exact offer_allowed (decodedBundle_map (by decide) (by decide) (by decide) (by decide) :
      DecodedBundle ([fetched 0x80000000 0x00002463].map decode))
  · refine ⟨nothing_decoded, ⟨fun j hj henable => ?_, by decide +kernel⟩, by decide +kernel⟩
    have hfirst : j = 0 := by
      revert j
      decide +kernel
    subst hfirst
    refine ⟨0, by decide +kernel, by decide +kernel, by decide +kernel, ?_⟩
    constructor <;> decide +kernel
  · decide +kernel
  · exact fun hunit => absurd hunit (by decide +kernel)
  · exact fun hunit => absurd hunit (by decide +kernel)
  · have hhead : (run recoveryNext zeroReset reservedBranchAlone).backend.rob.entries[0]?.map
        (fun e => decide (Rejected e.tag.op)) = some true := by decide +kernel
    obtain ⟨e, hget, hrejected⟩ := Option.map_eq_some_iff.1 hhead
    exact h.kept 0 e (by decide +kernel) hget (of_decide_eq_true hrejected)

end DreamCore.Proofs
