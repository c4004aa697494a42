import DreamCore.Proofs.TrapRuns

/-!
# The retired-instruction counter

The retire mask includes the slot of a trapping instruction, and the end of its walk
counts the trap once more.  So the hardware counts every exception twice; without
exceptions it agrees with the C++ model, which counts instructions and traps.
-/

namespace DreamCore.Proofs

open DreamCore.Clocked DreamCore.Model DreamCore.Ring DreamCore.Rtl

/-! ## One cycle of the hardware -/

section Count

variable {s : CommitState} {c : CommitInput}

/-- The gate is open unless an interrupt keeps every slot from retiring. -/
theorem gate_or_quiet (hstate : s.curState = .normal) :
    retireGate s c = true ∨ ∀ i, commitRobRetireValid s c i = false := by
  cases hint : c.intifCommitHasInterrupt with
  | true => exact .inr (nothing_valid hint)
  | false =>
      left
      have hnext : commitNextState s c ≠ .interruptFlush := by
        unfold commitNextState
        rw [hstate, hint, Bool.and_false]
        simp only [Bool.false_eq_true, if_false]
        split <;> exact CommitFsm.noConfusion
      simp [retireGate, hstate, hnext]

/-- The retire mask has the popped slots and the slot of an exception. -/
theorem countValid_eq (hstate : s.curState = .normal) :
    countOne commitWidth (commitRobRetireValid s c) =
      popCount s c + (retireHasException s c).toNat := by
  cases hexc : retireHasException s c with
  | false =>
      have hnone := anyBit_eq_false_iff.1 hexc
      refine countOne_congr fun i hi => ?_
      have hi' := hnone i hi
      rw [retireHasExceptionCmp] at hi'
      rw [commitRobRetirePop]
      rcases gate_or_quiet (c := c) hstate with hgate | hquiet
      · cases hvalid : commitRobRetireValid s c i with
        | false => rw [Bool.and_false, Bool.false_and]
        | true =>
            rw [hvalid, Bool.true_and] at hi'
            rw [hgate, hi']
            rfl
      · rw [hquiet, Bool.and_false, Bool.false_and]
  | true =>
      obtain ⟨i, hi, hcmp⟩ := anyBit_iff.1 hexc
      obtain ⟨hvalid, hdata⟩ := (Bool.and_eq_true _ _).mp hcmp
      have hgate : retireGate s c = true := by
        rcases gate_or_quiet (c := c) hstate with hgate | hquiet
        · exact hgate
        · exact absurd (hquiet i ▸ hvalid) Bool.false_ne_true
      rw [popCount_exception hi hgate hvalid hdata, Bool.toNat_true]
      refine countOne_block hi fun j hj => ?_
      rcases Nat.lt_or_ge j (i + 1) with hlt | hge
      · rw [decide_eq_true hlt]
        rcases Nat.lt_succ_iff_lt_or_eq.1 hlt with hbefore | rfl
        · exact (retireValid_before hbefore hvalid).1
        · exact hvalid
      · rw [decide_eq_false (by omega)]
        exact retireValid_after hge (.inr (.inl hdata))

theorem commitNumAdd_eq :
    commitNumAdd s c = countOne commitWidth (commitRobRetireValid s c) :=
  countOneContinuous_eq (by decide) fun _ _ hvalid => (retireValid_succ hvalid).1

end Count

section Cycle

variable {s : TrapState} {input : TrapInput}

theorem takesException_iff (h : TrapInv s) (hstate : s.commit.curState = .normal) :
    TakesException s input ↔
      retireHasException s.commit (trapCommitInput s input) = true := by
  unfold TakesException commitNextState
  rw [hstate]
  constructor
  · rintro ⟨_, hnext⟩
    cases hexc : retireHasException s.commit (trapCommitInput s input) with
    | true => rfl
    | false =>
        simp only [hexc, Bool.and_false, Bool.false_eq_true, if_false] at hnext
        split at hnext <;> exact CommitFsm.noConfusion hnext
  · intro hexc
    obtain ⟨hempty, hint, _⟩ := retireHasException_spec (trapView input h.wf) hexc
    simp [hexc, hempty, hint]

/-- A cycle counts what retires, a trap whose walk ends, and an exception it takes. -/
theorem numAdded_eq (h : TrapInv s) : numAdded s input =
    numRetired s input + numTraps s input + if TakesException s input then 1 else 0 := by
  unfold numAdded numRetired numTraps commitCsrfCommitNumAdd
  by_cases hstate : s.commit.curState = .normal
  · have henter : ¬EntersHandler s input := fun henter => henter.1 hstate
    rw [if_pos hstate, if_neg henter, commitNumAdd_eq, countValid_eq hstate, Nat.add_zero]
    by_cases hexc : TakesException s input
    · rw [if_pos hexc, (takesException_iff h hstate).1 hexc, Bool.toNat_true]
    · rw [if_neg hexc, Bool.eq_false_iff.2 (mt (takesException_iff h hstate).2 hexc),
        Bool.toNat_false]
  · have hexc : ¬TakesException s input := fun hexc => hstate hexc.1
    obtain ⟨k, hw⟩ := h.walking hstate
    rw [if_neg hstate, if_neg hexc, (walk_quiet hw).2.1, Nat.zero_add, Nat.add_zero]
    simp only [EntersHandler, hstate, ne_eq, not_false_eq_true, true_and]

/-! ## The C++ model in step -/

/-- While walking, both stages stand at the same entry of the same trap. -/
structure InStep (s : TrapState) (t : Cpp.CommitState) : Prop where
  curState : t.curState = s.commit.curState
  restore : s.commit.curState ≠ .normal → t.restoreRobItemId = s.commit.restoreRobItemId
  item : s.commit.curState ≠ .normal → t.robItemId = s.commit.robItemId

theorem popped_length (s : CommitState) (c : CommitInput) :
    (hardwareEffects s c).popped.length = popCount s c := by
  show ((slots (commitRobRetirePop s c)).map (retireId c)).length = _
  rw [List.length_map, popCount, countOne_eq_filter]
  rfl

theorem cppCause_isSome (s : TrapState) (input : TrapInput) :
    (cppCommitInput s input).cause.isSome = (trapCommitInput s input).intifCommitHasInterrupt := by
  show (if intifCommitHasInterrupt input.lines s.csr then _ else _ : Option Nat).isSome =
    intifCommitHasInterrupt input.lines s.csr
  cases intifCommitHasInterrupt input.lines s.csr <;> rfl

theorem trapCycle_normal (h : TrapInv s) (hstate : s.commit.curState = .normal)
    (hne : (trapNext s input).commit.curState ≠ .normal) :
    TrapCycle s.commit (trapCommitInput s input) s.rob := by
  rcases normal_cycle (trapView input h.wf) h.branchesClean hstate with
    hkeep | ⟨i, hmiss⟩ | htrap
  · exact absurd hkeep.nextState hne
  · exact absurd hmiss.nextState hne
  · exact htrap

theorem inStep_normal {t : Cpp.CommitState} (h : TrapInv s) (ht : InStep s t)
    (hstate : s.commit.curState = .normal) :
    ∃ r, Cpp.commitRun (cppCommitInput s input) t = some r ∧ InStep (trapNext s input) r.state ∧
      r.commitNum = numRetired s input := by
  have hwindow : CppWindow (cppCommitInput s input).rob (cppCommitInput s input).buffer
      (listContents s.rob) := cppWindow_list h.wf
  obtain ⟨r, hrun, hends⟩ := commitRun_normal hwindow h.allWritten h.mstatus
    (ht.curState.trans hstate)
  have hsequential := hardware_sequential (window_list (trapView input h.wf)) hstate
    h.allWritten.noBranchTraps
  rw [cppCause_isSome] at hends
  change RunEnds _ _ (retireSequentially (trapCommitInput s input).csrfAllMstatusData _ _) r
    at hends
  rw [← hsequential] at hends
  refine ⟨r, hrun, ⟨hends.curState, fun hne => ?_, fun hne => ?_⟩, ?_⟩
  · have hrestore : (trapNext s input).commit.restoreRobItemId = s.rob.flushTailId := by
      have hne' : commitNextState s.commit (trapCommitInput s input) ≠ .normal := hne
      show (commitNext s.commit (trapCommitInput s input)).restoreRobItemId = _
      simp only [commitNext, hstate, hne', ne_eq, not_false_eq_true, and_self, if_true]
      rfl
    have hleft := (trapCycle_normal h hstate hne).left
    have hlast : s.rob.entries.length - 1 < (listContents s.rob).length := by
      rw [listContents_length]
      omega
    obtain ⟨_, hget⟩ := listContents_getElem hlast
    have htail := hends.restore hne
    rw [List.getLast?_eq_getElem?, listContents_length, List.getElem?_eq_getElem hlast, hget,
      Option.map_some, Option.some_inj] at htail
    rw [hrestore, flushTailId_eq (List.ne_nil_of_length_pos (by omega))]
    exact htail.symm
  · have htrap := trapCycle_normal h hstate hne
    have hitem : (listContents s.rob)[popCount s.commit (trapCommitInput s input)]?.map (·.1) =
        some r.state.robItemId := by
      cases hnext : commitNextState s.commit (trapCommitInput s input) with
      | normal => exact absurd hnext hne
      | flush =>
          have hat := hends.flush hnext
          rw [popped_length] at hat
          rw [hat]
          rfl
      | interruptFlush =>
          have hgate : retireGate s.commit (trapCommitInput s input) = false := by
            simp [retireGate, hnext]
          have hpop : popCount s.commit (trapCommitInput s input) = 0 := by
            have hle : popCount s.commit (trapCommitInput s input) ≤ 0 :=
              countOne_le_bound fun i _ hi => by simp [commitRobRetirePop, hgate] at hi
            omega
          rw [hpop, (hends.interrupt hnext).1]
          rfl
    have hlt : popCount s.commit (trapCommitInput s input) < (listContents s.rob).length := by
      rw [listContents_length]
      exact htrap.left
    obtain ⟨_, hget⟩ := listContents_getElem hlt
    rw [List.getElem?_eq_getElem hlt, hget, Option.map_some, Option.some_inj] at hitem
    rw [← hitem]
    exact htrap.robItemId.symm
  · rw [hends.commitNum, popped_length]
    rfl

theorem inStep_walk {t : Cpp.CommitState} (h : TrapInv s) (ht : InStep s t) {k : Nat}
    (hw : WalkAt s.commit s.rob k) :
    ∃ r, Cpp.commitRun (cppCommitInput s input) t = some r ∧ InStep (trapNext s input) r.state ∧
      r.commitNum = numTraps s input := by
  have hstate := hw.notNormal
  have hrestore := (ht.restore hstate).trans hw.restoreRobItemId
  have hitem := (ht.item hstate).trans hw.robItemId
  have hrun : Cpp.commitRun (cppCommitInput s input) t = Cpp.runFlush (cppCommitInput s input) t := by
    unfold Cpp.commitRun
    cases hcur : t.curState with
    | normal => exact absurd (ht.curState.symm.trans hcur) hstate
    | flush => rfl
    | interruptFlush => rfl
  have hwindow : CppWindow (cppCommitInput s input).rob (cppCommitInput s input).buffer
      (listContents s.rob) := cppWindow_list h.wf
  have hnext := walk_nextState (trapView input h.wf) hw
  have hlen : k < (listContents s.rob).length := by
    rw [listContents_length]
    exact hw.inList
  rw [hrun]
  cases k with
  | zero =>
      obtain ⟨prevId, inUse, hprev⟩ := hwindow.prevHead hlen
      obtain ⟨_, hget⟩ := listContents_getElem hlen
      rw [hget, ← hrestore] at hprev
      obtain ⟨r, hr, hcur, hnum⟩ := runFlush_last hprev (hrestore.trans hitem.symm)
      have hdone : (trapNext s input).commit.curState = .normal := hnext
      refine ⟨r, hr, ⟨hcur.trans hdone.symm, fun hne => absurd hdone hne,
        fun hne => absurd hdone hne⟩, ?_⟩
      rw [hnum, numTraps, if_pos ⟨hstate, hnext⟩]
  | succ k =>
      have hprev := hwindow.prev k hlen
      obtain ⟨_, hget⟩ := listContents_getElem hlen
      obtain ⟨_, hget'⟩ := listContents_getElem (by omega : k < (listContents s.rob).length)
      rw [hget, hget', ← hrestore] at hprev
      have hmore : t.restoreRobItemId ≠ t.robItemId := by
        have hsize := h.wf.2
        have hin := hw.inList
        intro heq
        rw [hrestore, hitem] at heq
        have := idAt_inj h.wf (by omega) (by decide) heq
        omega
      obtain ⟨r, hr, hsame, hnum⟩ := runFlush_step hprev hmore
      have hstays : (trapNext s input).commit.curState = s.commit.curState := hnext
      refine ⟨r, hr, ⟨?_, fun _ => ?_, fun _ => ?_⟩, ?_⟩
      · rw [hsame, hstays]
        exact ht.curState
      · rw [hsame]
        show s.rob.idAt k = (commitNext s.commit (trapCommitInput s input)).restoreRobItemId
        simp only [commitNext, hstate, false_and, if_false, ne_eq, not_false_eq_true, if_true]
        rw [walk_flushId hw, robCommitFlushNextId_idAt]
      · rw [hsame]
        show t.robItemId = (commitNext s.commit (trapCommitInput s input)).robItemId
        simp only [commitNext, hstate, false_and, if_false]
        exact ht.item hstate
      · have henter : ¬EntersHandler s input := fun henter => hstate (hnext.symm.trans henter.2)
        rw [hnum, numTraps, if_neg henter]

/-- In every cycle the C++ stage runs without failure, counts what retires and what ends
a trap, and stays in step. -/
theorem inStep_next {t : Cpp.CommitState} (h : TrapInv s) (ht : InStep s t) :
    ∃ r, Cpp.commitRun (cppCommitInput s input) t = some r ∧ InStep (trapNext s input) r.state ∧
      r.commitNum = numRetired s input + numTraps s input := by
  by_cases hstate : s.commit.curState = .normal
  · obtain ⟨r, hrun, hstep, hnum⟩ := @inStep_normal s input t h ht hstate
    have henter : ¬EntersHandler s input := fun henter => henter.1 hstate
    refine ⟨r, hrun, hstep, ?_⟩
    rw [hnum, numTraps, if_neg henter, Nat.add_zero]
  · obtain ⟨k, hw⟩ := h.walking hstate
    obtain ⟨r, hrun, hstep, hnum⟩ := @inStep_walk s input t h ht k hw
    refine ⟨r, hrun, hstep, ?_⟩
    rw [hnum, numRetired, (walk_quiet hw).2.1, Nat.zero_add]

end Cycle

/-! ## Every run -/

/-- Over a run the counter has counted each retired instruction and each trap once, and
so has the C++ model. -/
def CountedOnce (s : TrapState) (t : Cpp.CommitState) (inputs : List TrapInput) : Prop :=
  total numAdded s inputs = total numRetired s inputs + total numTraps s inputs ∧
    cppCommitNum s t inputs = some (total numAdded s inputs)

theorem cppCommitNum_eq {s : TrapState} {t : Cpp.CommitState} {inputs : List TrapInput}
    (h : TrapInv s) (ht : InStep s t) (hallowed : Along trapNext TrapAllowed s inputs) :
    cppCommitNum s t inputs = some (total numRetired s inputs + total numTraps s inputs) := by
  induction inputs generalizing s t with
  | nil => rfl
  | cons input inputs ih =>
      obtain ⟨r, hrun, hstep, hnum⟩ := @inStep_next s input t h ht
      rw [cppCommitNum, hrun, Option.bind_some, ih (trapInv_next h hallowed.1) hstep hallowed.2,
        Option.map_some, hnum, total, total]
      congr 1
      omega

/-- The counter is ahead by the number of exceptions taken. -/
theorem total_numAdded {s : TrapState} {inputs : List TrapInput} (h : TrapInv s)
    (hallowed : Along trapNext TrapAllowed s inputs) :
    total numAdded s inputs = total numRetired s inputs + total numTraps s inputs +
      total (fun s input => if TakesException s input then 1 else 0) s inputs := by
  induction inputs generalizing s with
  | nil => rfl
  | cons input inputs ih =>
      rw [total, total, total, total, ih (trapInv_next h hallowed.1) hallowed.2, numAdded_eq h]
      omega

theorem total_exceptions {s : TrapState} {inputs : List TrapInput} :
    total (fun s input => if TakesException s input then 1 else 0) s inputs = 0 ↔
      Along trapNext (fun s input => ¬TakesException s input) s inputs := by
  induction inputs generalizing s with
  | nil => simp [total]
  | cons input inputs ih =>
      rw [total, along_cons, Nat.add_eq_zero_iff, ih]
      by_cases hexc : TakesException s input <;> simp [hexc]

/-! ### The counter register -/

/-- The 64-bit value of `minstreth` and `minstret`. -/
def minstretValue (csr : CsrFile) : Nat := csr Csr.minstreth * 2 ^ 32 + csr Csr.minstret

/-- No instruction writes the counter in this cycle. -/
def MinstretUnwritten (s : TrapState) (input : TrapInput) : Prop :=
  ∀ j, j < commitWidth → (commitCsrfWrite s.commit (trapCommitInput s input) j).we = true →
    (commitCsrfWrite s.commit (trapCommitInput s input) j).addr ≠ Csr.minstret ∧
      (commitCsrfWrite s.commit (trapCommitInput s input) j).addr ≠ Csr.minstreth

theorem csrKept_minstret (s : CsrFile) (input : CsrFileInput) :
    csrKept s input Csr.minstret = csrMinstretNext s input % 2 ^ 32 := by
  simp [csrKept]

theorem csrKept_minstreth (s : CsrFile) (input : CsrFileInput) :
    csrKept s input Csr.minstreth = csrMinstretNext s input / 2 ^ 32 := by
  simp [csrKept]

theorem minstret_next {s : TrapState} {input : TrapInput} (h : MinstretUnwritten s input) :
    minstretValue (trapNext s input).csr =
      (minstretValue s.csr + numAdded s input) % 2 ^ 64 := by
  have hlow : csrWriteEnable (trapCsrInput s input) Csr.minstret = false :=
    csrWriteEnable_false fun j hj hwe => (h j hj hwe).1
  have hhigh : csrWriteEnable (trapCsrInput s input) Csr.minstreth = false :=
    csrWriteEnable_false fun j hj hwe => (h j hj hwe).2
  show csrFileNext s.csr (trapCsrInput s input) Csr.minstreth * 2 ^ 32 +
    csrFileNext s.csr (trapCsrInput s input) Csr.minstret = _
  rw [csrFileNext, csrFileNext, hlow, hhigh, if_neg Bool.false_ne_true,
    if_neg Bool.false_ne_true, csrKept_minstret, csrKept_minstreth, Nat.div_add_mod',
    csrMinstretNext]
  rfl

/-- In a run that does not write it, the counter holds the sum of what is counted. -/
theorem minstret_total {s : TrapState} {inputs : List TrapInput}
    (hvalue : minstretValue s.csr < 2 ^ 64) (h : Along trapNext MinstretUnwritten s inputs) :
    minstretValue (run trapNext s inputs).csr =
      (minstretValue s.csr + total numAdded s inputs) % 2 ^ 64 := by
  induction inputs generalizing s with
  | nil => rw [run_nil, total, Nat.add_zero, Nat.mod_eq_of_lt hvalue]
  | cons input inputs ih =>
      have hnext := minstret_next h.1
      have hbound : minstretValue (trapNext s input).csr < 2 ^ 64 := by
        rw [hnext]
        exact Nat.mod_lt _ (Nat.two_pow_pos 64)
      rw [run_cons, ih hbound h.2, hnext, total, Nat.mod_add_mod,
        Nat.add_assoc]

/-- From reset every instruction and every trap is counted once if and only if no
exception is taken. -/
theorem counted_once_iff {inputs : List TrapInput}
    (hallowed : Along trapNext TrapAllowed trapReset inputs) :
    CountedOnce trapReset cppCommitReset inputs ↔
      Along trapNext (fun s input => ¬TakesException s input) trapReset inputs := by
  have hstep : InStep trapReset cppCommitReset :=
    ⟨rfl, fun hne => absurd rfl hne, fun hne => absurd rfl hne⟩
  have hcpp := cppCommitNum_eq trapReset_inv hstep hallowed
  have htotal := total_numAdded trapReset_inv hallowed
  rw [← total_exceptions, CountedOnce, hcpp, Option.some_inj]
  omega

/-- Three instructions retire and one interrupt is taken. -/
theorem counted_once_iff_interrupt :
    CountedOnce trapReset cppCommitReset interruptAndReturn ∧
      total numTraps trapReset interruptAndReturn = 1 ∧
      total numAdded trapReset interruptAndReturn = 4 :=
  ⟨(counted_once_iff (by decide +kernel)).2 (by decide +kernel), by decide +kernel,
    by decide +kernel⟩

/-- An instruction goes through the pipeline alone and ends with or without exception. -/
def aloneThrough (hasException : Bool) : List TrapInput :=
  [pushOne { RobItem.zero with pc := 0x80000000 },
    resultOne { ExecuteWbPack.zero with enable := true, hasException := hasException },
    trapIdle, trapIdle]

/-- A single `ecall` counts twice in the hardware and once in the C++ model. -/
theorem exception_counted_twice :
    Along trapNext TrapAllowed trapReset (aloneThrough true) ∧
      total numRetired trapReset (aloneThrough true) = 0 ∧
      total numTraps trapReset (aloneThrough true) = 1 ∧
      total numAdded trapReset (aloneThrough true) = 2 ∧
      cppCommitNum trapReset cppCommitReset (aloneThrough true) = some 1 ∧
      ¬CountedOnce trapReset cppCommitReset (aloneThrough true) := by
  refine ⟨by decide +kernel, by decide +kernel, by decide +kernel, by decide +kernel,
    by decide +kernel, ?_⟩
  rintro ⟨htotal, _⟩
  revert htotal
  decide +kernel

end DreamCore.Proofs
