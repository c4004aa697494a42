import DreamCore.Proofs.TrapRuns

/-!
# The interrupt-enable stack

An accepted interrupt moves `MIE` into `MPIE` and clears it; `mret` moves it back.  The
end of an exception's walk writes `mepc`, `mtval` and `mcause` only, so its handler
starts with whatever `MIE` was.
-/

namespace DreamCore.Proofs

open DreamCore.Clocked DreamCore.Model DreamCore.Rtl

/-! ## The bits of `mstatus` -/

/-- What a trap entry has to do to `mstatus`. -/
structure Pushes (old new : Nat) : Prop where
  mpie : mstatusMpie new = mstatusMie old
  mie : mstatusMie new = false
  other : ∀ b, b ≠ 3 → b ≠ 7 → new.testBit b = old.testBit b

/-- The implemented bits leave four values. -/
theorem mstatus_cases {m : Nat} (h : m &&& 0x88 = m) : m = 0 ∨ m = 8 ∨ m = 0x80 ∨ m = 0x88 := by
  have hall : ∀ m, m < 0x89 → m &&& 0x88 = m → m = 0 ∨ m = 8 ∨ m = 0x80 ∨ m = 0x88 := by
    decide +kernel
  have hle : m &&& 0x88 ≤ 0x88 := Nat.and_le_right
  exact hall m (by omega) h

/-- Bits other than `MIE` and `MPIE` read as zero. -/
theorem masked_other {m : Nat} (h : m &&& 0x88 = m) {b : Nat} (h3 : b ≠ 3) (h7 : b ≠ 7) :
    m.testBit b = false := by
  have hmask : (0x88 : Nat).testBit b = false := by
    rw [show (0x88 : Nat) = 2 ^ 7 ||| 2 ^ 3 from rfl, Nat.testBit_or, Nat.testBit_two_pow,
      Nat.testBit_two_pow, decide_eq_false (Ne.symm h7), decide_eq_false (Ne.symm h3)]
    rfl
  rw [← h, Nat.testBit_and, hmask, Bool.and_false]

theorem pushes_of_masked {old new : Nat} (hold : old &&& 0x88 = old) (hnew : new &&& 0x88 = new)
    (hmpie : mstatusMpie new = mstatusMie old) (hmie : mstatusMie new = false) :
    Pushes old new :=
  ⟨hmpie, hmie, fun _ h3 h7 => by rw [masked_other hnew h3 h7, masked_other hold h3 h7]⟩

/-- Leaving `mstatus` alone pushes only if both bits are clear. -/
theorem pushes_self_iff {m : Nat} (h : m &&& 0x88 = m) :
    Pushes m m ↔ mstatusMie m = false ∧ mstatusMpie m = false := by
  constructor
  · intro hpushes
    exact ⟨hpushes.mie, hpushes.mpie.trans hpushes.mie⟩
  · rintro ⟨hmie, hmpie⟩
    exact pushes_of_masked h h (hmpie.trans hmie.symm) hmie

/-! ## Writes to `mstatus` -/

section Write

variable {s : CsrFile} {input : CsrFileInput}

theorem mstatus_kept
    (h : ∀ j, j < commitWidth → (input.commitCsrfWrite j).we = true →
      (input.commitCsrfWrite j).addr ≠ Csr.mstatus) :
    csrFileNext s input Csr.mstatus = s Csr.mstatus := by
  rw [csrFileNext, csrWriteEnable_false h]
  rfl

theorem mstatus_written {i : Nat} (hi : i < commitWidth)
    (hwe : (input.commitCsrfWrite i).we = true)
    (haddr : (input.commitCsrfWrite i).addr = Csr.mstatus)
    (halone : ∀ j, j < commitWidth → (input.commitCsrfWrite j).we = true →
      (input.commitCsrfWrite j).addr = Csr.mstatus → j = i) :
    csrFileNext s input Csr.mstatus = (input.commitCsrfWrite i).data &&& 0x88 := by
  have hcmp : ∀ j, j < commitWidth → (csrWriteChannelCmp input Csr.mstatus j = true ↔ j = i) := by
    intro j hj
    rw [csrWriteChannelCmp, Bool.and_eq_true, decide_eq_true_iff]
    constructor
    · rintro ⟨haddrj, hwej⟩
      exact halone j hj hwej haddrj
    · rintro rfl
      exact ⟨haddr, hwe⟩
  have henable : csrWriteEnable input Csr.mstatus = true :=
    anyBit_iff.2 ⟨i, hi, (hcmp i hi).2 rfl⟩
  have hdata : csrWriteData input Csr.mstatus = (input.commitCsrfWrite i).data :=
    dataSelector_single Nat.zero_or Nat.or_zero hi hcmp
  rw [csrFileNext, henable, if_pos rfl, hdata]
  rfl

end Write

/-! ## Cycles of the machine -/

section Cycle

variable {s : TrapState} {input : TrapInput}

/-- In a cycle that enters a handler `mstatus` is pushed. -/
def EntryPushes (s : TrapState) (input : TrapInput) : Prop :=
  EntersHandler s input → Pushes (s.csr Csr.mstatus) ((trapNext s input).csr Csr.mstatus)

/-- In a cycle that enters the handler of an exception both bits are clear already. -/
def ExceptionsMasked (s : TrapState) (input : TrapInput) : Prop :=
  EntersHandler s input → s.commit.curState = .flush →
    mstatusMie (s.csr Csr.mstatus) = false ∧ mstatusMpie (s.csr Csr.mstatus) = false

instance : Decidable (ExceptionsMasked s input) := inferInstanceAs (Decidable (_ → _))

/-- While commit walks back without ending the walk, `mstatus` stays. -/
def WalkKeepsMstatus (s : TrapState) (input : TrapInput) : Prop :=
  s.commit.curState ≠ .normal → ¬EntersHandler s input →
    (trapNext s input).csr Csr.mstatus = s.csr Csr.mstatus

/-- An `mret` retires in slot `i`, and nothing else writes `mstatus` in this cycle. -/
structure Returns (s : TrapState) (input : TrapInput) (i : Nat) : Prop where
  slot : i < commitWidth
  pops : commitRobRetirePop s.commit (trapCommitInput s input) i = true
  mret : (retireData (trapCommitInput s input) i).isMret = true
  alone : ∀ j, j < commitWidth →
    (commitCsrfWrite s.commit (trapCommitInput s input) j).we = true →
    (commitCsrfWrite s.commit (trapCommitInput s input) j).addr = Csr.mstatus → j = i

theorem walkKeepsMstatus (s : TrapState) (input : TrapInput) : WalkKeepsMstatus s input := by
  intro hstate henter
  have hnext : commitNextState s.commit (trapCommitInput s input) ≠ .normal :=
    fun hnext => henter ⟨hstate, hnext⟩
  refine mstatus_kept fun j _ hwe => absurd hwe ?_
  show (commitCsrfWrite s.commit (trapCommitInput s input) j).we ≠ true
  unfold commitCsrfWrite
  cases hcur : s.commit.curState with
  | normal => exact absurd hcur hstate
  | flush =>
      have hdone : flushDone s.commit (trapCommitInput s input) = false := by
        simp [flushDone, hnext]
      simp only [flushCsrfWrite, hdone]
      split <;> exact Bool.false_ne_true
  | interruptFlush =>
      have hdone : interruptFlushDone s.commit (trapCommitInput s input) = false := by
        simp [interruptFlushDone, hnext]
      simp only [interruptFlushCsrfWrite, hdone]
      split <;> exact Bool.false_ne_true

/-- The handler of an exception starts with the old `mstatus`. -/
theorem mstatus_exception (hcur : s.commit.curState = .flush) :
    (trapNext s input).csr Csr.mstatus = s.csr Csr.mstatus := by
  refine mstatus_kept fun j _ _ => ?_
  show (commitCsrfWrite s.commit (trapCommitInput s input) j).addr ≠ Csr.mstatus
  simp only [commitCsrfWrite, hcur, flushCsrfWrite]
  split
  · exact (by decide : Csr.mepc ≠ Csr.mstatus)
  · exact (by decide : Csr.mtval ≠ Csr.mstatus)
  · exact (by decide : Csr.mcause ≠ Csr.mstatus)
  · exact (by decide : 0 ≠ Csr.mstatus)

/-- On the implemented bits the write of an interrupt pushes. -/
theorem interruptMstatus_pushes {c : CommitInput}
    (h : c.csrfAllMstatusData &&& 0x88 = c.csrfAllMstatusData) :
    Pushes c.csrfAllMstatusData (interruptMstatus c &&& 0x88) := by
  refine pushes_of_masked h (mask_idem _) ?_ ?_
  · unfold interruptMstatus mstatusMpie mstatusMie
    rcases mstatus_cases h with hm | hm | hm | hm <;> rw [hm] <;> decide
  · unfold interruptMstatus mstatusMie
    rcases mstatus_cases h with hm | hm | hm | hm <;> rw [hm] <;> decide

theorem mstatus_interrupt (henter : EntersHandler s input)
    (hcur : s.commit.curState = .interruptFlush) :
    (trapNext s input).csr Csr.mstatus =
      interruptMstatus (trapCommitInput s input) &&& 0x88 := by
  have hdone : interruptFlushDone s.commit (trapCommitInput s input) = true := by
    simp [interruptFlushDone, hcur, henter.2]
  have hwrite : ∀ j, commitCsrfWrite s.commit (trapCommitInput s input) j =
      interruptFlushCsrfWrite s.commit (trapCommitInput s input) j := fun j => by
    simp only [commitCsrfWrite, hcur]
  have hnext : (trapNext s input).csr Csr.mstatus =
      (commitCsrfWrite s.commit (trapCommitInput s input) 3).data &&& 0x88 :=
    mstatus_written (by decide) ((congrArg CsrWrite.we (hwrite 3)).trans hdone)
      (congrArg CsrWrite.addr (hwrite 3)) fun j hj _ haddr => ?_
  · exact hnext.trans (congrArg (·.data &&& 0x88) (hwrite 3))
  · replace haddr : (interruptFlushCsrfWrite s.commit (trapCommitInput s input) j).addr =
        Csr.mstatus := (congrArg CsrWrite.addr (hwrite j)).symm.trans haddr
    obtain rfl | rfl | rfl | rfl : j = 0 ∨ j = 1 ∨ j = 2 ∨ j = 3 := by
      simp only [commitWidth] at hj
      omega
    · exact absurd haddr (by decide : Csr.mepc ≠ Csr.mstatus)
    · exact absurd haddr (by decide : Csr.mtval ≠ Csr.mstatus)
    · exact absurd haddr (by decide : Csr.mcause ≠ Csr.mstatus)
    · rfl

theorem entryPushes_iff (h : TrapInv s) : EntryPushes s input ↔ ExceptionsMasked s input := by
  constructor
  · intro hpushes henter hcur
    have hall := hpushes henter
    rw [mstatus_exception hcur] at hall
    exact (pushes_self_iff h.mstatus).1 hall
  · intro hmasked henter
    cases hcur : s.commit.curState with
    | normal => exact absurd hcur henter.1
    | flush =>
        rw [mstatus_exception hcur]
        exact (pushes_self_iff h.mstatus).2 (hmasked henter hcur)
    | interruptFlush =>
        rw [mstatus_interrupt henter hcur]
        exact interruptMstatus_pushes (c := trapCommitInput s input) h.mstatus

/-- An `mret` that retires alone moves `MPIE` into `MIE`. -/
theorem mie_returns (h : TrapInv s) {i : Nat} (hret : Returns s input i) :
    mstatusMie ((trapNext s input).csr Csr.mstatus) = mstatusMpie (s.csr Csr.mstatus) := by
  have hpops := hret.pops
  simp only [commitRobRetirePop, Bool.and_eq_true, Bool.not_eq_true'] at hpops
  obtain ⟨⟨hgate, hvalid⟩, hexc⟩ := hpops
  have hstate : s.commit.curState = .normal := by
    simp only [retireGate, Bool.and_eq_true, decide_eq_true_eq] at hgate
    exact hgate.1
  have hwrite : commitCsrfWrite s.commit (trapCommitInput s input) i =
      ⟨true, Csr.mstatus, mretMstatus (trapCommitInput s input)⟩ := by
    simp only [commitCsrfWrite, hstate, normalCsrfWrite, hgate, hvalid, hexc, hret.mret]
    rfl
  have hnext : (trapNext s input).csr Csr.mstatus =
      (commitCsrfWrite s.commit (trapCommitInput s input) i).data &&& 0x88 :=
    mstatus_written hret.slot (congrArg CsrWrite.we hwrite) (congrArg CsrWrite.addr hwrite)
      hret.alone
  have hvalue : (trapNext s input).csr Csr.mstatus =
      mretMstatus (trapCommitInput s input) &&& 0x88 :=
    hnext.trans (congrArg (·.data &&& 0x88) hwrite)
  have hmask : (trapCommitInput s input).csrfAllMstatusData = s.csr Csr.mstatus := rfl
  rw [hvalue, mretMstatus, hmask]
  unfold mstatusMie mstatusMpie
  rcases mstatus_cases h.mstatus with hm | hm | hm | hm <;> rw [hm] <;> decide

end Cycle

/-! ## Every run -/

/-- Whatever runs in between, an `mret` that finds `mstatus` as the trap entry left it
enables interrupts exactly if they were enabled before the trap. -/
def ReturnsRestore (s : TrapState) (inputs : List TrapInput) : Prop :=
  ∀ before entry body ret after i, inputs = before ++ entry :: (body ++ ret :: after) →
    EntersHandler (run trapNext s before) entry →
    Returns (run trapNext s (before ++ entry :: body)) ret i →
    (run trapNext s (before ++ entry :: body)).csr Csr.mstatus =
      (run trapNext s (before ++ [entry])).csr Csr.mstatus →
    mstatusMie ((run trapNext s (before ++ entry :: (body ++ [ret]))).csr Csr.mstatus) =
      mstatusMie ((run trapNext s before).csr Csr.mstatus)

/-- Every trap entry pushes the interrupt enable, no walk changes it, and every return
restores it. -/
def StackKept (s : TrapState) (inputs : List TrapInput) : Prop :=
  Along trapNext EntryPushes s inputs ∧ Along trapNext WalkKeepsMstatus s inputs ∧
    ReturnsRestore s inputs

theorem returnsRestore_of_pushes {inputs : List TrapInput}
    (hallowed : Along trapNext TrapAllowed trapReset inputs)
    (hpushes : Along trapNext EntryPushes trapReset inputs) :
    ReturnsRestore trapReset inputs := by
  intro before entry body ret after i hinputs henter hret hsame
  have hsplit : inputs = (before ++ entry :: body) ++ ret :: after := by simp [hinputs]
  have hbefore : Along trapNext TrapAllowed trapReset (before ++ entry :: body) :=
    ((along_append trapNext TrapAllowed trapReset _ (ret :: after)).1 (hsplit ▸ hallowed)).1
  have hinv := invariant_run (fun _ _ => trapInv_next) trapReset_inv hbefore
  have hentry : EntryPushes (run trapNext trapReset before) entry := by
    rw [hinputs, along_append, along_cons] at hpushes
    exact hpushes.2.1
  have hlast : run trapNext trapReset (before ++ entry :: (body ++ [ret])) =
      trapNext (run trapNext trapReset (before ++ entry :: body)) ret := by
    rw [show before ++ entry :: (body ++ [ret]) = (before ++ entry :: body) ++ [ret] by simp,
      run_append]
    rfl
  have hfirst : run trapNext trapReset (before ++ [entry]) =
      trapNext (run trapNext trapReset before) entry := by
    rw [run_append]
    rfl
  calc mstatusMie ((run trapNext trapReset (before ++ entry :: (body ++ [ret]))).csr Csr.mstatus)
      = mstatusMpie ((run trapNext trapReset (before ++ entry :: body)).csr Csr.mstatus) := by
        rw [hlast]
        exact mie_returns hinv hret
    _ = mstatusMpie ((trapNext (run trapNext trapReset before) entry).csr Csr.mstatus) := by
        rw [hsame, hfirst]
    _ = mstatusMie ((run trapNext trapReset before).csr Csr.mstatus) := (hentry henter).mpie

/-- From reset the stack is kept if and only if every exception meets both bits clear. -/
theorem stack_kept_iff {inputs : List TrapInput}
    (hallowed : Along trapNext TrapAllowed trapReset inputs) :
    StackKept trapReset inputs ↔ Along trapNext ExceptionsMasked trapReset inputs := by
  have hinv := Along.strengthen (fun _ _ => trapInv_next) trapReset_inv hallowed
  constructor
  · rintro ⟨hpushes, _⟩
    exact (hinv.and hpushes).mono fun _ _ h => (entryPushes_iff h.1.1).1 h.2
  · intro hmasked
    have hpushes : Along trapNext EntryPushes trapReset inputs :=
      (hinv.and hmasked).mono fun _ _ h => (entryPushes_iff h.1.1).2 h.2
    exact ⟨hpushes, along_of_forall fun s input _ => walkKeepsMstatus s input,
      returnsRestore_of_pushes hallowed hpushes⟩

/-! ### An interrupt and an exception -/

theorem stack_kept_iff_interrupt : StackKept trapReset interruptAndReturn :=
  (stack_kept_iff (by decide +kernel)).2 (by decide +kernel)

/-- Interrupts are enabled and an instruction ends with an exception. -/
def enabledCall : List TrapInput :=
  csrWriteAlone Csr.mstatus 0x8 0 ++
    [pushOne RobItem.zero,
      resultOne { ExecuteWbPack.zero with enable := true, robId := 1, hasException := true },
      trapIdle, trapIdle]

/-- The handler of the exception starts with interrupts enabled. -/
theorem exception_enters_enabled :
    Along trapNext TrapAllowed trapReset enabledCall ∧
      EntersHandler (run trapNext trapReset enabledCall.dropLast) trapIdle ∧
      mstatusMie ((run trapNext trapReset enabledCall).csr Csr.mstatus) = true ∧
      ¬StackKept trapReset enabledCall := by
  have henter : EntersHandler (run trapNext trapReset enabledCall.dropLast) trapIdle := by
    decide +kernel
  have henabled : mstatusMie ((run trapNext trapReset enabledCall).csr Csr.mstatus) = true := by
    decide +kernel
  refine ⟨by decide +kernel, henter, henabled, ?_⟩
  rintro ⟨hpushes, _⟩
  have hentry : EntryPushes (run trapNext trapReset enabledCall.dropLast) trapIdle :=
    ((along_append trapNext EntryPushes trapReset enabledCall.dropLast [trapIdle]).1 hpushes).2.1
  exact Bool.false_ne_true ((hentry henter).mie.symm.trans henabled)

end DreamCore.Proofs
