import DreamCore.Proofs.Instruction

/-!
# The model carries out the instructions the hardware does

Decode and register read of the C++ model send the packs of the hardware and its units give
the same answers, so whatever the hardware carries out the model does too.
-/

namespace DreamCore.Proofs

open DreamCore.Model DreamCore.Rtl DreamCore.Rv32i

/-! ## The units of the C++ model -/

/-- Two answers that do not differ in what write-back and commit use. -/
structure SameAnswer (v w : ExecuteWbPack) : Prop where
  hasException : v.hasException = w.hasException
  exception : w.hasException = true →
    v.exceptionId = w.exceptionId ∧ v.exceptionValue = w.exceptionValue
  rdEnable : v.rdEnable = w.rdEnable
  rd : v.rd = w.rd
  needRename : v.needRename = w.needRename
  rdValue : w.hasException = false → v.rdValue = w.rdValue
  bruJump : v.bruJump = w.bruJump
  bruNextPc : v.bruNextPc = w.bruNextPc

theorem SameAnswer.writesRd {v w : ExecuteWbPack} (h : SameAnswer v w) {reg : BitVec 5}
    {value : BitVec 32} (hw : WritesRd w reg value) : WritesRd v reg value :=
  ⟨h.hasException.trans hw.hasException, h.rdEnable.trans hw.rdEnable, h.rd.trans hw.rd,
    h.needRename.trans hw.needRename, (h.rdValue hw.hasException).trans hw.rdValue⟩

theorem SameAnswer.writesNone {v w : ExecuteWbPack} (h : SameAnswer v w) (hw : WritesNone w) :
    WritesNone v :=
  ⟨h.hasException.trans hw.hasException, h.rdEnable.trans hw.rdEnable,
    h.needRename.trans hw.needRename⟩

section Cpp

variable {revPack : IssueExecutePack} {mepc : Nat}

/-- The switch raises the exception of the operation or sets its value. -/
theorem aluSwitch_eq : Cpp.aluSwitch revPack =
    if aluNewHasException revPack then
      Cpp.raise (Cpp.sendPackOf revPack) (aluNewExceptionId revPack)
    else { Cpp.sendPackOf revPack with rdValue := aluRdValue revPack } := by
  have hshift : revPack.src2Value &&& 31 = aluShift revPack :=
    Nat.and_two_pow_sub_one_eq_mod revPack.src2Value 5
  have hbit : ∀ c : Bool, (if c = true then (1 : BitVec 32) else 0).toNat =
      if c = true then 1 else 0 := fun c => by cases c <;> rfl
  obtain ⟨subOp, hsub⟩ : ∃ subOp, revPack.subOp = subOp := ⟨_, rfl⟩
  rcases Nat.lt_or_ge subOp 16 with hlt | hge
  · interval_cases subOp <;>
      simp only [Cpp.aluSwitch, aluNewHasException, aluNewExceptionId, aluRdValue, aluSrc1, aluSrc2,
        hsub, hshift, hbit] <;> rfl
  · have hne : ∀ k, k < 16 → ¬revPack.subOp = k := fun k hk => by omega
    have hexc : aluNewHasException revPack = false := by
      rw [aluNewHasException, decide_eq_false (hne _ (by decide)), decide_eq_false (hne _ (by decide))]
      rfl
    have hvalue : aluRdValue revPack = 0 := by
      rw [aluRdValue]
      iterate 12 rw [if_neg (hne _ (by decide))]
    rw [hexc, hvalue, if_neg Bool.false_ne_true, Cpp.aluSwitch]
    iterate 16 rw [if_neg (hne _ (by decide))]
    rfl

/-- The arithmetic units answer alike, also for a rejected operation and an exception. -/
theorem executeAlu_same (henable : revPack.enable = true) :
    SameAnswer (Cpp.executeAlu revPack) (executeAlu revPack) := by
  rw [Cpp.executeAlu, henable, Bool.true_and]
  cases hexc : revPack.hasException with
  | true =>
      refine ⟨?_, fun _ => ⟨?_, ?_⟩, rfl, rfl, rfl, fun hno => ?_, rfl, rfl⟩
      · simp [executeAlu, Cpp.sendPackOf, hexc]
      · simp [executeAlu, Cpp.sendPackOf, hexc]
      · simp [executeAlu, Cpp.sendPackOf, hexc]
      · simp [executeAlu, hexc] at hno
  | false =>
      rw [Bool.not_false, if_pos rfl]
      cases hvalid : revPack.valid with
      | false =>
          rw [if_neg Bool.false_ne_true]
          refine ⟨?_, fun _ => ⟨?_, ?_⟩, rfl, rfl, rfl, fun hno => ?_, rfl, rfl⟩
          · simp [executeAlu, Cpp.raise, hvalid]
          · simp [executeAlu, Cpp.raise, hexc, hvalid]
          · simp [executeAlu, Cpp.raise, hexc]
          · simp [executeAlu, hvalid] at hno
      | true =>
          rw [if_pos rfl, aluSwitch_eq]
          cases hnew : aluNewHasException revPack with
          | true =>
              refine ⟨?_, fun _ => ⟨?_, ?_⟩, rfl, rfl, rfl, fun hno => ?_, rfl, rfl⟩
              · simp [executeAlu, Cpp.raise, hnew]
              · simp [executeAlu, Cpp.raise, hexc, hvalid]
              · simp [executeAlu, Cpp.raise, hexc]
              · simp [executeAlu, hnew] at hno
          | false =>
              rw [if_neg Bool.false_ne_true]
              refine ⟨?_, fun hyes => ?_, rfl, rfl, rfl, fun _ => rfl, rfl, rfl⟩
              · simp [executeAlu, Cpp.sendPackOf, hexc, hvalid, hnew]
              · simp [executeAlu, hexc, hvalid, hnew] at hyes

/-- The switch sets what the hardware answers, with the target of a jump. -/
theorem bruSwitch_eq : Cpp.bruSwitch revPack mepc =
    { Cpp.sendPackOf revPack with
      bruJump := bruJump revPack
      rdValue := bruRdValue revPack
      bruNextPc :=
        if revPack.subOp = BruOp.jalr then (revPack.imm + revPack.src1Value) % 2 ^ 32 / 2 * 2
        else if revPack.subOp = BruOp.mret then mepc
        else (revPack.pc + revPack.imm) % 2 ^ 32 } := by
  have hsum : (BitVec.ofNat 32 (revPack.imm + revPack.src1Value) &&& ~~~1#32).toNat =
      (revPack.imm + revPack.src1Value) % 2 ^ 32 / 2 * 2 := and_not_one _
  obtain ⟨subOp, hsub⟩ : ∃ subOp, revPack.subOp = subOp := ⟨_, rfl⟩
  rcases Nat.lt_or_ge subOp 9 with hlt | hge
  · interval_cases subOp <;>
      simp only [Cpp.bruSwitch, bruJump, bruRdValue, aluSrc1, aluSrc2, hsub, hsum] <;> rfl
  · have hne : ∀ k, k < 9 → ¬revPack.subOp = k := fun k hk => by omega
    have hjump : bruJump revPack = false := by
      rw [bruJump]
      iterate 6 rw [if_neg (hne _ (by decide))]
      rw [decide_eq_false (hne _ (by decide)), decide_eq_false (hne _ (by decide)),
        decide_eq_false (hne _ (by decide))]
      rfl
    have hvalue : bruRdValue revPack = 0 :=
      if_neg fun h => h.elim (hne _ (by decide)) (hne _ (by decide))
    rw [hjump, hvalue, if_neg (hne _ (by decide)), if_neg (hne _ (by decide)), Cpp.bruSwitch]
    iterate 9 rw [if_neg (hne _ (by decide))]
    rfl

/-- The branch units answer alike to an accepted operation. -/
theorem executeBru_same (henable : revPack.enable = true) (hvalid : revPack.valid = true) :
    SameAnswer (Cpp.executeBru revPack mepc) (executeBru mepc revPack) := by
  have hboth : (revPack.enable && revPack.valid) = true := by rw [henable, hvalid]; rfl
  rw [Cpp.executeBru, if_pos hboth, bruSwitch_eq]
  cases hjump : bruJump revPack with
  | true =>
      refine ⟨rfl, fun _ => ⟨rfl, rfl⟩, rfl, rfl, rfl, fun _ => rfl, hjump.symm, ?_⟩
      simp only [if_true, executeBru, bruNextPc, hjump]
  | false =>
      refine ⟨rfl, fun _ => ⟨rfl, rfl⟩, rfl, rfl, rfl, fun _ => rfl, hjump.symm, ?_⟩
      simp only [Bool.false_eq_true, if_false, executeBru, bruNextPc, hjump]

/-! ## Issue and the load/store unit of the model -/

theorem issueSendPack_other {op : ReadregIssueOpInfo} (hunit : op.opUnit ≠ .lsu) :
    Cpp.issueSendPack op = { op with lsuAddr := 0 } := by
  have hlsu : (op.valid && decide (op.opUnit = .lsu)) = false := by
    rw [decide_eq_false hunit, Bool.and_false]
  rw [Cpp.issueSendPack, hlsu, if_neg Bool.false_ne_true]

theorem lsuSendCase_eq {op : ReadregIssueOpInfo} {size misaligned accessFault : Nat}
    (hlsu : issueIsLsu op = true)
    (hmis : lsuHasException op = !checkAlign (issueLsuAddr op) size)
    (hid : lsuExceptionId op = if lsuHasException op then misaligned else accessFault) :
    Cpp.lsuSendCase op size misaligned accessFault = issueDataConverted op := by
  rw [issueDataConverted, hlsu, if_pos rfl, if_pos rfl, if_pos rfl, hid, hmis]
  rfl

/-- Issue sends a load or store alike. -/
theorem issueSendPack_lsu {op : ReadregIssueOpInfo} (hlsu : issueIsLsu op = true)
    (hsub : op.subOp ≤ LsuOp.sw) : Cpp.issueSendPack op = issueDataConverted op := by
  have hlt : op.subOp < 8 := Nat.lt_succ_of_le hsub
  have hsend : Cpp.issueSendPack op =
      if op.subOp = LsuOp.lb ∨ op.subOp = LsuOp.lbu then Cpp.lsuSendCase op 1 4 5
      else if op.subOp = LsuOp.lh ∨ op.subOp = LsuOp.lhu then Cpp.lsuSendCase op 2 4 5
      else if op.subOp = LsuOp.lw then Cpp.lsuSendCase op 4 4 5
      else if op.subOp = LsuOp.sb then Cpp.lsuSendCase op 1 6 7
      else if op.subOp = LsuOp.sh then Cpp.lsuSendCase op 2 6 7
      else if op.subOp = LsuOp.sw then Cpp.lsuSendCase op 4 6 7
      else Cpp.lsuSendPack op := if_pos hlsu
  obtain ⟨subOp, hop⟩ : ∃ subOp, op.subOp = subOp := ⟨_, rfl⟩
  have hmis : lsuHasException op = (decide (accessSize subOp ≠ 0) &&
      !checkAlign (issueLsuAddr op) (accessSize subOp)) := by rw [lsuHasException, hop]
  have hid : lsuExceptionId op = if isLoad subOp then if lsuHasException op then 4 else 5
      else if accessSize subOp = 0 then 5 else if lsuHasException op then 6 else 7 := by
    rw [lsuExceptionId, hop]
  rw [hsend, hop]
  rw [hop] at hlt
  interval_cases subOp
  · exact lsuSendCase_eq hlsu hmis hid
  · exact lsuSendCase_eq hlsu hmis hid
  · exact lsuSendCase_eq hlsu hmis hid
  · exact lsuSendCase_eq hlsu hmis hid
  · exact lsuSendCase_eq hlsu hmis hid
  · exact lsuSendCase_eq hlsu hmis hid
  · exact lsuSendCase_eq hlsu hmis hid
  · exact lsuSendCase_eq hlsu hmis hid

/-- A value of the size of the load is extended alike. -/
theorem lsuRdValue_eq {n : Nat} (hload : isLoad revPack.subOp = true)
    (hn : n < 2 ^ (8 * accessSize revPack.subOp)) :
    Cpp.lsuRdValue revPack n = (loadInput revPack n).rdValue := by
  have hsub : (loadInput revPack n).revPack.subOp = revPack.subOp := rfl
  have hdata : (loadInput revPack n).stbufExlsuBusDataFeedback.toNat = n % 2 ^ 128 := rfl
  have hextend : ∀ k, 0 < k → k < 32 → n < 2 ^ k →
      Cpp.signExtend n k = signExtend k (n % 2 ^ k) := fun k hpos hk hlt => by
    rw [cppSignExtend_eq hpos hk hlt, Nat.mod_eq_of_lt hlt]
  rcases OpOf.loadCases hload with hop | hop | hop | hop | hop <;> rw [hop] at hsub hn
  · simp [ExecuteLsuInput.rdValue, Cpp.lsuRdValue, hop, hsub, hdata,
      hextend 8 (by decide) (by decide) hn]
  · have hlt : n < 2 ^ 8 := hn
    simp [ExecuteLsuInput.rdValue, Cpp.lsuRdValue, hop, hsub, hdata]
    omega
  · simp [ExecuteLsuInput.rdValue, Cpp.lsuRdValue, hop, hsub, hdata,
      hextend 16 (by decide) (by decide) hn]
  · have hlt : n < 2 ^ 16 := hn
    simp [ExecuteLsuInput.rdValue, Cpp.lsuRdValue, hop, hsub, hdata]
    omega
  · have hlt : n < 2 ^ 32 := hn
    simp [ExecuteLsuInput.rdValue, Cpp.lsuRdValue, hop, hsub, hdata]
    omega

/-- A pushed store has the same size and bytes. -/
theorem lsuStore_eq (hload : isLoad revPack.subOp = false) (hsub : revPack.subOp ≤ LsuOp.sw) :
    Cpp.lsuStore revPack =
      ((loadInput revPack 0).exlsuStbufWriteSize, (loadInput revPack 0).exlsuStbufWriteData) := by
  have hcases : revPack.subOp = 5 ∨ revPack.subOp = 6 ∨ revPack.subOp = 7 := by
    have hno : ¬revPack.subOp ≤ 4 := of_decide_eq_false hload
    have : revPack.subOp ≤ 7 := hsub
    omega
  have hrev : (loadInput revPack 0).revPack = revPack := rfl
  have hbyte : revPack.src2Value &&& 0xff = revPack.src2Value % 2 ^ 8 :=
    Nat.and_two_pow_sub_one_eq_mod _ 8
  have hhalf : revPack.src2Value &&& 0xffff = revPack.src2Value % 2 ^ 16 :=
    Nat.and_two_pow_sub_one_eq_mod _ 16
  rcases hcases with hop | hop | hop <;> rw [hop] at hload <;>
    simp [Cpp.lsuStore, ExecuteLsuInput.exlsuStbufWriteSize, ExecuteLsuInput.exlsuStbufWriteData,
      storeData, accessSize, hload, hrev, hop, hbyte, hhalf]

theorem issueSendPack_opUnit (op : ReadregIssueOpInfo) :
    (Cpp.issueSendPack op).opUnit = op.opUnit := by
  rw [Cpp.issueSendPack]
  split_ifs <;> rfl

/-- What goes to the ALU or the branch unit does not go to the load/store unit. -/
theorem ne_lsu {unit : OpUnit} (h : unit = .alu ∨ unit = .bru) : unit ≠ .lsu := by
  rcases h with rfl | rfl <;> decide

/-- Whatever the hardware carries out, the model does too. -/
theorem performs_transfer {op : ReadregIssueOpInfo} {o : Outcome} (henable : op.enable = true)
    (hvalid : op.valid = true) (hsub : op.opUnit = .lsu → op.subOp ≤ LsuOp.sw)
    (h : Performs (rtlUnits mepc) mepc (issueDataConverted op) o) :
    Performs (cppUnits mepc) mepc (Cpp.issueSendPack op) o := by
  have hsent := issueSendPack_opUnit op
  have halu : op.opUnit = .alu → SameAnswer ((cppUnits mepc).alu (Cpp.issueSendPack op))
      ((rtlUnits mepc).alu (issueDataConverted op)) := fun hunit => by
    have hne := ne_lsu (.inl hunit)
    rw [issueSendPack_other hne, issueDataConverted_other hne]
    exact @executeAlu_same { op with lsuAddr := 0 } henable
  have hbru : op.opUnit = .bru → SameAnswer ((cppUnits mepc).bru (Cpp.issueSendPack op))
      ((rtlUnits mepc).bru (issueDataConverted op)) := fun hunit => by
    have hne := ne_lsu (.inr hunit)
    rw [issueSendPack_other hne, issueDataConverted_other hne]
    exact @executeBru_same { op with lsuAddr := 0 } mepc henable hvalid
  have hlsu : op.opUnit = .lsu → Cpp.issueSendPack op = issueDataConverted op := fun hunit =>
    issueSendPack_lsu (by rw [issueIsLsu, hvalid, decide_eq_true hunit]; rfl) (hsub hunit)
  cases o with
  | write rd value =>
      obtain ⟨hunit, hw⟩ := h
      exact ⟨hsent.trans hunit, (halu hunit).writesRd hw⟩
  | jump rd link target =>
      obtain ⟨hunit, hw, hjump, hnext⟩ := h
      have hsame := hbru hunit
      exact ⟨hsent.trans hunit, hsame.writesRd hw, hsame.bruJump.trans hjump,
        hsame.bruNextPc.trans hnext⟩
  | branch taken target =>
      obtain ⟨hunit, hw, hjump, hnext⟩ := h
      have hsame := hbru hunit
      refine ⟨hsent.trans hunit, hsame.writesNone hw, hsame.bruJump.trans hjump,
        hsame.bruNextPc.trans (hnext.trans ?_)⟩
      rw [@issueSendPack_other op (ne_lsu (.inr hunit))]
      rfl
  | load rd form addr =>
      obtain ⟨haccess, hload, hbytes, hw⟩ := h
      rw [hlsu haccess.opUnit]
      refine ⟨haccess, hload, hbytes, fun n hn hexc => ?_⟩
      have hvalue : Cpp.lsuRdValue (issueDataConverted op) n =
          (loadInput (issueDataConverted op) n).rdValue := lsuRdValue_eq hload (by rwa [hbytes])
      have hsame : SameAnswer ((cppUnits mepc).load (issueDataConverted op) n)
          ((rtlUnits mepc).load (issueDataConverted op) n) :=
        ⟨rfl, fun _ => ⟨rfl, rfl⟩, rfl, rfl, rfl, fun _ => hvalue, rfl, rfl⟩
      exact hsame.writesRd (hw n hn hexc)
  | store bytes addr value =>
      obtain ⟨haccess, hload, henable, hstore⟩ := h
      rw [hlsu haccess.opUnit]
      exact ⟨haccess, hload, henable,
        (lsuStore_eq hload (hsub haccess.opUnit)).trans hstore⟩
  | fence =>
      obtain ⟨hunit, hw⟩ := h
      exact ⟨hsent.trans hunit, (halu hunit).writesNone hw⟩
  | trap cause =>
      obtain ⟨hunit, hexc, hid, hvalue⟩ := h
      have hsame := (halu hunit).exception hexc
      exact ⟨hsent.trans hunit, (halu hunit).hasException.trans hexc, hsame.1.trans hid,
        hsame.2.trans hvalue⟩
  | trapReturn =>
      obtain ⟨hunit, hw, hjump, hnext⟩ := h
      have hsame := hbru hunit
      exact ⟨hsent.trans hunit, hsame.writesNone hw, hsame.bruJump.trans hjump,
        hsame.bruNextPc.trans hnext⟩
  | misaligned target =>
      obtain ⟨hunit, hexc, hid, hvalue⟩ := h
      have hsame := (hbru hunit).exception hexc
      exact ⟨hsent.trans hunit, (hbru hunit).hasException.trans hexc, hsame.1.trans hid,
        hsame.2.trans hvalue⟩

/-! ## Misaligned targets -/

/-- Issue sends an operation of the branch unit on as it is. -/
theorem issue_bru {op : ReadregIssueOpInfo} {u : Units}
    (hu : u = rtlUnits mepc ∨ u = cppUnits mepc) (hunit : (u.issue op).opUnit = .bru) :
    ∃ lsuAddr, u.issue op = { op with lsuAddr := lsuAddr } := by
  rcases hu with rfl | rfl
  · exact ⟨_, issueDataConverted_other (ne_lsu (.inr hunit))⟩
  · exact ⟨_, issueSendPack_other (ne_lsu (.inr ((issueSendPack_opUnit op).symm.trans hunit)))⟩

/-- Neither branch unit raises an exception, whatever it jumps to. -/
theorem misaligned_not_performed {op : ReadregIssueOpInfo} {u : Units} {target : BitVec 32}
    (hu : u = rtlUnits mepc ∨ u = cppUnits mepc) (henable : op.enable = true)
    (hvalid : op.valid = true) (hexc : op.hasException = false) :
    ¬Performs u mepc (u.issue op) (.misaligned target) := by
  rintro ⟨hunit, hraised, _⟩
  obtain ⟨lsuAddr, hissued⟩ := issue_bru hu hunit
  rw [hissued] at hraised
  have hbru : (u.bru { op with lsuAddr := lsuAddr }).hasException = op.hasException := by
    rcases hu with rfl | rfl
    · exact executeBru_hasException mepc _
    · exact (@executeBru_same { op with lsuAddr := lsuAddr } mepc henable hvalid).hasException.trans
        (executeBru_hasException mepc _)
  exact Bool.false_ne_true (hexc.symm.trans (hbru.symm.trans hraised))

end Cpp

/-- An operation of the load/store unit has one of its numbers. -/
def LsuKnown (d : DecodeFields) : Prop := d.opUnit = .lsu → d.subOp ≤ LsuOp.sw

theorem lsuKnown_of_ne {d : DecodeFields} (hne : decide (d.opUnit = .lsu) = false) : LsuKnown d :=
  fun hlsu => absurd hlsu (of_decide_eq_false hne)

theorem lsuKnown_ite {c : Prop} [Decidable c] {d d' : DecodeFields} (h : LsuKnown d)
    (h' : LsuKnown d') : LsuKnown (if c then d else d') := by
  split_ifs
  · exact h
  · exact h'

theorem decodeFields_lsu (opData : Nat) (hasException : Bool) :
    LsuKnown (decodeFields opData hasException) := by
  have hby : ∀ g a b c : DecodeFields, LsuKnown g.invalid → LsuKnown a → LsuKnown b → LsuKnown c →
      LsuKnown (decodeByFunct7 opData g a b c) := fun g a b c hg ha hb hc =>
    lsuKnown_ite ha (lsuKnown_ite hb (lsuKnown_ite hc hg))
  rw [decodeFields, decodeByOpcode]
  refine lsuKnown_ite (lsuKnown_of_ne rfl) (lsuKnown_ite (lsuKnown_of_ne rfl)
    (lsuKnown_ite (lsuKnown_of_ne rfl) (lsuKnown_ite (lsuKnown_of_ne rfl)
    (lsuKnown_ite ?_ (lsuKnown_ite ?_ (lsuKnown_ite ?_ (lsuKnown_ite ?_ (lsuKnown_ite ?_
    (lsuKnown_ite ?_ (lsuKnown_ite ?_ (lsuKnown_of_ne rfl)))))))))))
  · rw [decodeBranch]
    split_ifs <;> exact lsuKnown_of_ne rfl
  · rw [decodeLoad]
    split_ifs <;> exact fun _ => of_decide_eq_true rfl
  · rw [decodeStore]
    split_ifs <;> exact fun _ => of_decide_eq_true rfl
  · rw [decodeOpImm]
    split_ifs <;> exact lsuKnown_of_ne rfl
  · rw [decodeOp]
    split_ifs <;> exact hby _ _ _ _ (lsuKnown_of_ne rfl) (lsuKnown_of_ne rfl)
      (lsuKnown_of_ne rfl) (lsuKnown_of_ne rfl)
  · rw [decodeMiscMem]
    split_ifs <;> exact lsuKnown_of_ne rfl
  · rw [decodeSystem]
    split_ifs <;> exact lsuKnown_of_ne rfl

/-! ## Decode and register read of the model -/

/-- The model decodes an accepted word to the same pack. -/
theorem cppDecode_eq {p : FetchDecodePack} (hvalid : (decode p).valid = true) :
    Cpp.decode p = decode p := by
  obtain ⟨hsame, hsources⟩ := decoders_agree p.value p.hasException
  have hargs := hsources hvalid
  simp only [Cpp.decode, decode, ← hsame.needRename, ← hsame.valid, ← hsame.op, ← hsame.opUnit,
    ← hsame.subOp, ← hsame.rs1, ← hsame.rs2, ← hsame.rd, ← hsame.rdEnable, ← hsame.imm,
    ← hsame.csr, ← hargs.arg1Src, ← hargs.arg2Src, Nat.pos_iff_ne_zero]

theorem brings_execute {s : SlotInputs} {phyId k : Nat} (hk : k < executeUnitNum) :
    s.brings phyId k = ((s.executeFeedbackPack k).enable &&
      decide (phyId = (s.executeFeedbackPack k).phyId)) := by
  rw [SlotInputs.brings, feedbackDataCmp, feedbackChannel_execute _ _ hk]

theorem brings_wb {s : SlotInputs} (phyId k : Nat) :
    s.brings phyId (executeUnitNum + k) = ((s.wbFeedbackPack k).enable &&
      decide (phyId = (s.wbFeedbackPack k).phyId)) := by
  rw [SlotInputs.brings, feedbackDataCmp, feedbackChannel_wb]

/-- The loop stops at a channel that brings the value. -/
theorem readregFeedback_finds {s : SlotInputs} {phyId value : Nat} (h : Finds s phyId value)
    (hinvalid : s.phyf.dataValid phyId = false) :
    Cpp.readregFeedback s.executeFeedbackPack s.wbFeedbackPack phyId executeUnitNum =
      ⟨true, value⟩ := by
  have hloop : ∀ channels, channels ≤ executeUnitNum → ∀ j, executeUnitNum - channels ≤ j →
      j < executeUnitNum → (s.brings phyId j = true ∨ s.brings phyId (executeUnitNum + j) = true) →
        Cpp.readregFeedback s.executeFeedbackPack s.wbFeedbackPack phyId channels =
          ⟨true, value⟩ := by
    intro channels
    induction channels with
    | zero => intro _ j hge hlt; omega
    | succ channels ih =>
        intro hle j hge hlt hbrings
        have hk : executeUnitNum - (channels + 1) < executeUnitNum := by omega
        rw [Cpp.readregFeedback, ← brings_execute hk, ← brings_wb]
        split_ifs with hexecute hwb
        · have hvalue := h.same hinvalid _ (by omega) hexecute
          rw [feedbackChannel_execute _ _ hk] at hvalue
          rw [hvalue]
        · have hvalue := h.same hinvalid _ (by omega) hwb
          rw [feedbackChannel_wb] at hvalue
          rw [hvalue]
        · have hne : j ≠ executeUnitNum - (channels + 1) := by
            rintro rfl
            exact hbrings.elim hexecute hwb
          exact ih (by omega) j (by omega) hlt hbrings
  obtain ⟨k, hk, hbrings⟩ := h.brought hinvalid
  by_cases hlow : k < executeUnitNum
  · exact hloop executeUnitNum le_rfl k (by omega) hlow (Or.inl hbrings)
  · refine hloop executeUnitNum le_rfl (k - executeUnitNum) (by omega) (by omega) (Or.inr ?_)
    rwa [Nat.add_sub_cancel' (Nat.not_lt.1 hlow)]

/-- Register read of the model sends the same pack. -/
theorem readregSend_eq {s : SlotInputs} {x : BitVec 5 → BitVec 32} {d : DecodeRenamePack}
    (henable : d.enable = true) (hvalid : d.valid = true) (h : SourcesHold s x d) :
    Cpp.readregSend s.phyf s.executeFeedbackPack s.wbFeedbackPack (s.renamed d) =
      readregSendPack s.phyf s.executeFeedbackPack s.wbFeedbackPack (s.renamed d) := by
  have hsource : ∀ {needMap : Bool} {phyId value : Nat} (argSrc : ArgSrc) (imm : Nat),
      (needMap = true → Finds s phyId value) →
        Cpp.readregSource s.phyf s.executeFeedbackPack s.wbFeedbackPack d.enable d.valid needMap
          argSrc imm phyId =
        ⟨readregLoaded s.phyf s.executeFeedbackPack s.wbFeedbackPack d.enable d.valid needMap phyId,
          readregValue s.phyf s.executeFeedbackPack s.wbFeedbackPack needMap argSrc imm phyId⟩ := by
    intro needMap phyId value argSrc imm hfinds
    rw [Cpp.readregSource, readregLoaded, henable, hvalid]
    cases needMap with
    | false => cases argSrc <;> rfl
    | true =>
        rw [readregValue_finds (hfinds rfl)]
        cases hdata : s.phyf.dataValid phyId with
        | true =>
            have hstored := (hfinds rfl).stored hdata
            simp [hstored]
        | false =>
            have hany : readregFeedbackDataValid s.executeFeedbackPack s.wbFeedbackPack phyId =
                true := anyBit_iff.2 ((hfinds rfl).brought hdata)
            simp [hany, readregFeedback_finds (hfinds rfl) hdata]
  have h1 := hsource d.arg1Src d.imm h.rs1
  have h2 := hsource d.arg2Src d.imm h.rs2
  rw [Cpp.readregSend, readregSendPack]
  dsimp only [SlotInputs.renamed] at h1 h2 ⊢
  rw [h1, h2]

/-! ## Every instruction -/

section Instructions

variable {mepc : Nat} {w pc : BitVec 32} {x : BitVec 5 → BitVec 32} {s : SlotInputs}
  {p : FetchDecodePack} {u : Units}

/-- Both programs accept the same words. -/
theorem decode_fields (hvalue : p.value = w.toNat) (hexc : p.hasException = false)
    (hu : u = rtlUnits mepc ∨ u = cppUnits mepc) :
    (u.decode p).valid = (rtlFields w).valid ∧ (u.decode p).opUnit = (rtlFields w).opUnit ∧
      (u.decode p).op = (rtlFields w).op := by
  have hfields : decodeFields p.value p.hasException = rtlFields w := by
    rw [hvalue, hexc, rtlFields]
  have hsame := (decoders_agree p.value p.hasException).1
  rw [hfields] at hsame
  rcases hu with rfl | rfl
  · exact ⟨congrArg DecodeFields.valid hfields, congrArg DecodeFields.opUnit hfields,
      congrArg DecodeFields.op hfields⟩
  · exact ⟨hsame.valid.symm, hsame.opUnit.symm, hsame.op.symm⟩

/-- Both programs hand the same pack to issue. -/
theorem readreg_eq (henable : p.enable = true) (hvalid : (decode p).valid = true)
    (hu : u = rtlUnits mepc ∨ u = cppUnits mepc) (hsources : SourcesHold s x (u.decode p)) :
    SourcesHold s x (decode p) ∧
      u.readreg s.phyf s.executeFeedbackPack s.wbFeedbackPack (s.renamed (u.decode p)) =
        readregSendPack s.phyf s.executeFeedbackPack s.wbFeedbackPack (s.renamed (decode p)) := by
  rcases hu with rfl | rfl
  · exact ⟨hsources, rfl⟩
  · have hdecode : (cppUnits mepc).decode p = decode p := cppDecode_eq hvalid
    rw [hdecode] at hsources ⊢
    exact ⟨hsources, readregSend_eq henable hvalid hsources⟩

theorem attempt_fence (hfields : FenceFieldsSet w) : attempt w pc x = some .fence := by
  obtain ⟨hop, hfunct3, _⟩ := hfields
  rw [attempt, hop]
  iterate 9 rw [if_neg (by decide)]
  rw [if_pos rfl, if_pos hfunct3]

/-- What an accepted word asks for is carried out, whatever the target of its jump. -/
theorem attempt_performed (hx : x 0 = 0) (hvalue : p.value = w.toNat) (hpc : p.pc = pc.toNat)
    (henable : p.enable = true) (hexc : p.hasException = false)
    (hu : u = rtlUnits mepc ∨ u = cppUnits mepc) (hsources : SourcesHold s x (u.decode p))
    {o : Outcome} (ho : attempt w pc x = some o) (hfields : ¬FenceFieldsSet w) :
    CarriesOut u mepc s p o := by
  have hword := word_reads mepc w pc x hx hfields
  rw [ho] at hword
  obtain ⟨haccepted, hperforms⟩ := hword
  have hrtl : (decode p).valid = true := (decode_fields (u := rtlUnits mepc) hvalue hexc
    (Or.inl rfl)).1.trans haccepted
  obtain ⟨hread, hsame⟩ := readreg_eq henable hrtl hu hsources
  have hop := OperandsRead.opOf (readreg_operands hread) hvalue hpc hexc
  refine ⟨(decode_fields hvalue hexc hu).1.trans haccepted, ?_⟩
  rw [hsame]
  rcases hu with rfl | rfl
  · exact hperforms _ hop
  · refine performs_transfer henable hrtl (fun hlsu => ?_) (hperforms _ hop)
    rw [hop.subOp, rtlFields]
    exact decodeFields_lsu w.toNat false (hop.opUnit.symm.trans hlsu)

theorem misaligned_not_carriedOut (henable : p.enable = true) (hexc : p.hasException = false)
    (hu : u = rtlUnits mepc ∨ u = cppUnits mepc) (target : BitVec 32) :
    ¬CarriesOut u mepc s p (.misaligned target) := by
  rintro ⟨hvalid, hperforms⟩
  rcases hu with rfl | rfl
  · exact misaligned_not_performed (Or.inl rfl) henable hvalid hexc hperforms
  · exact misaligned_not_performed (Or.inr rfl) henable hvalid hexc hperforms

/-- In the hardware and in the model, decode, register read, issue and the units carry out
what the instruction set asks for unless a fence has a reserved field set or a jump a
misaligned target.  The fence is rejected, the jump is made; any other word is rejected or
belongs to an extension. -/
theorem instructions_performed (hx : x 0 = 0) (hvalue : p.value = w.toNat)
    (hpc : p.pc = pc.toNat) (henable : p.enable = true) (hexc : p.hasException = false)
    (hu : u = rtlUnits mepc ∨ u = cppUnits mepc) (hsources : SourcesHold s x (u.decode p)) :
    (∀ o, outcome w pc x = some o →
      (CarriesOut u mepc s p o ↔ ¬FenceFieldsSet w ∧ ∀ target, o ≠ .misaligned target)) ∧
    (∀ o, attempt w pc x = some o → ¬FenceFieldsSet w → CarriesOut u mepc s p o) ∧
    (FenceFieldsSet w → (u.decode p).valid = false) ∧
    (outcome w pc x = none → OutsideBase w (u.decode p)) := by
  obtain ⟨hvalid, hunit, hop⟩ := decode_fields hvalue hexc hu
  have hattempt : ∀ o, attempt w pc x = some o → ¬FenceFieldsSet w → CarriesOut u mepc s p o :=
    fun o => attempt_performed hx hvalue hpc henable hexc hu hsources
  have hfence : FenceFieldsSet w → (u.decode p).valid = false := fun hfields =>
    hvalid.trans (fenceFields_rejected w hfields)
  refine ⟨fun o ho => ⟨fun hcarried => ⟨fun hfields => ?_, ?_⟩, ?_⟩, hattempt, hfence, fun ho => ?_⟩
  · exact Bool.false_ne_true ((hfence hfields).symm.trans hcarried.1)
  · rintro target rfl
    exact misaligned_not_carriedOut henable hexc hu target hcarried
  · rintro ⟨hfields, halign⟩
    obtain ⟨o', hattempted, hchecked⟩ := Option.map_eq_some_iff.1 ho
    exact hattempt o (hattempted.trans (congrArg some (Outcome.eq_of_checkTarget hchecked halign)))
      hfields
  · have hnone : attempt w pc x = none := Option.map_eq_none_iff.1 ho
    have hfields : ¬FenceFieldsSet w := fun hset =>
      Option.some_ne_none _ ((attempt_fence hset).symm.trans hnone)
    have hword := word_reads mepc w pc x hx hfields
    rw [hnone] at hword
    rw [OutsideBase, hvalid, hunit, hop]
    exact hword

end Instructions

/-! `sub x3, x1, x2` with `x1 = 5` in physical register 40 and `x2 = 7`, of physical register
41, on execute channel 0; and `jal x1, 2`, whose target is not a multiple of four. -/

def packOf (value : Nat) : FetchDecodePack :=
  { RenameReadregOpInfo.zero.toFetchDecodePack with
    enable := true, value := value, pc := 0x80000000 }

def subInputs : SlotInputs where
  robId := 0
  rs1Phy := 40
  rs2Phy := 41
  rdPhy := 42
  phyf := ⟨fun k => decide (k = 40), fun k => if k = 40 then 5 else 0⟩
  executeFeedbackPack := fun k => ⟨decide (k = 0), 41, 7⟩
  wbFeedbackPack := fun _ => ⟨false, 0, 0⟩

def subRegisters (k : BitVec 5) : BitVec 32 := if k = 1 then 5 else if k = 2 then 7 else 0

instance (s : SlotInputs) (phyId value : Nat) : Decidable (Finds s phyId value) :=
  decidable_of_iff (_ ∧ _ ∧ _) ⟨fun h => ⟨h.1, h.2.1, h.2.2⟩, fun h => ⟨h.1, h.2, h.3⟩⟩

instance (s : SlotInputs) (x : BitVec 5 → BitVec 32) (d : DecodeRenamePack) :
    Decidable (SourcesHold s x d) :=
  decidable_of_iff (_ ∧ _) ⟨fun h => ⟨h.1, h.2⟩, fun h => ⟨h.1, h.2⟩⟩

theorem instructions_performed_subJal :
    CarriesOut (cppUnits 0) 0 subInputs (packOf 0x402081b3) (.write 3 0xfffffffe) ∧
      ¬CarriesOut (rtlUnits 0) 0 subInputs (packOf 0x002000ef) (.misaligned 0x80000002) ∧
      CarriesOut (rtlUnits 0) 0 subInputs (packOf 0x002000ef)
        (.jump 1 0x80000004 0x80000002) := by
  have hsub := @instructions_performed 0 0x402081b3 0x80000000 subRegisters subInputs
    (packOf 0x402081b3) (cppUnits 0) rfl rfl rfl rfl rfl (Or.inr rfl) (by decide)
  have hjal := @instructions_performed 0 0x002000ef 0x80000000 subRegisters subInputs
    (packOf 0x002000ef) (rtlUnits 0) rfl rfl rfl rfl rfl (Or.inl rfl) (by decide)
  refine ⟨hsub.2.1 _ rfl (by decide), fun hcarried => ?_, hjal.2.1 _ rfl (by decide)⟩
  exact ((hjal.1 _ rfl).1 hcarried).2 0x80000002 rfl

end DreamCore.Proofs
