import DreamCore.Model.Instruction
import DreamCore.Proofs.DecodeInverse

/-!
# The pipeline carries out what the instruction set asks for

The fields and immediates of decode are those of the manual.  Each class of instructions
then goes to a unit with the operands register read provides, and the unit's answer is
compared; the units of the C++ model give the same answers.
-/

namespace DreamCore.Proofs

open DreamCore.Model DreamCore.Rtl DreamCore.Rv32i

/-! ## Fields -/

section Fields

variable (w : BitVec 32)

theorem bits_toNat (lo width : Nat) : bits w.toNat lo width = (w.extractLsb' lo width).toNat := by
  rw [bits, BitVec.extractLsb'_toNat]

theorem wordOpcode_toNat : wordOpcode w.toNat = (opcode w).toNat := bits_toNat w 0 7
theorem wordRd_toNat : wordRd w.toNat = (rd w).toNat := bits_toNat w 7 5
theorem wordFunct3_toNat : wordFunct3 w.toNat = (funct3 w).toNat := bits_toNat w 12 3
theorem wordRs1_toNat : wordRs1 w.toNat = (rs1 w).toNat := bits_toNat w 15 5
theorem wordRs2_toNat : wordRs2 w.toNat = (rs2 w).toNat := bits_toNat w 20 5
theorem wordFunct7_toNat : wordFunct7 w.toNat = (funct7 w).toNat := bits_toNat w 25 7

/-- The extension of an immediate of at most 32 bits. -/
theorem signExtend_toNat {n : Nat} (hn : n ≤ 32) (v : BitVec n) :
    signExtend n v.toNat = (v.signExtend 32).toNat := by
  have hpow : 2 ^ n ≤ 2 ^ 32 := Nat.pow_le_pow_right (by decide) hn
  have hlt := v.isLt
  have hwidth : (v.setWidth 32).toNat = v.toNat := by
    rw [BitVec.toNat_setWidth, Nat.mod_eq_of_lt (by omega)]
  rw [BitVec.toNat_signExtend, hwidth, BitVec.msb_eq_decide, signExtend]
  by_cases hneg : 2 ^ (n - 1) ≤ v.toNat
  · rw [if_neg (by omega), decide_eq_true hneg, if_pos rfl]
    omega
  · rw [if_pos (by omega), decide_eq_false hneg, if_neg Bool.false_ne_true, Nat.add_zero]

theorem immI_toNat : signExtend 12 (Rtl.immI w.toNat) = (Rv32i.immI w).toNat := by
  rw [Rtl.immI, bits_toNat, signExtend_toNat (by decide), Rv32i.immI]

theorem immS_toNat : signExtend 12 (Rtl.immS w.toNat) = (Rv32i.immS w).toNat := by
  rw [Rv32i.immS, ← signExtend_toNat (by decide), BitVec.toNat_append, ← bits_toNat,
    ← bits_toNat, Rtl.immS]

/-- The parts of the immediate of a branch or jump, in halfwords. -/
theorem halfwords_toNat (i j k l a b c d : Nat) :
    (w.extractLsb' i a ++ w.extractLsb' j b ++ w.extractLsb' k c ++ w.extractLsb' l d ++
      0#1).toNat = bits w.toNat i a <<< (b + c + d + 1) ||| bits w.toNat j b <<< (c + d + 1) |||
        bits w.toNat k c <<< (d + 1) ||| bits w.toNat l d <<< 1 := by
  simp only [BitVec.toNat_append, ← bits_toNat, Nat.shiftLeft_or_distrib, ← Nat.shiftLeft_add,
    BitVec.toNat_ofNat, Nat.zero_mod, Nat.or_zero]

theorem immB_toNat : signExtend 13 (Rtl.immB w.toNat) = (Rv32i.immB w).toNat := by
  rw [Rv32i.immB, ← signExtend_toNat (by decide), halfwords_toNat, Rtl.immB]

theorem immJ_toNat : signExtend 21 (Rtl.immJ w.toNat) = (Rv32i.immJ w).toNat := by
  rw [Rv32i.immJ, ← signExtend_toNat (by decide), halfwords_toNat, Rtl.immJ]

theorem immU_toNat : Rtl.immU w.toNat = (Rv32i.immU w).toNat := by
  rw [Rv32i.immU, BitVec.toNat_append, ← bits_toNat, Rtl.immU]
  exact (Nat.or_zero _).symm

end Fields

/-! ## Operands -/

/-- A mapped source is what the physical register holds or the channels bring. -/
theorem readregValue_finds {s : SlotInputs} {phyId value : Nat} (h : Finds s phyId value)
    (argSrc : ArgSrc) (imm : Nat) : readregValue s.phyf s.executeFeedbackPack s.wbFeedbackPack
      true argSrc imm phyId = value := by
  rw [readregValue, if_pos rfl]
  split_ifs with hdata
  · exact h.stored hdata
  · have hinvalid : s.phyf.dataValid phyId = false := Bool.eq_false_iff.2 hdata
    have hbrought : anyBit (executeUnitNum * 2) (s.brings phyId) = true :=
      anyBit_iff.2 (h.brought hinvalid)
    have hselected : readregFeedbackData s.executeFeedbackPack s.wbFeedbackPack phyId =
        if anyBit (executeUnitNum * 2) (s.brings phyId) then value else 0 :=
      dataSelector_same Nat.zero_or Nat.or_zero Nat.or_self (by decide) (h.same hinvalid)
    rw [hselected, hbrought, if_pos rfl]

theorem readreg_operands {s : SlotInputs} {p : FetchDecodePack} {x : BitVec 5 → BitVec 32}
    (h : SourcesHold s x (decode p)) : OperandsRead p x (readregSendPack s.phyf
      s.executeFeedbackPack s.wbFeedbackPack (s.renamed (decode p))) := by
  have hsource : ∀ {needMap : Bool} {phyId rs : Nat} (argSrc : ArgSrc) (imm : Nat),
      (needMap = true → Finds s phyId (x (BitVec.ofNat 5 rs)).toNat) →
        readregValue s.phyf s.executeFeedbackPack s.wbFeedbackPack needMap argSrc imm phyId =
          sourceValue needMap argSrc imm rs x := by
    intro needMap phyId rs argSrc imm hfinds
    cases needMap with
    | true => exact readregValue_finds (hfinds rfl) argSrc imm
    | false => rfl
  exact ⟨rfl, hsource _ _ h.rs1, hsource _ _ h.rs2⟩

section Sources

variable {x : BitVec 5 → BitVec 32}

/-- A register source is the register, also `x0`, which is not mapped. -/
theorem sourceValue_reg (hx : x 0 = 0) (imm : Nat) (rs : BitVec 5) :
    sourceValue (decide (ArgSrc.reg = .reg) && decide (rs.toNat ≠ 0)) .reg imm rs.toNat x =
      (x rs).toNat := by
  rw [sourceValue, BitVec.ofNat_toNat, BitVec.setWidth_eq]
  by_cases hzero : rs = 0
  · subst hzero
    rw [hx]
    rfl
  · have hne : rs.toNat ≠ 0 := fun h => hzero (BitVec.eq_of_toNat_eq h)
    rw [decide_eq_true hne]
    rfl

theorem sourceValue_imm (imm rs : Nat) :
    sourceValue (decide (ArgSrc.imm = .reg) && decide (rs ≠ 0)) .imm imm rs x = imm := by
  rw [sourceValue]
  simp

end Sources

/-! ## The units -/

/-- The number an operation has in the arithmetic unit. -/
def aluSubOp : AluFn → Nat
  | .add => AluOp.add
  | .sub => AluOp.sub
  | .sll => AluOp.sll
  | .slt => AluOp.slt
  | .sltu => AluOp.sltu
  | .xor => AluOp.xor
  | .srl => AluOp.srl
  | .sra => AluOp.sra
  | .or => AluOp.or
  | .and => AluOp.and

theorem aluRdValue_fn {pack : IssueExecutePack} (fn : AluFn) {a b : BitVec 32}
    (hsub : pack.subOp = aluSubOp fn) (h1 : pack.src1Value = a.toNat)
    (h2 : pack.src2Value = b.toNat) : aluRdValue pack = (fn.eval a b).toNat := by
  have hsrc1 : aluSrc1 pack = a := by rw [aluSrc1, h1, BitVec.ofNat_toNat, BitVec.setWidth_eq]
  have hsrc2 : aluSrc2 pack = b := by rw [aluSrc2, h2, BitVec.ofNat_toNat, BitVec.setWidth_eq]
  have hshift : aluShift pack = b.toNat % 32 := congrArg (· % 2 ^ 5) h2
  rw [aluRdValue, hsrc1, hsrc2, hshift, hsub]
  cases fn with
  | slt => simp [aluSubOp, AluFn.eval, BitVec.slt, apply_ite BitVec.toNat]
  | sltu => simp [aluSubOp, AluFn.eval, BitVec.ult, apply_ite BitVec.toNat]
  | _ => simp [aluSubOp, AluFn.eval]

theorem aluNewHasException_fn {pack : IssueExecutePack} (fn : AluFn)
    (hsub : pack.subOp = aluSubOp fn) : aluNewHasException pack = false := by
  rw [aluNewHasException, hsub]
  cases fn <;> rfl

def bruSubOp : BranchFn → Nat
  | .eq => BruOp.beq
  | .ne => BruOp.bne
  | .lt => BruOp.blt
  | .ge => BruOp.bge
  | .ltu => BruOp.bltu
  | .geu => BruOp.bgeu

theorem bruJump_fn {pack : IssueExecutePack} (fn : BranchFn) {a b : BitVec 32}
    (hsub : pack.subOp = bruSubOp fn) (h1 : pack.src1Value = a.toNat)
    (h2 : pack.src2Value = b.toNat) : bruJump pack = fn.holds a b := by
  have hsrc1 : aluSrc1 pack = a := by rw [aluSrc1, h1, BitVec.ofNat_toNat, BitVec.setWidth_eq]
  have hsrc2 : aluSrc2 pack = b := by rw [aluSrc2, h2, BitVec.ofNat_toNat, BitVec.setWidth_eq]
  rw [bruJump, hsrc1, hsrc2, hsub, h1, h2]
  cases fn <;> simp [bruSubOp, BranchFn.holds, BitVec.slt, BitVec.sle, BitVec.ult, BitVec.ule,
    BitVec.toNat_inj]

/-- An operation for another unit leaves issue as it came. -/
theorem issueDataConverted_other {op : ReadregIssueOpInfo} (hunit : op.opUnit ≠ .lsu) :
    issueDataConverted op = { op with lsuAddr := issueLsuAddr op } := by
  have hlsu : issueIsLsu op = false := by rw [issueIsLsu, decide_eq_false hunit, Bool.and_false]
  rw [issueDataConverted, hlsu]
  rfl

/-! ## The decoded operation -/

/-- What register read sends for the fields `f` at `pc`. -/
structure OpOf (op : ReadregIssueOpInfo) (f : DecodeFields) (pc : BitVec 32)
    (x : BitVec 5 → BitVec 32) : Prop where
  pc : op.pc = pc.toNat
  hasException : op.hasException = false
  valid : op.valid = f.valid
  imm : op.imm = f.imm
  opUnit : op.opUnit = f.opUnit
  subOp : op.subOp = f.subOp
  rd : op.rd = f.rd
  rdEnable : op.rdEnable = f.rdEnable
  needRename : op.needRename = (f.rdEnable && decide (f.rd ≠ 0))
  src1 : op.src1Value =
    sourceValue (decide (f.arg1Src = .reg) && decide (f.rs1 ≠ 0)) f.arg1Src f.imm f.rs1 x
  src2 : op.src2Value =
    sourceValue (decide (f.arg2Src = .reg) && decide (f.rs2 ≠ 0)) f.arg2Src f.imm f.rs2 x

theorem OperandsRead.opOf {p : FetchDecodePack} {x : BitVec 5 → BitVec 32} {op : ReadregIssueOpInfo}
    (h : OperandsRead p x op) {w pc : BitVec 32} (hvalue : p.value = w.toNat)
    (hpc : p.pc = pc.toNat) (hexc : p.hasException = false) : OpOf op (rtlFields w) pc x := by
  have hdecode : op.toDecodeRenamePack = decode p := h.decoded
  have hfields : decodeFields p.value p.hasException = rtlFields w := by
    rw [hvalue, hexc, rtlFields]
  have hfield : ∀ {α : Type} (g : DecodeRenamePack → α), g op.toDecodeRenamePack = g (decode p) :=
    fun g => congrArg g hdecode
  rw [decode, hfields] at hfield
  have h1 := h.src1
  have h2 := h.src2
  rw [hfield (·.rs1NeedMap), hfield (·.arg1Src), hfield (·.imm), hfield (·.rs1)] at h1
  rw [hfield (·.rs2NeedMap), hfield (·.arg2Src), hfield (·.imm), hfield (·.rs2)] at h2
  exact ⟨(hfield (·.pc)).trans hpc, (hfield (·.hasException)).trans hexc, hfield (·.valid),
    hfield (·.imm), hfield (·.opUnit), hfield (·.subOp), hfield (·.rd), hfield (·.rdEnable),
    hfield (·.needRename), h1, h2⟩

namespace OpOf

variable {op : ReadregIssueOpInfo} {f : DecodeFields} {pc : BitVec 32} {x : BitVec 5 → BitVec 32}
  (h : OpOf op f pc x)
include h

theorem src1_reg (hx : x 0 = 0) {rs : BitVec 5} (hsrc : f.arg1Src = .reg) (hrs : f.rs1 = rs.toNat) :
    op.src1Value = (x rs).toNat := by
  rw [h.src1, hsrc, hrs, sourceValue_reg hx]

theorem src2_reg (hx : x 0 = 0) {rs : BitVec 5} (hsrc : f.arg2Src = .reg) (hrs : f.rs2 = rs.toNat) :
    op.src2Value = (x rs).toNat := by
  rw [h.src2, hsrc, hrs, sourceValue_reg hx]

theorem src2_imm (hsrc : f.arg2Src = .imm) : op.src2Value = f.imm := by
  rw [h.src2, hsrc, sourceValue_imm]

theorem needRename_rd {reg : BitVec 5} (henable : f.rdEnable = true) (hrd : f.rd = reg.toNat) :
    op.needRename = decide (reg ≠ 0) := by
  rw [h.needRename, henable, Bool.true_and, hrd]
  refine decide_eq_decide.2 (not_congr ?_)
  exact ⟨fun hzero => BitVec.eq_of_toNat_eq hzero, fun hzero => by rw [hzero]; rfl⟩

theorem issued (hunit : f.opUnit ≠ .lsu) :
    issueDataConverted op = { op with lsuAddr := issueLsuAddr op } :=
  issueDataConverted_other (by rwa [h.opUnit])

/-! ## Arithmetic instructions -/

theorem performs_write {mepc : Nat} {reg : BitVec 5} {value : BitVec 32} (hunit : f.opUnit = .alu)
    (hvalid : f.valid = true) (henable : f.rdEnable = true) (hrd : f.rd = reg.toNat)
    (hexc : aluNewHasException { op with lsuAddr := issueLsuAddr op } = false)
    (hvalue : aluRdValue { op with lsuAddr := issueLsuAddr op } = value.toNat) :
    Performs (rtlUnits mepc) mepc (issueDataConverted op) (.write reg value) := by
  have hissued := h.issued (by rw [hunit]; decide)
  rw [Performs, hissued]
  refine ⟨h.opUnit.trans hunit, ?_, h.rdEnable.trans henable, h.rd.trans hrd,
    h.needRename_rd henable hrd, hvalue⟩
  show (op.hasException || !op.valid || aluNewHasException _) = false
  rw [h.hasException, h.valid, hvalid, hexc]
  rfl

/-! ## Jumps and branches -/

omit h in
theorem bruNextPc_jump {pack : IssueExecutePack} {mepc : Nat} (hjump : bruJump pack = true)
    (hjalr : pack.subOp ≠ BruOp.jalr) (hmret : pack.subOp ≠ BruOp.mret) :
    bruNextPc mepc pack = (pack.pc + pack.imm) % 2 ^ 32 := by
  rw [bruNextPc, if_pos hjump, if_neg hjalr, if_neg hmret]

theorem performs_jump {mepc : Nat} {reg : BitVec 5} {target : BitVec 32} (hunit : f.opUnit = .bru)
    (henable : f.rdEnable = true) (hrd : f.rd = reg.toNat)
    (hsub : f.subOp = BruOp.jal ∨ f.subOp = BruOp.jalr)
    (htarget : bruNextPc mepc { op with lsuAddr := issueLsuAddr op } = target.toNat) :
    Performs (rtlUnits mepc) mepc (issueDataConverted op) (.jump reg (pc + 4) target) := by
  have hissued := h.issued (by rw [hunit]; decide)
  have hop : op.subOp = BruOp.jal ∨ op.subOp = BruOp.jalr := by rwa [h.subOp]
  have hlink : bruRdValue { op with lsuAddr := issueLsuAddr op } = (pc + 4).toNat := by
    rw [bruRdValue]
    dsimp only
    rw [if_pos hop, h.pc, BitVec.toNat_add]
    rfl
  have hjump : bruJump { op with lsuAddr := issueLsuAddr op } = true := by
    rcases hop with hop | hop <;> simp [bruJump, hop]
  rw [Performs, hissued]
  exact ⟨h.opUnit.trans hunit, ⟨h.hasException, h.rdEnable.trans henable, h.rd.trans hrd,
    h.needRename_rd henable hrd, hlink⟩, hjump, htarget⟩

theorem performs_branch {mepc : Nat} (fn : BranchFn) {a b target : BitVec 32}
    (hunit : f.opUnit = .bru) (henable : f.rdEnable = false) (hsub : f.subOp = bruSubOp fn)
    (h1 : op.src1Value = a.toNat) (h2 : op.src2Value = b.toNat)
    (htarget : (op.pc + op.imm) % 2 ^ 32 = target.toNat) :
    Performs (rtlUnits mepc) mepc (issueDataConverted op) (.branch (fn.holds a b) target) := by
  have hissued := h.issued (by rw [hunit]; decide)
  have hop : op.subOp = bruSubOp fn := h.subOp.trans hsub
  have hjump : bruJump { op with lsuAddr := issueLsuAddr op } = fn.holds a b :=
    bruJump_fn fn hop h1 h2
  have hnext : bruNextPc mepc { op with lsuAddr := issueLsuAddr op } =
      if fn.holds a b then target.toNat else (op.pc + 4) % 2 ^ 32 := by
    cases hholds : fn.holds a b with
    | true =>
        rw [bruNextPc_jump (hjump.trans hholds), if_pos rfl, htarget]
        · dsimp only
          rw [hop]
          cases fn <;> decide
        · dsimp only
          rw [hop]
          cases fn <;> decide
    | false => rw [bruNextPc, hjump, hholds, if_neg Bool.false_ne_true, if_neg Bool.false_ne_true]
  rw [Performs, hissued]
  refine ⟨h.opUnit.trans hunit, ⟨h.hasException, h.rdEnable.trans henable, ?_⟩, hjump, hnext⟩
  show op.needRename = false
  rw [h.needRename, henable, Bool.false_and]

/-! ## Loads and stores -/

theorem accesses {bytes : Nat} {a i : BitVec 32} (hunit : f.opUnit = .lsu) (hvalid : f.valid = true)
    (hsub : f.subOp ≤ LsuOp.sw) (hbytes : accessSize f.subOp = bytes)
    (h1 : op.src1Value = a.toNat) (himm : f.imm = i.toNat) :
    Accesses (issueDataConverted op) bytes (if isLoad f.subOp then 4 else 6) (a + i) := by
  have hlsu : issueIsLsu op = true := by
    rw [issueIsLsu, h.valid, h.opUnit, hvalid, hunit]
    rfl
  have haddr : issueLsuAddr op = (a + i).toNat := by
    rw [issueLsuAddr, h1, h.imm, himm, BitVec.toNat_add]
  have hcases := accessSize_cases hsub
  have hmisaligned : lsuHasException op = decide ((a + i).toNat % bytes ≠ 0) := by
    have hpos : accessSize f.subOp ≠ 0 := by omega
    rw [lsuHasException, h.subOp, haddr, decide_eq_true hpos, Bool.true_and, hbytes]
    rw [hbytes] at hcases
    have hcheck := @checkAlign_iff (a + i).toNat bytes hcases
    rw [Bool.eq_iff_iff, Bool.not_eq_true', decide_eq_true_iff, ← Bool.not_eq_true, hcheck]
  refine ⟨h.opUnit.trans hunit, haddr, ?_, fun hexc => ?_, ?_⟩
  · rw [← hmisaligned, issueDataConverted]
    exact if_pos hlsu
  · have hexc' : lsuHasException op = true := by
      rw [issueDataConverted] at hexc
      exact (if_pos hlsu).symm.trans hexc
    have hid : (issueDataConverted op).exceptionId = lsuExceptionId op := if_pos hlsu
    have hpos : accessSize f.subOp ≠ 0 := by omega
    rw [hid, lsuExceptionId, h.subOp, hexc', if_pos rfl, if_neg hpos, if_pos rfl]
  · exact (if_pos hlsu).trans haddr

omit h in
/-- What the load/store unit makes of the `n` it reads. -/
def lsuForm (subOp : Nat) : LoadForm :=
  ⟨accessSize subOp, decide (subOp ≠ LsuOp.lbu ∧ subOp ≠ LsuOp.lhu)⟩

omit h in
theorem loadCases {subOp : Nat} (hload : isLoad subOp = true) :
    subOp = 0 ∨ subOp = 1 ∨ subOp = 2 ∨ subOp = 3 ∨ subOp = 4 := by
  rw [isLoad, decide_eq_true_iff] at hload
  have : subOp ≤ 4 := hload
  omega

omit h in
theorem rdValue_form {pack : IssueExecutePack} (hload : isLoad pack.subOp = true) (n : Nat) :
    (loadInput pack n).rdValue = ((lsuForm pack.subOp).extend n).toNat := by
  have hsub : (loadInput pack n).revPack.subOp = pack.subOp := rfl
  have hdata : (loadInput pack n).stbufExlsuBusDataFeedback.toNat = n % 2 ^ 128 := rfl
  have h8 := signExtend_toNat (by decide) (BitVec.ofNat 8 n)
  have h16 := signExtend_toNat (by decide) (BitVec.ofNat 16 n)
  rw [BitVec.toNat_ofNat] at h8 h16
  rcases loadCases hload with hop | hop | hop | hop | hop <;> rw [hop] at hsub ⊢
  · simp [ExecuteLsuInput.rdValue, hsub, hdata, lsuForm, LoadForm.extend, accessSize, ← h8]
  · simp [ExecuteLsuInput.rdValue, hsub, hdata, lsuForm, LoadForm.extend, accessSize]
    omega
  · simp [ExecuteLsuInput.rdValue, hsub, hdata, lsuForm, LoadForm.extend, accessSize, ← h16]
  · simp [ExecuteLsuInput.rdValue, hsub, hdata, lsuForm, LoadForm.extend, accessSize]
    omega
  · simp [ExecuteLsuInput.rdValue, hsub, hdata, lsuForm, LoadForm.extend, accessSize]

theorem performs_load {mepc : Nat} {reg : BitVec 5} {form : LoadForm} {a i : BitVec 32}
    (hunit : f.opUnit = .lsu) (hvalid : f.valid = true) (henable : f.rdEnable = true)
    (hrd : f.rd = reg.toNat) (hload : isLoad f.subOp = true) (hform : lsuForm f.subOp = form)
    (h1 : op.src1Value = a.toNat) (himm : f.imm = i.toNat) :
    Performs (rtlUnits mepc) mepc (issueDataConverted op) (.load reg form (a + i)) := by
  subst hform
  have hsub : (issueDataConverted op).subOp = f.subOp := h.subOp
  have hle : f.subOp ≤ LsuOp.sw := by
    have : f.subOp ≤ 4 := of_decide_eq_true hload
    show f.subOp ≤ 7
    omega
  have haccess := h.accesses hunit hvalid hle rfl h1 himm
  rw [if_pos hload] at haccess
  refine ⟨haccess, by rw [hsub, hload], by rw [hsub]; rfl, fun n _ hexc => ?_⟩
  refine ⟨hexc, h.rdEnable.trans henable, h.rd.trans hrd, h.needRename_rd henable hrd, ?_⟩
  have hvalue := @rdValue_form (issueDataConverted op) (by rw [hsub, hload]) n
  rw [hsub] at hvalue
  exact hvalue

theorem performs_store {mepc : Nat} {bytes : Nat} {a i b : BitVec 32} (hunit : f.opUnit = .lsu)
    (hvalid : f.valid = true) (henable : f.rdEnable = false) (hload : isLoad f.subOp = false)
    (hsub : f.subOp ≤ LsuOp.sw) (hbytes : accessSize f.subOp = bytes)
    (h1 : op.src1Value = a.toNat) (h2 : op.src2Value = b.toNat) (himm : f.imm = i.toNat) :
    Performs (rtlUnits mepc) mepc (issueDataConverted op) (.store bytes (a + i) b) := by
  have hop : (issueDataConverted op).subOp = f.subOp := h.subOp
  have haccess := h.accesses hunit hvalid hsub hbytes h1 himm
  rw [hload, if_neg Bool.false_ne_true] at haccess
  refine ⟨haccess, by rw [hop, hload], h.rdEnable.trans henable, ?_⟩
  have hsize : (loadInput (issueDataConverted op) 0).exlsuStbufWriteSize = bytes := by
    show (if isLoad (issueDataConverted op).subOp then 0
      else accessSize (issueDataConverted op).subOp) = bytes
    rw [hop, hload, if_neg Bool.false_ne_true, hbytes]
  have hdata : (loadInput (issueDataConverted op) 0).exlsuStbufWriteData =
      b.toNat % 2 ^ (8 * bytes) := by
    show storeData (issueDataConverted op) = _
    have hsrc2 : (issueDataConverted op).src2Value = b.toNat := h2
    have hcases : f.subOp = 5 ∨ f.subOp = 6 ∨ f.subOp = 7 := by
      have hno : ¬f.subOp ≤ 4 := of_decide_eq_false hload
      have : f.subOp ≤ 7 := hsub
      omega
    rw [storeData, hsrc2, hop, ← hbytes]
    rcases hcases with hs | hs | hs <;> rw [hs]
    · rfl
    · rfl
    · exact (Nat.mod_eq_of_lt b.isLt).symm
  exact Prod.ext hsize hdata

/-! ## Fences, traps and the return from one -/

theorem performs_fence {mepc : Nat} (hunit : f.opUnit = .alu) (hvalid : f.valid = true)
    (henable : f.rdEnable = false) (hsub : f.subOp = AluOp.fence) :
    Performs (rtlUnits mepc) mepc (issueDataConverted op) .fence := by
  have hissued := h.issued (by rw [hunit]; decide)
  rw [Performs, hissued]
  refine ⟨h.opUnit.trans hunit, ?_, h.rdEnable.trans henable, ?_⟩
  · show (op.hasException || !op.valid || aluNewHasException _) = false
    rw [h.hasException, h.valid, hvalid, aluNewHasException]
    dsimp only
    rw [h.subOp, hsub]
    rfl
  · show op.needRename = false
    rw [h.needRename, henable, Bool.false_and]

theorem performs_trap {mepc cause : Nat} (hunit : f.opUnit = .alu) (hvalid : f.valid = true)
    (hsub : f.subOp = AluOp.ecall ∧ cause = 11 ∨ f.subOp = AluOp.ebreak ∧ cause = 3) :
    Performs (rtlUnits mepc) mepc (issueDataConverted op) (.trap cause) := by
  have hissued := h.issued (by rw [hunit]; decide)
  have hop := h.subOp
  have hexc := h.hasException
  have hval := h.valid.trans hvalid
  rw [Performs, hissued]
  refine ⟨h.opUnit.trans hunit, ?_⟩
  rcases hsub with ⟨hsub, rfl⟩ | ⟨hsub, rfl⟩ <;> rw [hsub] at hop <;>
    simp [rtlUnits, executeAlu, aluNewHasException, aluNewExceptionId, hop, hexc, hval]

theorem performs_trapReturn {mepc : Nat} (hunit : f.opUnit = .bru) (henable : f.rdEnable = false)
    (hsub : f.subOp = BruOp.mret) :
    Performs (rtlUnits mepc) mepc (issueDataConverted op) .trapReturn := by
  have hissued := h.issued (by rw [hunit]; decide)
  have hop := h.subOp.trans hsub
  have hjump : bruJump { op with lsuAddr := issueLsuAddr op } = true := by simp [bruJump, hop]
  have hnext : bruNextPc mepc { op with lsuAddr := issueLsuAddr op } = mepc := by
    simp [bruNextPc, hjump, hop]
  rw [Performs, hissued]
  refine ⟨h.opUnit.trans hunit, ⟨h.hasException, h.rdEnable.trans henable, ?_⟩, hjump, hnext⟩
  show op.needRename = false
  rw [h.needRename, henable, Bool.false_and]

end OpOf

/-! ## Decode, class by class -/

section Classes

variable (w : BitVec 32) (f : DecodeFields)

theorem opcode_iff (n : BitVec 7) : opcode w = n ↔ wordOpcode w.toNat = n.toNat := by
  rw [wordOpcode_toNat, BitVec.toNat_inj]

theorem funct3_iff (n : BitVec 3) : funct3 w = n ↔ wordFunct3 w.toNat = n.toNat := by
  rw [wordFunct3_toNat, BitVec.toNat_inj]

theorem funct7_iff (n : BitVec 7) : funct7 w = n ↔ wordFunct7 w.toNat = n.toNat := by
  rw [wordFunct7_toNat, BitVec.toNat_inj]

/-- `d` reads as `P` where the instruction set has an operation, else as `Q`. -/
def Reads {α : Type} (P : α → DecodeFields → Prop) (Q : DecodeFields → Prop) :
    Option α → DecodeFields → Prop
  | some a, d => P a d
  | none, d => Q d

theorem reads_ite {α : Type} {P : α → DecodeFields → Prop} {Q : DecodeFields → Prop} {c : Prop}
    [Decidable c] {o o' : Option α} {d d' : DecodeFields} (h : Reads P Q o d)
    (h' : Reads P Q o' d') : Reads P Q (if c then o else o') (if c then d else d') := by
  split_ifs
  · exact h
  · exact h'

/-- The fields before the operation is set, and a fitting operation. -/
def OpSet (g : DecodeFields) (s : Nat) (d : DecodeFields) : Prop := ∃ o, d = g.withOp o s

def NotValid (d : DecodeFields) : Prop := d.valid = false

def branchFields : DecodeFields :=
  { f with
    opUnit := .bru, arg1Src := .reg, rs1 := wordRs1 w.toNat, arg2Src := .reg
    rs2 := wordRs2 w.toNat, imm := signExtend 13 (Rtl.immB w.toNat) }

theorem decodeBranch_reads : Reads (fun fn => OpSet (branchFields w f) (bruSubOp fn)) NotValid
    (branchFn (funct3 w)) (decodeBranch w.toNat f) := by
  simp only [branchFn, decodeBranch, funct3_iff, BitVec.reduceToNat]
  repeat' apply reads_ite
  all_goals first | exact ⟨_, rfl⟩ | rfl

def loadFields : DecodeFields :=
  { f with
    opUnit := .lsu, arg1Src := .reg, rs1 := wordRs1 w.toNat
    imm := signExtend 12 (Rtl.immI w.toNat), rd := wordRd w.toNat, rdEnable := true }

theorem decodeLoad_reads : Reads
    (fun form d => ∃ s, OpSet (loadFields w f) s d ∧ isLoad s = true ∧ OpOf.lsuForm s = form)
    NotValid (loadForm (funct3 w)) (decodeLoad w.toNat f) := by
  simp only [loadForm, decodeLoad, funct3_iff, BitVec.reduceToNat]
  repeat' apply reads_ite
  all_goals first | exact ⟨_, ⟨_, rfl⟩, rfl, rfl⟩ | rfl

def storeFields : DecodeFields :=
  { f with
    opUnit := .lsu, arg1Src := .reg, rs1 := wordRs1 w.toNat, arg2Src := .reg
    rs2 := wordRs2 w.toNat, imm := signExtend 12 (Rtl.immS w.toNat) }

theorem decodeStore_reads : Reads
    (fun bytes d => ∃ s, OpSet (storeFields w f) s d ∧ isLoad s = false ∧ s ≤ LsuOp.sw ∧
      accessSize s = bytes)
    NotValid (storeBytes (funct3 w)) (decodeStore w.toNat f) := by
  simp only [storeBytes, decodeStore, funct3_iff, BitVec.reduceToNat]
  repeat' apply reads_ite
  all_goals first | exact ⟨_, ⟨_, rfl⟩, rfl, by decide, rfl⟩ | rfl

def opImmFields : DecodeFields :=
  { f with
    opUnit := .alu, arg1Src := .reg, rs1 := wordRs1 w.toNat, arg2Src := .imm
    imm := signExtend 12 (Rtl.immI w.toNat), rd := wordRd w.toNat, rdEnable := true }

theorem decodeOpImm_reads : Reads (fun fn => OpSet (opImmFields w f) (aluSubOp fn)) NotValid
    (opImmFn (funct3 w) (funct7 w)) (decodeOpImm w.toNat f) := by
  simp only [opImmFn, decodeOpImm, funct3_iff, funct7_iff, BitVec.reduceToNat]
  repeat' apply reads_ite
  all_goals first | exact ⟨_, rfl⟩ | rfl

def opFields : DecodeFields :=
  { f with
    opUnit := .alu, arg1Src := .reg, rs1 := wordRs1 w.toNat, arg2Src := .reg
    rs2 := wordRs2 w.toNat, rd := wordRd w.toNat, rdEnable := true }

/-- NotValid, or of the `M` extension. -/
def Extension (d : DecodeFields) : Prop := d.valid = false ∨ d.opUnit = .mul ∨ d.opUnit = .div

theorem decodeByFunct7_reads {base : AluFn} {alternate : Option AluFn}
    {g dBase dAlternate dExtension : DecodeFields}
    (hbase : OpSet g (aluSubOp base) dBase)
    (halternate : Reads (fun fn => OpSet g (aluSubOp fn)) Extension alternate dAlternate)
    (hextension : Extension dExtension) :
    Reads (fun fn => OpSet g (aluSubOp fn)) Extension (byFunct7 (funct7 w) base alternate)
      (decodeByFunct7 w.toNat g dBase dAlternate dExtension) := by
  simp only [byFunct7, decodeByFunct7, funct7_iff, BitVec.reduceToNat]
  refine reads_ite hbase (reads_ite halternate ?_)
  show Extension _
  split_ifs
  · exact hextension
  · exact Or.inl rfl

theorem decodeOp_reads : Reads (fun fn => OpSet (opFields w f) (aluSubOp fn)) Extension
    (opFn (funct3 w) (funct7 w)) (decodeOp w.toNat f) := by
  simp only [opFn, decodeOp, funct3_iff, BitVec.reduceToNat]
  repeat' apply reads_ite
  all_goals
    refine decodeByFunct7_reads w ⟨_, rfl⟩ ?_ ?_
    · first | exact ⟨_, rfl⟩ | exact Or.inl rfl
    · first | exact Or.inr (Or.inl rfl) | exact Or.inr (Or.inr rfl)

end Classes

/-! ## Every word -/

theorem reads_map {α β : Type} {P : α → DecodeFields → Prop} {P' : β → DecodeFields → Prop}
    {Q Q' : DecodeFields → Prop} {g : α → β} {o : Option α} {d : DecodeFields}
    (h : Reads P Q o d) (hsome : ∀ a, P a d → P' (g a) d) (hnone : Q d → Q' d) :
    Reads P' Q' (o.map g) d := by
  cases o with
  | none => exact hnone h
  | some a => exact hsome a h

theorem reads_cases {α : Type} {P : α → DecodeFields → Prop} {Q : DecodeFields → Prop} {c : Prop}
    [Decidable c] {o o' : Option α} {d d' : DecodeFields} (h : c → Reads P Q o d)
    (h' : ¬c → Reads P Q o' d') : Reads P Q (if c then o else o') (if c then d else d') := by
  split_ifs with hc
  · exact h hc
  · exact h' hc

section Words

variable (mepc : Nat) (w pc : BitVec 32) (x : BitVec 5 → BitVec 32)

/-- The fields are accepted, and the units carry the instruction out. -/
def CarriedOut (o : Outcome) (d : DecodeFields) : Prop :=
  d.valid = true ∧ ∀ op, OpOf op d pc x →
    Performs (rtlUnits mepc) mepc (issueDataConverted op) o

/-- What decode makes of the other words. -/
def OtherWord (d : DecodeFields) : Prop :=
  d.valid = false ∨ d.opUnit = .mul ∨ d.opUnit = .div ∨ d.opUnit = .csr ∨ d.op = .fenceI ∨
    d.op = .jalr ∧ funct3 w ≠ 0

abbrev WordReads : Option Outcome → DecodeFields → Prop :=
  Reads (CarriedOut mepc pc x) (OtherWord w)

abbrev accepted : DecodeFields := decodeDefault false

theorem lui_reads : WordReads mepc w pc x (some (.write (rd w) (Rv32i.immU w)))
    (decodeLui w.toNat accepted) := by
  refine ⟨rfl, fun op h => h.performs_write rfl rfl rfl (wordRd_toNat w) ?_ ?_⟩
  · rw [aluNewHasException]
    dsimp only
    rw [h.subOp]
    rfl
  · have hsub : op.subOp = AluOp.lui := h.subOp
    have himm : op.imm = (Rv32i.immU w).toNat := h.imm.trans (immU_toNat w)
    simp [aluRdValue, hsub, himm]

theorem auipc_reads : WordReads mepc w pc x (some (.write (rd w) (pc + Rv32i.immU w)))
    (decodeAuipc w.toNat accepted) := by
  refine ⟨rfl, fun op h => h.performs_write rfl rfl rfl (wordRd_toNat w) ?_ ?_⟩
  · rw [aluNewHasException]
    dsimp only
    rw [h.subOp]
    rfl
  · have hsub : op.subOp = AluOp.auipc := h.subOp
    have himm : op.imm = (Rv32i.immU w).toNat := h.imm.trans (immU_toNat w)
    have hvalue : aluRdValue { op with lsuAddr := issueLsuAddr op } =
        (op.imm + op.pc) % 2 ^ 32 := by simp [aluRdValue, hsub]
    rw [hvalue, himm, h.pc, BitVec.toNat_add, Nat.add_comm]

theorem jal_reads : WordReads mepc w pc x (some (.jump (rd w) (pc + 4) (pc + Rv32i.immJ w)))
    (decodeJal w.toNat accepted) := by
  refine ⟨rfl, fun op h => h.performs_jump rfl rfl (wordRd_toNat w) (Or.inl rfl) ?_⟩
  have hsub : op.subOp = BruOp.jal := h.subOp
  have himm : op.imm = (Rv32i.immJ w).toNat := h.imm.trans (immJ_toNat w)
  have hnext : bruNextPc mepc { op with lsuAddr := issueLsuAddr op } =
      (op.pc + op.imm) % 2 ^ 32 := by simp [bruNextPc, bruJump, hsub]
  rw [hnext, himm, h.pc, BitVec.toNat_add]

/-- Clearing the lowest bit of a word. -/
theorem and_not_one (v : BitVec 32) : (v &&& ~~~1#32).toNat = v.toNat / 2 * 2 := by
  have hshift : v &&& ~~~1#32 = v >>> 1 <<< 1 := by
    apply BitVec.eq_of_getLsbD_eq
    intro i hi
    rw [BitVec.getLsbD_and, BitVec.getLsbD_not, BitVec.getLsbD_shiftLeft,
      BitVec.getLsbD_ushiftRight, BitVec.getLsbD_one, decide_eq_true hi]
    cases i with
    | zero => simp
    | succ i => simp [Nat.add_comm]
  have hlt := v.isLt
  rw [hshift, BitVec.toNat_shiftLeft, BitVec.toNat_ushiftRight, Nat.shiftRight_eq_div_pow,
    Nat.shiftLeft_eq]
  omega

theorem jalr_reads (hx : x 0 = 0) : WordReads mepc w pc x
    (if funct3 w = 0 then
      some (.jump (rd w) (pc + 4) ((x (rs1 w) + Rv32i.immI w) &&& ~~~1#32)) else none)
    (decodeJalr w.toNat accepted) := by
  split_ifs with hfunct3
  · refine ⟨rfl, fun op h => h.performs_jump rfl rfl (wordRd_toNat w) (Or.inr rfl) ?_⟩
    have hsub : op.subOp = BruOp.jalr := h.subOp
    have himm : op.imm = (Rv32i.immI w).toNat := h.imm.trans (immI_toNat w)
    have hsrc1 : op.src1Value = (x (rs1 w)).toNat := h.src1_reg hx rfl (wordRs1_toNat w)
    have hnext : bruNextPc mepc { op with lsuAddr := issueLsuAddr op } =
        (op.imm + op.src1Value) % 2 ^ 32 / 2 * 2 := by simp [bruNextPc, bruJump, hsub]
    rw [hnext, himm, hsrc1, and_not_one, BitVec.toNat_add, Nat.add_comm]
  · exact Or.inr (Or.inr (Or.inr (Or.inr (Or.inr ⟨rfl, hfunct3⟩))))

theorem branch_reads (hx : x 0 = 0) : WordReads mepc w pc x (branchOutcome w pc x)
    (decodeBranch w.toNat accepted) := by
  refine reads_map (decodeBranch_reads w accepted) (fun fn hset => ?_) Or.inl
  obtain ⟨o, hd⟩ := hset
  rw [hd]
  refine ⟨rfl, fun op h => ?_⟩
  have himm : op.imm = (Rv32i.immB w).toNat := h.imm.trans (immB_toNat w)
  refine h.performs_branch fn rfl rfl rfl (h.src1_reg hx rfl (wordRs1_toNat w))
    (h.src2_reg hx rfl (wordRs2_toNat w)) ?_
  rw [himm, h.pc, BitVec.toNat_add]

theorem load_reads (hx : x 0 = 0) : WordReads mepc w pc x (loadOutcome w x)
    (decodeLoad w.toNat accepted) := by
  refine reads_map (decodeLoad_reads w accepted) (fun form hset => ?_) Or.inl
  obtain ⟨s, ⟨o, hd⟩, hload, hform⟩ := hset
  rw [hd]
  exact ⟨rfl, fun op h => h.performs_load rfl rfl rfl (wordRd_toNat w) hload hform
    (h.src1_reg hx rfl (wordRs1_toNat w)) (immI_toNat w)⟩

theorem store_reads (hx : x 0 = 0) : WordReads mepc w pc x (storeOutcome w x)
    (decodeStore w.toNat accepted) := by
  refine reads_map (decodeStore_reads w accepted) (fun bytes hset => ?_) Or.inl
  obtain ⟨s, ⟨o, hd⟩, hload, hle, hbytes⟩ := hset
  rw [hd]
  exact ⟨rfl, fun op h => h.performs_store rfl rfl rfl hload hle hbytes
    (h.src1_reg hx rfl (wordRs1_toNat w)) (h.src2_reg hx rfl (wordRs2_toNat w)) (immS_toNat w)⟩

theorem opImm_reads (hx : x 0 = 0) : WordReads mepc w pc x (opImmOutcome w x)
    (decodeOpImm w.toNat accepted) := by
  refine reads_map (decodeOpImm_reads w accepted) (fun fn hset => ?_) Or.inl
  obtain ⟨o, hd⟩ := hset
  rw [hd]
  exact ⟨rfl, fun op h => h.performs_write rfl rfl rfl (wordRd_toNat w)
    (aluNewHasException_fn fn h.subOp) (aluRdValue_fn fn h.subOp
      (h.src1_reg hx rfl (wordRs1_toNat w)) ((h.src2_imm rfl).trans (immI_toNat w)))⟩

theorem op_reads (hx : x 0 = 0) : WordReads mepc w pc x (opOutcome w x)
    (decodeOp w.toNat accepted) := by
  refine reads_map (decodeOp_reads w accepted) (fun fn hset => ?_) fun hother => ?_
  · obtain ⟨o, hd⟩ := hset
    rw [hd]
    exact ⟨rfl, fun op h => h.performs_write rfl rfl rfl (wordRd_toNat w)
      (aluNewHasException_fn fn h.subOp) (aluRdValue_fn fn h.subOp
        (h.src1_reg hx rfl (wordRs1_toNat w)) (h.src2_reg hx rfl (wordRs2_toNat w)))⟩
  · exact hother.imp id (Or.imp id Or.inl)

omit mepc pc x in
/-- The fields a fence reserves, as decode looks at them. -/
theorem fenceFields_iff : (rd w = 0 ∧ rs1 w = 0 ∧ w.extractLsb' 28 4 = 0) ↔
    wordRd w.toNat = 0 ∧ wordRs1 w.toNat = 0 ∧ bits w.toNat 28 4 = 0 := by
  rw [wordRd_toNat, wordRs1_toNat, bits_toNat, ← BitVec.toNat_inj, ← BitVec.toNat_inj,
    ← BitVec.toNat_inj]
  rfl

theorem fence_reads (hop : opcode w = 0x0f) (hfields : ¬FenceFieldsSet w) :
    WordReads mepc w pc x (if funct3 w = 0 then some .fence else none)
      (decodeMiscMem w.toNat accepted) := by
  simp only [decodeMiscMem, funct3_iff, BitVec.reduceToNat]
  refine reads_cases (fun hfunct3 => ?_) fun _ => ?_
  · have hzero := not_not.1 fun hset => hfields ⟨hop, (funct3_iff w 0).2 hfunct3, hset⟩
    rw [if_pos ((fenceFields_iff w).1 hzero)]
    exact ⟨rfl, fun op h => h.performs_fence rfl rfl rfl rfl⟩
  · show OtherWord w _
    split_ifs
    · exact Or.inr (Or.inr (Or.inr (Or.inr (Or.inl rfl))))
    · exact Or.inl rfl
    · exact Or.inl rfl

omit mepc pc x in
/-- A fence with such a field set is rejected. -/
theorem fenceFields_rejected (h : FenceFieldsSet w) : (rtlFields w).valid = false := by
  obtain ⟨hop, hfunct3, hset⟩ := h
  have hopcode : wordOpcode w.toNat = 0x0f := (opcode_iff w 0x0f).1 hop
  have hzero : wordFunct3 w.toNat = 0 := (funct3_iff w 0).1 hfunct3
  rw [rtlFields, decodeFields, decodeByOpcode, hopcode]
  iterate 9 rw [if_neg (by decide)]
  rw [if_pos rfl, decodeMiscMem, if_pos hzero, if_neg (mt (fenceFields_iff w).2 hset)]
  rfl

/-- The words of `ecall`, `ebreak` and `mret` by their fields. -/
theorem system_word (hop : opcode w = 0x73) (hfunct3 : wordFunct3 w.toNat = 0)
    (hregs : wordRd w.toNat = 0 ∧ wordRs1 w.toNat = 0) (funct12 : BitVec 32)
    (hpack : InstructionFormats.pack 0x73 0 0 0 (wordRs2 w.toNat) (wordFunct7 w.toNat) =
      funct12.toNat) : w = funct12 := by
  have hword := pack_word w.isLt
  rw [(opcode_iff w 0x73).1 hop, hregs.1, hfunct3, hregs.2] at hword
  exact BitVec.eq_of_toNat_eq (hword.symm.trans hpack)

theorem system_reads (hop : opcode w = 0x73) : WordReads mepc w pc x (systemOutcome w)
    (decodeSystem w.toNat accepted) := by
  rw [systemOutcome]
  split_ifs with hecall hebreak hmret
  · subst hecall
    exact ⟨rfl, fun op h => h.performs_trap rfl rfl (Or.inl ⟨rfl, rfl⟩)⟩
  · subst hebreak
    exact ⟨rfl, fun op h => h.performs_trap rfl rfl (Or.inr ⟨rfl, rfl⟩)⟩
  · subst hmret
    exact ⟨rfl, fun op h => h.performs_trapReturn rfl rfl rfl⟩
  · show OtherWord w _
    rw [decodeSystem]
    split_ifs with h0 hregs hfunct7 hrs2 hrs2' hfunct7' hrs2''
    · refine absurd (system_word w hop h0 hregs _ ?_) hecall
      rw [hfunct7, hrs2]
      rfl
    · refine absurd (system_word w hop h0 hregs _ ?_) hebreak
      rw [hfunct7, hrs2']
      rfl
    · exact Or.inl rfl
    · refine absurd (system_word w hop h0 hregs _ ?_) hmret
      rw [hfunct7', hrs2'']
      rfl
    iterate 3 exact Or.inl rfl
    iterate 6 exact Or.inr (Or.inr (Or.inr (Or.inl rfl)))
    exact Or.inl rfl

/-- The units carry out what a word asks for, whatever the target of its jump. -/
theorem word_reads (hx : x 0 = 0) (hfields : ¬FenceFieldsSet w) :
    WordReads mepc w pc x (attempt w pc x) (rtlFields w) := by
  have hother : WordReads mepc w pc x none accepted.invalid := Or.inl rfl
  simp only [attempt, rtlFields, decodeFields, decodeByOpcode]
  simp only [opcode_iff, BitVec.reduceToNat]
  refine reads_ite (lui_reads mepc w pc x) (reads_ite (auipc_reads mepc w pc x)
    (reads_ite (jal_reads mepc w pc x) (reads_ite (jalr_reads mepc w pc x hx)
    (reads_ite (branch_reads mepc w pc x hx) (reads_ite (load_reads mepc w pc x hx)
    (reads_ite (store_reads mepc w pc x hx) (reads_ite (opImm_reads mepc w pc x hx)
    (reads_ite (op_reads mepc w pc x hx) (reads_cases (fun hop => ?_)
    fun _ => reads_cases (fun hop => ?_) fun _ => hother)))))))))
  · exact fence_reads mepc w pc x ((opcode_iff w 0x0f).2 hop) hfields
  · exact system_reads mepc w pc x ((opcode_iff w 0x73).2 hop)

end Words

end DreamCore.Proofs
