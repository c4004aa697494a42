import DreamCore.Rtl.Types

/-!
# Instruction decode (`decode.sv`)

One definition for each major opcode, each starting from the default assignments
of the combinational block.  An encoding the decoder rejects only clears `valid`;
whatever was assigned before, a destination register included, stays.
-/

namespace DreamCore.Rtl

/-! ## Sub-operations -/

namespace AluOp
abbrev add : Nat := 0
abbrev and : Nat := 1
abbrev auipc : Nat := 2
abbrev ebreak : Nat := 3
abbrev ecall : Nat := 4
abbrev fence : Nat := 5
abbrev fenceI : Nat := 6
abbrev lui : Nat := 7
abbrev or : Nat := 8
abbrev sll : Nat := 9
abbrev slt : Nat := 10
abbrev sltu : Nat := 11
abbrev sra : Nat := 12
abbrev srl : Nat := 13
abbrev sub : Nat := 14
abbrev xor : Nat := 15
end AluOp

namespace BruOp
abbrev beq : Nat := 0
abbrev bge : Nat := 1
abbrev bgeu : Nat := 2
abbrev blt : Nat := 3
abbrev bltu : Nat := 4
abbrev bne : Nat := 5
abbrev jal : Nat := 6
abbrev jalr : Nat := 7
abbrev mret : Nat := 8
end BruOp

namespace CsrOp
abbrev csrrc : Nat := 0
abbrev csrrs : Nat := 1
abbrev csrrw : Nat := 2
end CsrOp

namespace DivOp
abbrev div : Nat := 0
abbrev divu : Nat := 1
abbrev rem : Nat := 2
abbrev remu : Nat := 3
end DivOp

namespace LsuOp
abbrev lb : Nat := 0
abbrev lbu : Nat := 1
abbrev lh : Nat := 2
abbrev lhu : Nat := 3
abbrev lw : Nat := 4
abbrev sb : Nat := 5
abbrev sh : Nat := 6
abbrev sw : Nat := 7
end LsuOp

namespace MulOp
abbrev mul : Nat := 0
abbrev mulh : Nat := 1
abbrev mulhsu : Nat := 2
abbrev mulhu : Nat := 3
end MulOp

/-! ## Fields of the instruction word -/

/-- The part select `word[lo +: width]`. -/
def bits (word lo width : Nat) : Nat := (word >>> lo) % 2 ^ width

/-- `sign_extend#(len)::_do` on a value of `len` bits. -/
def signExtend (len imm : Nat) : Nat :=
  if imm < 2 ^ (len - 1) then imm else imm + 2 ^ 32 - 2 ^ len

section Word

variable (opData : Nat)

def wordOpcode : Nat := bits opData 0 7
def wordRd : Nat := bits opData 7 5
def wordFunct3 : Nat := bits opData 12 3
def wordRs1 : Nat := bits opData 15 5
def wordRs2 : Nat := bits opData 20 5
def wordFunct7 : Nat := bits opData 25 7
def immI : Nat := bits opData 20 12
def immS : Nat := bits opData 25 7 <<< 5 ||| bits opData 7 5
def immB : Nat :=
  bits opData 31 1 <<< 12 ||| bits opData 7 1 <<< 11 ||| bits opData 25 6 <<< 5 |||
    bits opData 8 4 <<< 1
def immU : Nat := bits opData 12 20 <<< 12
def immJ : Nat :=
  bits opData 31 1 <<< 20 ||| bits opData 12 8 <<< 12 ||| bits opData 20 1 <<< 11 |||
    bits opData 21 10 <<< 1

end Word

/-! ## Decoding by major opcode -/

/-- What the combinational block assigns. -/
structure DecodeFields where
  op : Op
  opUnit : OpUnit
  subOp : Nat
  arg1Src : ArgSrc
  rs1 : Nat
  arg2Src : ArgSrc
  rs2 : Nat
  imm : Nat
  rd : Nat
  rdEnable : Bool
  valid : Bool
  csr : Nat

def decodeDefault (hasException : Bool) : DecodeFields where
  op := .add
  opUnit := .alu
  subOp := 0
  arg1Src := .disable
  rs1 := 0
  arg2Src := .disable
  rs2 := 0
  imm := 0
  rd := 0
  rdEnable := false
  valid := !hasException
  csr := 0

def DecodeFields.invalid (f : DecodeFields) : DecodeFields := { f with valid := false }

def DecodeFields.withOp (f : DecodeFields) (op : Op) (subOp : Nat) : DecodeFields :=
  { f with op := op, subOp := subOp }

def DecodeFields.withUnit (f : DecodeFields) (op : Op) (opUnit : OpUnit) (subOp : Nat) :
    DecodeFields :=
  { f with op := op, opUnit := opUnit, subOp := subOp }

section Opcode

variable (opData : Nat) (f : DecodeFields)

def decodeLui : DecodeFields :=
  { f.withUnit .lui .alu AluOp.lui with
    imm := immU opData, rd := wordRd opData, rdEnable := true }

def decodeAuipc : DecodeFields :=
  { f.withUnit .auipc .alu AluOp.auipc with
    imm := immU opData, rd := wordRd opData, rdEnable := true }

def decodeJal : DecodeFields :=
  { f.withUnit .jal .bru BruOp.jal with
    imm := signExtend 21 (immJ opData), rd := wordRd opData, rdEnable := true }

def decodeJalr : DecodeFields :=
  { f.withUnit .jalr .bru BruOp.jalr with
    arg1Src := .reg, rs1 := wordRs1 opData, imm := signExtend 12 (immI opData)
    rd := wordRd opData, rdEnable := true }

def decodeBranch : DecodeFields :=
  let g := { f with
    opUnit := .bru, arg1Src := .reg, rs1 := wordRs1 opData, arg2Src := .reg
    rs2 := wordRs2 opData, imm := signExtend 13 (immB opData) }
  if wordFunct3 opData = 0 then g.withOp .beq BruOp.beq
  else if wordFunct3 opData = 1 then g.withOp .bne BruOp.bne
  else if wordFunct3 opData = 4 then g.withOp .blt BruOp.blt
  else if wordFunct3 opData = 5 then g.withOp .bge BruOp.bge
  else if wordFunct3 opData = 6 then g.withOp .bltu BruOp.bltu
  else if wordFunct3 opData = 7 then g.withOp .bgeu BruOp.bgeu
  else g.invalid

def decodeLoad : DecodeFields :=
  let g := { f with
    opUnit := .lsu, arg1Src := .reg, rs1 := wordRs1 opData
    imm := signExtend 12 (immI opData), rd := wordRd opData, rdEnable := true }
  if wordFunct3 opData = 0 then g.withOp .lb LsuOp.lb
  else if wordFunct3 opData = 1 then g.withOp .lh LsuOp.lh
  else if wordFunct3 opData = 2 then g.withOp .lw LsuOp.lw
  else if wordFunct3 opData = 4 then g.withOp .lbu LsuOp.lbu
  else if wordFunct3 opData = 5 then g.withOp .lhu LsuOp.lhu
  else g.invalid

def decodeStore : DecodeFields :=
  let g := { f with
    opUnit := .lsu, arg1Src := .reg, rs1 := wordRs1 opData, arg2Src := .reg
    rs2 := wordRs2 opData, imm := signExtend 12 (immS opData) }
  if wordFunct3 opData = 0 then g.withOp .sb LsuOp.sb
  else if wordFunct3 opData = 1 then g.withOp .sh LsuOp.sh
  else if wordFunct3 opData = 2 then g.withOp .sw LsuOp.sw
  else g.invalid

def decodeOpImm : DecodeFields :=
  let g := { f with
    opUnit := .alu, arg1Src := .reg, rs1 := wordRs1 opData, arg2Src := .imm
    imm := signExtend 12 (immI opData), rd := wordRd opData, rdEnable := true }
  if wordFunct3 opData = 0 then g.withOp .addi AluOp.add
  else if wordFunct3 opData = 2 then g.withOp .slti AluOp.slt
  else if wordFunct3 opData = 3 then g.withOp .sltiu AluOp.sltu
  else if wordFunct3 opData = 4 then g.withOp .xori AluOp.xor
  else if wordFunct3 opData = 6 then g.withOp .ori AluOp.or
  else if wordFunct3 opData = 7 then g.withOp .andi AluOp.and
  else if wordFunct3 opData = 1 then
    if wordFunct7 opData = 0x00 then g.withOp .slli AluOp.sll else g.invalid
  else if wordFunct7 opData = 0x00 then g.withOp .srli AluOp.srl
  else if wordFunct7 opData = 0x20 then g.withOp .srai AluOp.sra
  else g.invalid

/-- The three readings of a register-register `funct3`: base, alternate, `M` extension. -/
def decodeByFunct7 (g base alternate extension : DecodeFields) : DecodeFields :=
  if wordFunct7 opData = 0x00 then base
  else if wordFunct7 opData = 0x20 then alternate
  else if wordFunct7 opData = 0x01 then extension
  else g.invalid

def decodeOp : DecodeFields :=
  let g := { f with
    opUnit := .alu, arg1Src := .reg, rs1 := wordRs1 opData, arg2Src := .reg
    rs2 := wordRs2 opData, rd := wordRd opData, rdEnable := true }
  let byFunct7 := decodeByFunct7 opData g
  if wordFunct3 opData = 0 then
    byFunct7 (g.withOp .add AluOp.add) (g.withOp .sub AluOp.sub)
      (g.withUnit .mul .mul MulOp.mul)
  else if wordFunct3 opData = 1 then
    byFunct7 (g.withOp .sll AluOp.sll) g.invalid (g.withUnit .mulh .mul MulOp.mulh)
  else if wordFunct3 opData = 2 then
    byFunct7 (g.withOp .slt AluOp.slt) g.invalid (g.withUnit .mulhsu .mul MulOp.mulhsu)
  else if wordFunct3 opData = 3 then
    byFunct7 (g.withOp .sltu AluOp.sltu) g.invalid (g.withUnit .mulhu .mul MulOp.mulhu)
  else if wordFunct3 opData = 4 then
    byFunct7 (g.withOp .xor AluOp.xor) g.invalid (g.withUnit .div .div DivOp.div)
  else if wordFunct3 opData = 5 then
    byFunct7 (g.withOp .srl AluOp.srl) (g.withOp .sra AluOp.sra)
      (g.withUnit .divu .div DivOp.divu)
  else if wordFunct3 opData = 6 then
    byFunct7 (g.withOp .or AluOp.or) g.invalid (g.withUnit .rem .div DivOp.rem)
  else
    byFunct7 (g.withOp .and AluOp.and) g.invalid (g.withUnit .remu .div DivOp.remu)

def decodeMiscMem : DecodeFields :=
  if wordFunct3 opData = 0 then
    if wordRd opData = 0 ∧ wordRs1 opData = 0 ∧ bits opData 28 4 = 0 then
      { f.withUnit .fence .alu AluOp.fence with imm := immI opData }
    else f.invalid
  else if wordFunct3 opData = 1 then
    if wordRd opData = 0 ∧ wordRs1 opData = 0 ∧ immI opData = 0 then
      f.withUnit .fenceI .alu AluOp.fenceI
    else f.invalid
  else f.invalid

def decodeCsrReg (op : Op) (subOp : Nat) : DecodeFields :=
  { f.withUnit op .csr subOp with
    arg1Src := .reg, rs1 := wordRs1 opData, csr := immI opData
    rd := wordRd opData, rdEnable := true }

def decodeCsrImm (op : Op) (subOp : Nat) : DecodeFields :=
  { f.withUnit op .csr subOp with
    arg1Src := .imm, imm := wordRs1 opData, csr := immI opData
    rd := wordRd opData, rdEnable := true }

def decodeSystem : DecodeFields :=
  if wordFunct3 opData = 0 then
    if wordRd opData = 0 ∧ wordRs1 opData = 0 then
      if wordFunct7 opData = 0x00 then
        if wordRs2 opData = 0x00 then f.withUnit .ecall .alu AluOp.ecall
        else if wordRs2 opData = 0x01 then f.withUnit .ebreak .alu AluOp.ebreak
        else f.invalid
      else if wordFunct7 opData = 0x18 then
        if wordRs2 opData = 0x02 then f.withUnit .mret .bru BruOp.mret else f.invalid
      else f.invalid
    else f.invalid
  else if wordFunct3 opData = 1 then decodeCsrReg opData f .csrrw CsrOp.csrrw
  else if wordFunct3 opData = 2 then decodeCsrReg opData f .csrrs CsrOp.csrrs
  else if wordFunct3 opData = 3 then decodeCsrReg opData f .csrrc CsrOp.csrrc
  else if wordFunct3 opData = 5 then decodeCsrImm opData f .csrrwi CsrOp.csrrw
  else if wordFunct3 opData = 6 then decodeCsrImm opData f .csrrsi CsrOp.csrrs
  else if wordFunct3 opData = 7 then decodeCsrImm opData f .csrrci CsrOp.csrrc
  else f.invalid

def decodeByOpcode : DecodeFields :=
  if wordOpcode opData = 0x37 then decodeLui opData f
  else if wordOpcode opData = 0x17 then decodeAuipc opData f
  else if wordOpcode opData = 0x6f then decodeJal opData f
  else if wordOpcode opData = 0x67 then decodeJalr opData f
  else if wordOpcode opData = 0x63 then decodeBranch opData f
  else if wordOpcode opData = 0x03 then decodeLoad opData f
  else if wordOpcode opData = 0x23 then decodeStore opData f
  else if wordOpcode opData = 0x13 then decodeOpImm opData f
  else if wordOpcode opData = 0x33 then decodeOp opData f
  else if wordOpcode opData = 0x0f then decodeMiscMem opData f
  else if wordOpcode opData = 0x73 then decodeSystem opData f
  else f.invalid

end Opcode

def decodeFields (opData : Nat) (hasException : Bool) : DecodeFields :=
  decodeByOpcode opData (decodeDefault hasException)

/-- The pack `decode` sends for the pack it receives. -/
def decode (p : FetchDecodePack) : DecodeRenamePack :=
  let f := decodeFields p.value p.hasException
  { toFetchDecodePack := p
    valid := f.valid
    imm := f.imm
    rs1 := f.rs1
    arg1Src := f.arg1Src
    rs1NeedMap := decide (f.arg1Src = .reg) && decide (f.rs1 ≠ 0)
    rs2 := f.rs2
    arg2Src := f.arg2Src
    rs2NeedMap := decide (f.arg2Src = .reg) && decide (f.rs2 ≠ 0)
    rd := f.rd
    rdEnable := f.rdEnable
    needRename := f.rdEnable && decide (f.rd ≠ 0)
    csr := f.csr
    op := f.op
    opUnit := f.opUnit
    subOp := f.subOp }

/-! ## Facts about every word -/

theorem wordRd_lt (opData : Nat) : wordRd opData < archRegNum := Nat.mod_lt _ (by decide)

section Destination

variable (opData : Nat) (f : DecodeFields)

theorem decodeBranch_rd : (decodeBranch opData f).rd = f.rd := by
  simp only [decodeBranch, apply_ite DecodeFields.rd, DecodeFields.withOp,
    DecodeFields.invalid, ite_self]

theorem decodeLoad_rd : (decodeLoad opData f).rd = wordRd opData := by
  simp only [decodeLoad, apply_ite DecodeFields.rd, DecodeFields.withOp,
    DecodeFields.invalid, ite_self]

theorem decodeStore_rd : (decodeStore opData f).rd = f.rd := by
  simp only [decodeStore, apply_ite DecodeFields.rd, DecodeFields.withOp,
    DecodeFields.invalid, ite_self]

theorem decodeOpImm_rd : (decodeOpImm opData f).rd = wordRd opData := by
  simp only [decodeOpImm, apply_ite DecodeFields.rd, DecodeFields.withOp,
    DecodeFields.invalid, ite_self]

theorem decodeOp_rd : (decodeOp opData f).rd = wordRd opData := by
  simp only [decodeOp, decodeByFunct7, apply_ite DecodeFields.rd, DecodeFields.withOp,
    DecodeFields.withUnit, DecodeFields.invalid, ite_self]

theorem decodeMiscMem_rd : (decodeMiscMem opData f).rd = f.rd := by
  simp only [decodeMiscMem, apply_ite DecodeFields.rd, DecodeFields.withUnit,
    DecodeFields.invalid, ite_self]

theorem decodeSystem_rd :
    (decodeSystem opData f).rd = wordRd opData ∨ (decodeSystem opData f).rd = f.rd := by
  simp only [decodeSystem, decodeCsrReg, decodeCsrImm, apply_ite DecodeFields.rd,
    DecodeFields.withUnit, DecodeFields.invalid, ite_self]
  split_ifs <;> simp

end Destination

/-- The opcodes `decode` knows. -/
def knownOpcodes : List Nat :=
  [0x37, 0x17, 0x6f, 0x67, 0x63, 0x03, 0x23, 0x13, 0x33, 0x0f, 0x73]

/-- A property of the fields holds of every word if it holds for every major opcode. -/
theorem decodeByOpcode_cases {P : DecodeFields → Prop} {opData : Nat} {f : DecodeFields}
    (lui : wordOpcode opData = 0x37 → P (decodeLui opData f))
    (auipc : wordOpcode opData = 0x17 → P (decodeAuipc opData f))
    (jal : wordOpcode opData = 0x6f → P (decodeJal opData f))
    (jalr : wordOpcode opData = 0x67 → P (decodeJalr opData f))
    (branch : wordOpcode opData = 0x63 → P (decodeBranch opData f))
    (load : wordOpcode opData = 0x03 → P (decodeLoad opData f))
    (store : wordOpcode opData = 0x23 → P (decodeStore opData f))
    (opImm : wordOpcode opData = 0x13 → P (decodeOpImm opData f))
    (op : wordOpcode opData = 0x33 → P (decodeOp opData f))
    (miscMem : wordOpcode opData = 0x0f → P (decodeMiscMem opData f))
    (system : wordOpcode opData = 0x73 → P (decodeSystem opData f))
    (invalid : wordOpcode opData ∉ knownOpcodes → P f.invalid) :
    P (decodeByOpcode opData f) := by
  unfold decodeByOpcode
  repeat' split
  · exact lui ‹_›
  · exact auipc ‹_›
  · exact jal ‹_›
  · exact jalr ‹_›
  · exact branch ‹_›
  · exact load ‹_›
  · exact store ‹_›
  · exact opImm ‹_›
  · exact op ‹_›
  · exact miscMem ‹_›
  · exact system ‹_›
  · refine invalid ?_
    simp only [knownOpcodes, List.mem_cons, List.not_mem_nil, or_false, not_or]
    exact ⟨‹_›, ‹_›, ‹_›, ‹_›, ‹_›, ‹_›, ‹_›, ‹_›, ‹_›, ‹_›, ‹_›⟩

theorem decodeByOpcode_rd_lt {opData : Nat} {f : DecodeFields} (hf : f.rd < archRegNum) :
    (decodeByOpcode opData f).rd < archRegNum := by
  have hword := wordRd_lt opData
  refine decodeByOpcode_cases (P := fun g => g.rd < archRegNum) (fun _ => hword)
    (fun _ => hword) (fun _ => hword) (fun _ => hword) (fun _ => ?_) (fun _ => ?_) (fun _ => ?_)
    (fun _ => ?_) (fun _ => ?_) (fun _ => ?_) (fun _ => ?_) fun _ => hf
  · exact decodeBranch_rd opData f ▸ hf
  · exact decodeLoad_rd opData f ▸ hword
  · exact decodeStore_rd opData f ▸ hf
  · exact decodeOpImm_rd opData f ▸ hword
  · exact decodeOp_rd opData f ▸ hword
  · exact decodeMiscMem_rd opData f ▸ hf
  · rcases decodeSystem_rd opData f with h | h
    · exact h ▸ hword
    · exact h ▸ hf

theorem decodeFields_rd_lt (opData : Nat) (hasException : Bool) :
    (decodeFields opData hasException).rd < archRegNum :=
  decodeByOpcode_rd_lt (Nat.zero_lt_succ 31)

/-- A destination that is renamed is one of the registers 1 to 31. -/
theorem decode_needRename_rd {p : FetchDecodePack} (h : (decode p).needRename = true) :
    1 ≤ (decode p).rd ∧ (decode p).rd < archRegNum := by
  refine ⟨?_, decodeFields_rd_lt _ _⟩
  have hne : (decode p).rd ≠ 0 := by
    simp only [decode, Bool.and_eq_true, decide_eq_true_eq] at h
    exact h.2
  omega

theorem decodeByOpcode_sources_lt {opData : Nat} {f : DecodeFields}
    (hf : f.rs1 < archRegNum ∧ f.rs2 < archRegNum) :
    (decodeByOpcode opData f).rs1 < archRegNum ∧ (decodeByOpcode opData f).rs2 < archRegNum := by
  have h1 : wordRs1 opData < archRegNum := Nat.mod_lt _ (by decide)
  have h2 : wordRs2 opData < archRegNum := Nat.mod_lt _ (by decide)
  refine decodeByOpcode_cases (P := fun g => g.rs1 < archRegNum ∧ g.rs2 < archRegNum)
    (fun _ => hf) (fun _ => hf) (fun _ => hf) (fun _ => ⟨h1, hf.2⟩) (fun _ => ?_) (fun _ => ?_)
    (fun _ => ?_) (fun _ => ?_) (fun _ => ?_) (fun _ => ?_) (fun _ => ?_) fun _ => hf
  · simp only [decodeBranch, apply_ite DecodeFields.rs1, apply_ite DecodeFields.rs2,
      DecodeFields.withOp, DecodeFields.invalid, ite_self]
    exact ⟨h1, h2⟩
  · simp only [decodeLoad, apply_ite DecodeFields.rs1, apply_ite DecodeFields.rs2,
      DecodeFields.withOp, DecodeFields.invalid, ite_self]
    exact ⟨h1, hf.2⟩
  · simp only [decodeStore, apply_ite DecodeFields.rs1, apply_ite DecodeFields.rs2,
      DecodeFields.withOp, DecodeFields.invalid, ite_self]
    exact ⟨h1, h2⟩
  · simp only [decodeOpImm, apply_ite DecodeFields.rs1, apply_ite DecodeFields.rs2,
      DecodeFields.withOp, DecodeFields.invalid, ite_self]
    exact ⟨h1, hf.2⟩
  · simp only [decodeOp, decodeByFunct7, apply_ite DecodeFields.rs1, apply_ite DecodeFields.rs2,
      DecodeFields.withOp, DecodeFields.withUnit, DecodeFields.invalid, ite_self]
    exact ⟨h1, h2⟩
  · simp only [decodeMiscMem, apply_ite DecodeFields.rs1, apply_ite DecodeFields.rs2,
      DecodeFields.withUnit, DecodeFields.invalid, ite_self]
    exact hf
  · simp only [decodeSystem, decodeCsrReg, decodeCsrImm, apply_ite DecodeFields.rs1,
      apply_ite DecodeFields.rs2, DecodeFields.withUnit, DecodeFields.invalid, ite_self]
    obtain ⟨hf1, hf2⟩ := hf
    split_ifs <;> exact ⟨by assumption, hf2⟩

/-- A source that is mapped is one of the registers 1 to 31. -/
theorem decode_needMap_sources (p : FetchDecodePack) :
    ((decode p).rs1NeedMap = true → 1 ≤ (decode p).rs1 ∧ (decode p).rs1 < archRegNum) ∧
      ((decode p).rs2NeedMap = true → 1 ≤ (decode p).rs2 ∧ (decode p).rs2 < archRegNum) := by
  have hlt : (decode p).rs1 < archRegNum ∧ (decode p).rs2 < archRegNum :=
    decodeByOpcode_sources_lt ⟨Nat.zero_lt_succ 31, Nat.zero_lt_succ 31⟩
  constructor
  · intro h
    have hne : (decode p).rs1 ≠ 0 := of_decide_eq_true (Bool.and_eq_true_iff.1 h).2
    exact ⟨Nat.pos_of_ne_zero hne, hlt.1⟩
  · intro h
    have hne : (decode p).rs2 ≠ 0 := of_decide_eq_true (Bool.and_eq_true_iff.1 h).2
    exact ⟨Nat.pos_of_ne_zero hne, hlt.2⟩

/-- The word zero, which fetch sends for a misaligned slot, decodes to a rejected
instruction of the first unit without a destination. -/
theorem decode_zero {p : FetchDecodePack} (h : p.value = 0) :
    (decode p).opUnit = .alu ∧ (decode p).valid = false ∧ (decode p).needRename = false := by
  have hop : wordOpcode 0 = 0 := by decide
  simp [decode, h, decodeFields, decodeByOpcode, hop, decodeDefault, DecodeFields.invalid]

end DreamCore.Rtl
