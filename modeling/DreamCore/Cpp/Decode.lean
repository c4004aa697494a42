import DreamCore.Rtl.Decode

/-!
# Instruction decode in the C++ model (`decode.cpp`)

`decode::run` fills a zeroed pack by a `switch` over the opcode.  Zero stands for the
first value of each enumeration, a register source included.
-/

namespace DreamCore.Cpp

open DreamCore.Rtl

/-! ## Fields of the instruction word -/

section Word

variable (opData : Nat)

def decOpcode : Nat := opData &&& 0x7f
def decRd : Nat := (opData >>> 7) &&& 0x1f
def decFunct3 : Nat := (opData >>> 12) &&& 0x07
def decRs1 : Nat := (opData >>> 15) &&& 0x1f
def decRs2 : Nat := (opData >>> 20) &&& 0x1f
def decFunct7 : Nat := (opData >>> 25) &&& 0x7f
def decImmI : Nat := (opData >>> 20) &&& 0xfff
def decImmS : Nat := (opData >>> 7) &&& 0x1f ||| ((opData >>> 25) &&& 0x7f) <<< 5
def decImmB : Nat :=
  ((opData >>> 8) &&& 0x0f) <<< 1 ||| ((opData >>> 25) &&& 0x3f) <<< 5 |||
    ((opData >>> 7) &&& 0x01) <<< 11 ||| ((opData >>> 31) &&& 0x01) <<< 12
def decImmU : Nat := opData &&& 0xfffff000
def decImmJ : Nat :=
  ((opData >>> 12) &&& 0xff) <<< 12 ||| ((opData >>> 20) &&& 0x01) <<< 11 |||
    ((opData >>> 21) &&& 0x3ff) <<< 1 ||| ((opData >>> 31) &&& 0x01) <<< 20

end Word

/-- `sign_extend` of `common.h`, in unsigned 32-bit arithmetic. -/
def signExtend (imm immLength : Nat) : Nat :=
  let signBit := imm >>> (immLength - 1)
  (if signBit = 0 then 0
    else (((signBit <<< (32 - immLength)) - 1) <<< immLength) % 2 ^ 32) ||| imm

/-! ## Decoding by major opcode -/

/-- `op_info` before the switch: all zero but `valid`. -/
def decodeStart (hasException : Bool) : DecodeFields where
  op := .add
  opUnit := .alu
  subOp := 0
  arg1Src := .reg
  rs1 := 0
  arg2Src := .reg
  rs2 := 0
  imm := 0
  rd := 0
  rdEnable := false
  valid := !hasException
  csr := 0

section Opcode

variable (opData : Nat) (f : DecodeFields)

def decodeLui : DecodeFields :=
  { f.withUnit .lui .alu AluOp.lui with
    arg1Src := .disable, arg2Src := .disable, imm := decImmU opData, rd := decRd opData
    rdEnable := true }

def decodeAuipc : DecodeFields :=
  { f.withUnit .auipc .alu AluOp.auipc with
    arg1Src := .disable, arg2Src := .disable, imm := decImmU opData, rd := decRd opData
    rdEnable := true }

def decodeJal : DecodeFields :=
  { f.withUnit .jal .bru BruOp.jal with
    arg1Src := .disable, arg2Src := .disable, imm := signExtend (decImmJ opData) 21
    rd := decRd opData, rdEnable := true }

def decodeJalr : DecodeFields :=
  { f.withUnit .jalr .bru BruOp.jalr with
    arg1Src := .reg, rs1 := decRs1 opData, arg2Src := .disable
    imm := signExtend (decImmI opData) 12, rd := decRd opData, rdEnable := true }

def decodeBranch : DecodeFields :=
  let g := { f with
    opUnit := .bru, arg1Src := .reg, rs1 := decRs1 opData, arg2Src := .reg
    rs2 := decRs2 opData, imm := signExtend (decImmB opData) 13 }
  if decFunct3 opData = 0 then g.withOp .beq BruOp.beq
  else if decFunct3 opData = 1 then g.withOp .bne BruOp.bne
  else if decFunct3 opData = 4 then g.withOp .blt BruOp.blt
  else if decFunct3 opData = 5 then g.withOp .bge BruOp.bge
  else if decFunct3 opData = 6 then g.withOp .bltu BruOp.bltu
  else if decFunct3 opData = 7 then g.withOp .bgeu BruOp.bgeu
  else g.invalid

def decodeLoad : DecodeFields :=
  let g := { f with
    opUnit := .lsu, arg1Src := .reg, rs1 := decRs1 opData, arg2Src := .disable
    imm := signExtend (decImmI opData) 12, rd := decRd opData, rdEnable := true }
  if decFunct3 opData = 0 then g.withOp .lb LsuOp.lb
  else if decFunct3 opData = 1 then g.withOp .lh LsuOp.lh
  else if decFunct3 opData = 2 then g.withOp .lw LsuOp.lw
  else if decFunct3 opData = 4 then g.withOp .lbu LsuOp.lbu
  else if decFunct3 opData = 5 then g.withOp .lhu LsuOp.lhu
  else g.invalid

def decodeStore : DecodeFields :=
  let g := { f with
    opUnit := .lsu, arg1Src := .reg, rs1 := decRs1 opData, arg2Src := .reg
    rs2 := decRs2 opData, imm := signExtend (decImmS opData) 12 }
  if decFunct3 opData = 0 then g.withOp .sb LsuOp.sb
  else if decFunct3 opData = 1 then g.withOp .sh LsuOp.sh
  else if decFunct3 opData = 2 then g.withOp .sw LsuOp.sw
  else g.invalid

def decodeOpImm : DecodeFields :=
  let g := { f with
    opUnit := .alu, arg1Src := .reg, rs1 := decRs1 opData, arg2Src := .imm
    imm := signExtend (decImmI opData) 12, rd := decRd opData, rdEnable := true }
  if decFunct3 opData = 0 then g.withOp .addi AluOp.add
  else if decFunct3 opData = 2 then g.withOp .slti AluOp.slt
  else if decFunct3 opData = 3 then g.withOp .sltiu AluOp.sltu
  else if decFunct3 opData = 4 then g.withOp .xori AluOp.xor
  else if decFunct3 opData = 6 then g.withOp .ori AluOp.or
  else if decFunct3 opData = 7 then g.withOp .andi AluOp.and
  else if decFunct3 opData = 1 then
    if decFunct7 opData = 0x00 then g.withOp .slli AluOp.sll else g.invalid
  else if decFunct3 opData = 5 then
    if decFunct7 opData = 0x00 then g.withOp .srli AluOp.srl
    else if decFunct7 opData = 0x20 then g.withOp .srai AluOp.sra
    else g.invalid
  else g.invalid

/-- The cases of `funct7` for a base operation and one of the `M` extension. -/
def decodeTwo (g base extension : DecodeFields) : DecodeFields :=
  if decFunct7 opData = 0x00 then base
  else if decFunct7 opData = 0x01 then extension
  else g.invalid

/-- The cases of `funct7` where there is an alternate operation too. -/
def decodeThree (g base alternate extension : DecodeFields) : DecodeFields :=
  if decFunct7 opData = 0x00 then base
  else if decFunct7 opData = 0x20 then alternate
  else if decFunct7 opData = 0x01 then extension
  else g.invalid

def decodeOp : DecodeFields :=
  let g := { f with
    opUnit := .alu, arg1Src := .reg, rs1 := decRs1 opData, arg2Src := .reg
    rs2 := decRs2 opData, rd := decRd opData, rdEnable := true }
  if decFunct3 opData = 0 then
    decodeThree opData g (g.withOp .add AluOp.add) (g.withOp .sub AluOp.sub)
      (g.withUnit .mul .mul MulOp.mul)
  else if decFunct3 opData = 1 then
    decodeTwo opData g (g.withOp .sll AluOp.sll) (g.withUnit .mulh .mul MulOp.mulh)
  else if decFunct3 opData = 2 then
    decodeTwo opData g (g.withOp .slt AluOp.slt) (g.withUnit .mulhsu .mul MulOp.mulhsu)
  else if decFunct3 opData = 3 then
    decodeTwo opData g (g.withOp .sltu AluOp.sltu) (g.withUnit .mulhu .mul MulOp.mulhu)
  else if decFunct3 opData = 4 then
    decodeTwo opData g (g.withOp .xor AluOp.xor) (g.withUnit .div .div DivOp.div)
  else if decFunct3 opData = 5 then
    decodeThree opData g (g.withOp .srl AluOp.srl) (g.withOp .sra AluOp.sra)
      (g.withUnit .divu .div DivOp.divu)
  else if decFunct3 opData = 6 then
    decodeTwo opData g (g.withOp .or AluOp.or) (g.withUnit .rem .div DivOp.rem)
  else if decFunct3 opData = 7 then
    decodeTwo opData g (g.withOp .and AluOp.and) (g.withUnit .remu .div DivOp.remu)
  else g.invalid

/-- An operation without register operands. -/
def decodeBare (op : Op) (opUnit : OpUnit) (subOp : Nat) : DecodeFields :=
  { f.withUnit op opUnit subOp with arg1Src := .disable, arg2Src := .disable }

def decodeMiscMem : DecodeFields :=
  if decFunct3 opData = 0 then
    if decRd opData = 0 ∧ decRs1 opData = 0 ∧ (opData >>> 28) &&& 0x0f = 0 then
      { decodeBare f .fence .alu AluOp.fence with imm := decImmI opData }
    else f.invalid
  else if decFunct3 opData = 1 then
    if decRd opData = 0 ∧ decRs1 opData = 0 ∧ decImmI opData = 0 then
      decodeBare f .fenceI .alu AluOp.fenceI
    else f.invalid
  else f.invalid

def decodeCsrReg (op : Op) (subOp : Nat) : DecodeFields :=
  { f.withUnit op .csr subOp with
    arg1Src := .reg, rs1 := decRs1 opData, arg2Src := .disable, csr := decImmI opData
    rd := decRd opData, rdEnable := true }

def decodeCsrImm (op : Op) (subOp : Nat) : DecodeFields :=
  { f.withUnit op .csr subOp with
    arg1Src := .imm, imm := decRs1 opData, arg2Src := .disable, csr := decImmI opData
    rd := decRd opData, rdEnable := true }

def decodeSystem : DecodeFields :=
  if decFunct3 opData = 0 then
    if decRd opData = 0 ∧ decRs1 opData = 0 then
      if decFunct7 opData = 0x00 then
        if decRs2 opData = 0x00 then decodeBare f .ecall .alu AluOp.ecall
        else if decRs2 opData = 0x01 then decodeBare f .ebreak .alu AluOp.ebreak
        else f.invalid
      else if decFunct7 opData = 0x18 then
        if decRs2 opData = 0x02 then decodeBare f .mret .bru BruOp.mret else f.invalid
      else f.invalid
    else f.invalid
  else if decFunct3 opData = 1 then decodeCsrReg opData f .csrrw CsrOp.csrrw
  else if decFunct3 opData = 2 then decodeCsrReg opData f .csrrs CsrOp.csrrs
  else if decFunct3 opData = 3 then decodeCsrReg opData f .csrrc CsrOp.csrrc
  else if decFunct3 opData = 5 then decodeCsrImm opData f .csrrwi CsrOp.csrrw
  else if decFunct3 opData = 6 then decodeCsrImm opData f .csrrsi CsrOp.csrrs
  else if decFunct3 opData = 7 then decodeCsrImm opData f .csrrci CsrOp.csrrc
  else f.invalid

def decodeSwitch : DecodeFields :=
  if decOpcode opData = 0x37 then decodeLui opData f
  else if decOpcode opData = 0x17 then decodeAuipc opData f
  else if decOpcode opData = 0x6f then decodeJal opData f
  else if decOpcode opData = 0x67 then decodeJalr opData f
  else if decOpcode opData = 0x63 then decodeBranch opData f
  else if decOpcode opData = 0x03 then decodeLoad opData f
  else if decOpcode opData = 0x23 then decodeStore opData f
  else if decOpcode opData = 0x13 then decodeOpImm opData f
  else if decOpcode opData = 0x33 then decodeOp opData f
  else if decOpcode opData = 0x0f then decodeMiscMem opData f
  else if decOpcode opData = 0x73 then decodeSystem opData f
  else f.invalid

end Opcode

def decodeFields (opData : Nat) (hasException : Bool) : DecodeFields :=
  decodeSwitch opData (decodeStart hasException)

/-- `need_rename`. -/
def decodeNeedRename (f : DecodeFields) : Bool := f.rdEnable && decide (0 < f.rd)

/-- `send_pack` for an enabled `rev_pack`. -/
def decode (revPack : FetchDecodePack) : DecodeRenamePack :=
  let f := decodeFields revPack.value revPack.hasException
  { toFetchDecodePack := revPack
    valid := f.valid
    imm := f.imm
    rs1 := f.rs1
    arg1Src := f.arg1Src
    rs1NeedMap := decide (f.arg1Src = .reg) && decide (0 < f.rs1)
    rs2 := f.rs2
    arg2Src := f.arg2Src
    rs2NeedMap := decide (f.arg2Src = .reg) && decide (0 < f.rs2)
    rd := f.rd
    rdEnable := f.rdEnable
    needRename := decodeNeedRename f
    csr := f.csr
    op := f.op
    opUnit := f.opUnit
    subOp := f.subOp }

end DreamCore.Cpp
