import DreamCore.Cpp.Decode
import DreamCore.Lib.InstructionFormats

/-!
# The encoding of the instruction set

Each operation of RV32IM, Zicsr, Zifencei and the machine mode with its format, and the
word that stands for an operation with its operands.
-/

namespace DreamCore.Model

open DreamCore.InstructionFormats DreamCore.Rtl

/-- `csrReg` and `csrImm` hold the CSR address where the immediate is; `csrImm` holds its
immediate where `rs1` is.  A fixed word has no operands. -/
inductive Format where
  | r (funct3 funct7 : Nat)
  | i (opcode funct3 : Nat)
  | shift (funct3 funct7 : Nat)
  | s (funct3 : Nat)
  | b (funct3 : Nat)
  | u (opcode : Nat)
  | j
  | csrReg (funct3 : Nat)
  | csrImm (funct3 : Nat)
  | fixed (word : Nat)

def opFormat : Op → Format
  | .lui => .u 0x37
  | .auipc => .u 0x17
  | .jal => .j
  | .jalr => .i 0x67 0
  | .beq => .b 0
  | .bne => .b 1
  | .blt => .b 4
  | .bge => .b 5
  | .bltu => .b 6
  | .bgeu => .b 7
  | .lb => .i 0x03 0
  | .lh => .i 0x03 1
  | .lw => .i 0x03 2
  | .lbu => .i 0x03 4
  | .lhu => .i 0x03 5
  | .sb => .s 0
  | .sh => .s 1
  | .sw => .s 2
  | .addi => .i 0x13 0
  | .slti => .i 0x13 2
  | .sltiu => .i 0x13 3
  | .xori => .i 0x13 4
  | .ori => .i 0x13 6
  | .andi => .i 0x13 7
  | .slli => .shift 1 0x00
  | .srli => .shift 5 0x00
  | .srai => .shift 5 0x20
  | .add => .r 0 0x00
  | .sub => .r 0 0x20
  | .sll => .r 1 0x00
  | .slt => .r 2 0x00
  | .sltu => .r 3 0x00
  | .xor => .r 4 0x00
  | .srl => .r 5 0x00
  | .sra => .r 5 0x20
  | .or => .r 6 0x00
  | .and => .r 7 0x00
  | .mul => .r 0 0x01
  | .mulh => .r 1 0x01
  | .mulhsu => .r 2 0x01
  | .mulhu => .r 3 0x01
  | .div => .r 4 0x01
  | .divu => .r 5 0x01
  | .rem => .r 6 0x01
  | .remu => .r 7 0x01
  | .fence => .i 0x0f 0
  | .fenceI => .i 0x0f 1
  | .ecall => .fixed 0x00000073
  | .ebreak => .fixed 0x00100073
  | .mret => .fixed 0x30200073
  | .csrrw => .csrReg 1
  | .csrrs => .csrReg 2
  | .csrrc => .csrReg 3
  | .csrrwi => .csrImm 5
  | .csrrsi => .csrImm 6
  | .csrrci => .csrImm 7

def encodeFormat (rd rs1 rs2 imm csr : Nat) : Format → Nat
  | .r funct3 funct7 => pack 0x33 rd funct3 rs1 rs2 funct7
  | .i opcode funct3 => encodeI opcode rd funct3 rs1 imm
  | .shift funct3 funct7 => pack 0x13 rd funct3 rs1 (field imm 0 5) funct7
  | .s funct3 => encodeS 0x23 funct3 rs1 rs2 imm
  | .b funct3 => encodeB 0x63 funct3 rs1 rs2 imm
  | .u opcode => encodeU opcode rd imm
  | .j => encodeJ 0x6f rd imm
  | .csrReg funct3 => encodeI 0x73 rd funct3 rs1 csr
  | .csrImm funct3 => encodeI 0x73 rd funct3 (field imm 0 5) csr
  | .fixed word => word

def encode (op : Op) (rd rs1 rs2 imm csr : Nat) : Nat :=
  encodeFormat rd rs1 rs2 imm csr (opFormat op)

/-- The word that the decoded fields stand for. -/
def encodeFields (f : DecodeFields) : Nat := encode f.op f.rd f.rs1 f.rs2 f.imm f.csr

/-! ## What the two decoders are compared on -/

def rtlFields (word : BitVec 32) : DecodeFields := Rtl.decodeFields word.toNat false

def cppFields (word : BitVec 32) : DecodeFields := Cpp.decodeFields word.toNat false

/-- Everything but the argument sources, of the hardware and of the C++ model. -/
structure SameOperation (f g : DecodeFields) : Prop where
  valid : f.valid = g.valid
  op : f.op = g.op
  opUnit : f.opUnit = g.opUnit
  subOp : f.subOp = g.subOp
  rs1 : f.rs1 = g.rs1
  rs2 : f.rs2 = g.rs2
  rd : f.rd = g.rd
  rdEnable : f.rdEnable = g.rdEnable
  needRename : (f.rdEnable && decide (f.rd ≠ 0)) = Cpp.decodeNeedRename g
  imm : f.imm = g.imm
  csr : f.csr = g.csr

structure SameArgSources (f g : DecodeFields) : Prop where
  arg1Src : f.arg1Src = g.arg1Src
  arg2Src : f.arg2Src = g.arg2Src

/-- The same operation on the same operands. -/
structure SameInstruction (f g : DecodeFields) : Prop where
  op : f.op = g.op
  rd : f.rd = g.rd
  rs1 : f.rs1 = g.rs1
  rs2 : f.rs2 = g.rs2
  imm : f.imm = g.imm
  csr : f.csr = g.csr

/-- The decoders agree on a word, and its encoding is undone if it is accepted. -/
structure FaithfulDecode (word : BitVec 32) : Prop where
  operation : SameOperation (rtlFields word) (cppFields word)
  sources : SameArgSources (rtlFields word) (cppFields word)
  inverse : (rtlFields word).valid = true → encodeFields (rtlFields word) = word.toNat

/-- The jump to a register with a `funct3` that the format reserves. -/
def ReservedJalr (word : BitVec 32) : Prop :=
  field word.toNat 0 7 = 0x67 ∧ field word.toNat 12 3 ≠ 0

end DreamCore.Model
