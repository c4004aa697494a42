import DreamCore.Cpp.Decode
import DreamCore.Rtl.Execute

/-!
# The units of the model (`issue.cpp`, `execute/alu.cpp`, `execute/bru.cpp`, `execute/lsu.cpp`)

The packs start zeroed and only an enabled and accepted operation is carried out; the
arithmetic unit also leaves an operation alone that comes with an exception.
-/

namespace DreamCore.Cpp

open DreamCore.Rtl

/-! ## Issue -/

section Issue

variable (item : ReadregIssueOpInfo)

def lsuSendAddr : Nat := (item.src1Value + item.imm) % 2 ^ 32

/-- The pack before the switch over `lsu_op`. -/
def lsuSendPack : IssueExecutePack :=
  { item with lsuAddr := lsuSendAddr item, exceptionValue := lsuSendAddr item }

/-- A case of the switch: the access is checked, and the exception of the other kind set
when it passes. -/
def lsuSendCase (size misaligned accessFault : Nat) : IssueExecutePack :=
  { lsuSendPack item with
    hasException := !checkAlign (lsuSendAddr item) size
    exceptionId := if !checkAlign (lsuSendAddr item) size then misaligned else accessFault }

/-- `send_pack` of an item whose sources are loaded. -/
def issueSendPack : IssueExecutePack :=
  if item.valid && decide (item.opUnit = .lsu) then
    if item.subOp = LsuOp.lb ∨ item.subOp = LsuOp.lbu then lsuSendCase item 1 4 5
    else if item.subOp = LsuOp.lh ∨ item.subOp = LsuOp.lhu then lsuSendCase item 2 4 5
    else if item.subOp = LsuOp.lw then lsuSendCase item 4 4 5
    else if item.subOp = LsuOp.sb then lsuSendCase item 1 6 7
    else if item.subOp = LsuOp.sh then lsuSendCase item 2 6 7
    else if item.subOp = LsuOp.sw then lsuSendCase item 4 6 7
    else lsuSendPack item
  else { item with lsuAddr := 0 }

end Issue

/-! ## Arithmetic unit -/

section Units

variable (revPack : IssueExecutePack)

/-- `send_pack` with the fields of `rev_pack`. -/
def sendPackOf : ExecuteWbPack :=
  { revPack.toReadregIssueOpInfo with
    bruJump := false
    bruNextPc := 0
    rdValue := 0
    csrNewvalue := 0
    csrNewvalueValid := false }

def raise (pack : ExecuteWbPack) (exceptionId : Nat) : ExecuteWbPack :=
  { pack with hasException := true, exceptionId := exceptionId, exceptionValue := 0 }

def aluSwitch : ExecuteWbPack :=
  let pack := sendPackOf revPack
  let src1 := BitVec.ofNat 32 revPack.src1Value
  let src2 := BitVec.ofNat 32 revPack.src2Value
  let shift := revPack.src2Value &&& 0x1f
  let result (value : BitVec 32) : ExecuteWbPack := { pack with rdValue := value.toNat }
  if revPack.subOp = AluOp.add then result (src1 + src2)
  else if revPack.subOp = AluOp.and then result (src1 &&& src2)
  else if revPack.subOp = AluOp.auipc then
    { pack with rdValue := (revPack.imm + revPack.pc) % 2 ^ 32 }
  else if revPack.subOp = AluOp.ebreak then raise pack RiscvException.breakpoint
  else if revPack.subOp = AluOp.ecall then raise pack RiscvException.environmentCallFromMMode
  else if revPack.subOp = AluOp.fence then pack
  else if revPack.subOp = AluOp.fenceI then pack
  else if revPack.subOp = AluOp.lui then { pack with rdValue := revPack.imm }
  else if revPack.subOp = AluOp.or then result (src1 ||| src2)
  else if revPack.subOp = AluOp.sll then result (src1 <<< shift)
  else if revPack.subOp = AluOp.slt then result (if src1.slt src2 then 1 else 0)
  else if revPack.subOp = AluOp.sltu then result (if src1.ult src2 then 1 else 0)
  else if revPack.subOp = AluOp.sra then result (src1.sshiftRight shift)
  else if revPack.subOp = AluOp.srl then result (src1 >>> shift)
  else if revPack.subOp = AluOp.sub then result (src1 - src2)
  else if revPack.subOp = AluOp.xor then result (src1 ^^^ src2)
  else pack

def executeAlu : ExecuteWbPack :=
  if revPack.enable && !revPack.hasException then
    if revPack.valid then aluSwitch revPack
    else raise (sendPackOf revPack) RiscvException.illegalInstruction
  else sendPackOf revPack

/-! ## Branch unit -/

def bruSwitch (mepc : Nat) : ExecuteWbPack :=
  let pack : ExecuteWbPack :=
    { sendPackOf revPack with bruNextPc := (revPack.pc + revPack.imm) % 2 ^ 32 }
  let src1 := BitVec.ofNat 32 revPack.src1Value
  let src2 := BitVec.ofNat 32 revPack.src2Value
  let link := (revPack.pc + 4) % 2 ^ 32
  if revPack.subOp = BruOp.beq then
    { pack with bruJump := decide (revPack.src1Value = revPack.src2Value) }
  else if revPack.subOp = BruOp.bge then { pack with bruJump := src2.sle src1 }
  else if revPack.subOp = BruOp.bgeu then { pack with bruJump := src2.ule src1 }
  else if revPack.subOp = BruOp.blt then { pack with bruJump := src1.slt src2 }
  else if revPack.subOp = BruOp.bltu then { pack with bruJump := src1.ult src2 }
  else if revPack.subOp = BruOp.bne then
    { pack with bruJump := decide (revPack.src1Value ≠ revPack.src2Value) }
  else if revPack.subOp = BruOp.jal then { pack with rdValue := link, bruJump := true }
  else if revPack.subOp = BruOp.jalr then
    { pack with
      rdValue := link
      bruJump := true
      bruNextPc := (BitVec.ofNat 32 (revPack.imm + revPack.src1Value) &&& ~~~1#32).toNat }
  else if revPack.subOp = BruOp.mret then { pack with bruJump := true, bruNextPc := mepc }
  else pack

def executeBru (mepc : Nat) : ExecuteWbPack :=
  let pack := if revPack.enable && revPack.valid then bruSwitch revPack mepc
    else { sendPackOf revPack with bruNextPc := (revPack.pc + revPack.imm) % 2 ^ 32 }
  if pack.bruJump then pack else { pack with bruNextPc := (revPack.pc + 4) % 2 ^ 32 }

/-! ## Load/store unit -/

/-- The register value of a load, from the value after forwarding. -/
def lsuRdValue (feedbackValue : Nat) : Nat :=
  if revPack.subOp = LsuOp.lb then signExtend feedbackValue 8
  else if revPack.subOp = LsuOp.lbu then feedbackValue
  else if revPack.subOp = LsuOp.lh then signExtend feedbackValue 16
  else if revPack.subOp = LsuOp.lhu then feedbackValue
  else if revPack.subOp = LsuOp.lw then feedbackValue
  else 0

/-- The size and data of the pushed store. -/
def lsuStore : Nat × Nat :=
  if revPack.subOp = LsuOp.sb then (1, revPack.src2Value &&& 0xff)
  else if revPack.subOp = LsuOp.sh then (2, revPack.src2Value &&& 0xffff)
  else if revPack.subOp = LsuOp.sw then (4, revPack.src2Value)
  else (0, 0)

end Units

end DreamCore.Cpp
