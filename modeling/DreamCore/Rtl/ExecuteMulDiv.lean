import DreamCore.Rtl.Execute

/-!
# Multiplier and divider (`execute_mul.sv`, `execute_div.sv`)

The products are taken on 64 bits.  In the divider `$signed` has no effect: the other
branches of the conditional expressions are unsigned, which makes the whole expression
unsigned and with it the operands of `/` and `%`.
-/

namespace DreamCore.Rtl

/-! ## Multiplier -/

section Mul

variable (revPack : IssueExecutePack)

def mulRdValue : BitVec 32 :=
  let signed1 := (aluSrc1 revPack).signExtend 64
  let signed2 := (aluSrc2 revPack).signExtend 64
  let unsigned1 := (aluSrc1 revPack).setWidth 64
  let unsigned2 := (aluSrc2 revPack).setWidth 64
  if revPack.subOp = MulOp.mul then (signed1 * signed2).setWidth 32
  else if revPack.subOp = MulOp.mulh then ((signed1 * signed2) >>> 32).setWidth 32
  else if revPack.subOp = MulOp.mulhsu then ((signed1 * unsigned2) >>> 32).setWidth 32
  else if revPack.subOp = MulOp.mulhu then ((unsigned1 * unsigned2) >>> 32).setWidth 32
  else 0

/-- `send_pack` of `execute_mul`. -/
def executeMul : ExecuteWbPack :=
  { revPack.toReadregIssueOpInfo with
    bruJump := false
    bruNextPc := 0
    rdValue := (mulRdValue revPack).toNat
    csrNewvalue := 0
    csrNewvalueValid := false }

end Mul

/-! ## Divider -/

section Div

variable (revPack : IssueExecutePack)

def divOverflow : Bool :=
  decide (aluSrc1 revPack = 0x80000000#32) && decide (aluSrc2 revPack = 0xFFFFFFFF#32)

def divRdValue : BitVec 32 :=
  let src1 := aluSrc1 revPack
  let src2 := aluSrc2 revPack
  if revPack.subOp = DivOp.div then
    if src2 = 0 then 0xFFFFFFFF#32
    else if divOverflow revPack then 0x80000000#32
    else src1 / src2
  else if revPack.subOp = DivOp.divu then
    if src2 = 0 then 0xFFFFFFFF#32 else src1 / src2
  else if revPack.subOp = DivOp.rem then
    if src2 = 0 then src1
    else if divOverflow revPack then 0
    else src1 % src2
  else if revPack.subOp = DivOp.remu then
    if src2 = 0 then src1 else src1 % src2
  else 0

/-- `send_pack` of `execute_div`. -/
def executeDiv : ExecuteWbPack :=
  { revPack.toReadregIssueOpInfo with
    bruJump := false
    bruNextPc := 0
    rdValue := (divRdValue revPack).toNat
    csrNewvalue := 0
    csrNewvalueValid := false }

end Div

end DreamCore.Rtl
