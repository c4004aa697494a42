import DreamCore.Rtl.ExecuteMulDiv
import DreamCore.Cpp.MulDiv

/-!
# The M extension

What multiplication and division are, on the numbers the two words stand for, and the
values the two implementations give for the same operands.
-/

namespace DreamCore.Model

open DreamCore.Rtl

inductive MextOp where
  | mul | mulh | mulhsu | mulhu | div | divu | rem | remu
  deriving DecidableEq

namespace MextOp

/-- The definition: truncated division, high halves of the exact products. -/
def spec (op : MextOp) (x y : BitVec 32) : BitVec 32 :=
  match op with
  | mul => BitVec.ofInt 32 (x.toInt * y.toInt)
  | mulh => BitVec.ofInt 32 (x.toInt * y.toInt / 2 ^ 32)
  | mulhsu => BitVec.ofInt 32 (x.toInt * y.toNat / 2 ^ 32)
  | mulhu => BitVec.ofNat 32 (x.toNat * y.toNat / 2 ^ 32)
  | div => if y = 0 then BitVec.ofInt 32 (-1) else BitVec.ofInt 32 (x.toInt.tdiv y.toInt)
  | divu => if y = 0 then BitVec.ofNat 32 (2 ^ 32 - 1) else BitVec.ofNat 32 (x.toNat / y.toNat)
  | rem => if y = 0 then x else BitVec.ofInt 32 (x.toInt.tmod y.toInt)
  | remu => if y = 0 then x else BitVec.ofNat 32 (x.toNat % y.toNat)

/-- The one quotient that does not fit: it wraps, and the remainder is zero. -/
theorem spec_overflow : spec div 0x80000000#32 0xFFFFFFFF#32 = 0x80000000#32 ∧
    spec rem 0x80000000#32 0xFFFFFFFF#32 = 0 := by decide

/-- The pack a unit receives for the operation and its operands. -/
def issued (op : MextOp) (x y : BitVec 32) (revPack : IssueExecutePack) : IssueExecutePack :=
  { revPack with
    src1Value := x.toNat
    src2Value := y.toNat
    subOp := match op with
      | mul => MulOp.mul
      | mulh => MulOp.mulh
      | mulhsu => MulOp.mulhsu
      | mulhu => MulOp.mulhu
      | div => DivOp.div
      | divu => DivOp.divu
      | rem => DivOp.rem
      | remu => DivOp.remu }

/-- What the hardware answers. -/
def rtl (op : MextOp) (x y : BitVec 32) (revPack : IssueExecutePack) : ExecuteWbPack :=
  match op with
  | mul | mulh | mulhsu | mulhu => executeMul (op.issued x y revPack)
  | div | divu | rem | remu => executeDiv (op.issued x y revPack)

/-- The value of the C++ units. -/
def cpp (op : MextOp) (x y : BitVec 32) : BitVec 32 :=
  match op with
  | mul => Cpp.mulValue x y
  | mulh => Cpp.mulhValue x y
  | mulhsu => Cpp.mulhsuValue x y
  | mulhu => Cpp.mulhuValue x y
  | div => Cpp.divValue x y
  | divu => Cpp.divuValue x y
  | rem => Cpp.remValue x y
  | remu => Cpp.remuValue x y

/-- The operands on which dividing the words is the same as dividing the numbers: a zero
divisor and the overflow, which are special cases, divisor one, equal operands, and a
non-negative dividend with a divisor that is not a smaller negative number.  The remainder
is also right when it is zero in both readings. -/
def Agrees (op : MextOp) (x y : BitVec 32) : Prop :=
  match op with
  | div => y = 0 ∨ (x = 0x80000000#32 ∧ y = 0xFFFFFFFF#32) ∨ y.toNat = 1 ∨ x.toNat = y.toNat ∨
      x.toNat < 2 ^ 31 ∧ (y.toNat < 2 ^ 31 ∨ x.toNat < 2 * 2 ^ 31 - y.toNat)
  | rem => y = 0 ∨ (x = 0x80000000#32 ∧ y = 0xFFFFFFFF#32) ∨ x.toNat = y.toNat ∨
      (x.toNat < 2 ^ 31 ∧ (y.toNat < 2 ^ 31 ∨ x.toNat < 2 * 2 ^ 31 - y.toNat)) ∨
      (2 ^ 31 ≤ x.toNat ∧ y.toNat < 2 ^ 31 ∧ x.toNat % y.toNat = 0 ∧
        (2 * 2 ^ 31 - x.toNat) % y.toNat = 0)
  | _ => True

instance (op : MextOp) (x y : BitVec 32) : Decidable (op.Agrees x y) := by
  cases op <;> unfold Agrees <;> infer_instance

end MextOp

end DreamCore.Model
