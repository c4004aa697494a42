import DreamCore.Lib.TwosComplement
import DreamCore.Model.MExtension

/-!
# Multiplication and division against the M extension

The C++ units and the multiplier follow the definition everywhere.  The divider divides
the words as unsigned numbers, so `div` and `rem` are right on the operands on which
both divisions agree, and on no others.
-/

namespace DreamCore.Proofs

open DreamCore.Model DreamCore.Rtl DreamCore.TwosComplement

/-! ## Products on 64 bits -/

theorem low_half (z : Int) : (BitVec.ofInt 64 z).setWidth 32 = BitVec.ofInt 32 z := by
  apply BitVec.eq_of_toNat_eq
  rw [BitVec.toNat_setWidth, BitVec.toNat_ofInt, BitVec.toNat_ofInt]
  omega

theorem high_half (z : Int) :
    (BitVec.ofInt 64 z >>> 32).setWidth 32 = BitVec.ofInt 32 (z / 2 ^ 32) := by
  apply BitVec.eq_of_toNat_eq
  rw [BitVec.toNat_setWidth, BitVec.toNat_ushiftRight, BitVec.toNat_ofInt, BitVec.toNat_ofInt,
    Nat.shiftRight_eq_div_pow]
  omega

theorem setWidth_eq_ofInt (x : BitVec 32) : x.setWidth 64 = BitVec.ofInt 64 x.toNat := by
  rw [BitVec.ofInt_natCast, BitVec.ofNat_toNat]

theorem signExtend_eq_ofInt (x : BitVec 32) : x.signExtend 64 = BitVec.ofInt 64 x.toInt := rfl

/-! ## The C++ units -/

section Operands

variable (op : MextOp) (x y : BitVec 32) (revPack : IssueExecutePack)

theorem cpp_overflow {x y : BitVec 32} (h : Cpp.divOverflow x y = true) :
    x = 0x80000000#32 ∧ y = 0xFFFFFFFF#32 := by
  obtain ⟨hx, hy⟩ := Bool.and_eq_true_iff.1 h
  exact ⟨of_decide_eq_true hx, of_decide_eq_true hy⟩

theorem cpp_eq_spec : op.cpp x y = op.spec x y := by
  cases op with
  | mul => exact low_half _
  | mulh => exact high_half _
  | mulhsu =>
      simp only [MextOp.cpp, MextOp.spec, Cpp.mulhsuValue]
      rw [← BitVec.ofInt_natCast, ← BitVec.ofInt_mul, high_half]
  | mulhu =>
      simp only [MextOp.cpp, MextOp.spec, Cpp.mulhuValue]
      rw [← BitVec.ofInt_natCast, ← BitVec.ofInt_natCast, ← BitVec.ofInt_mul, high_half]
      norm_cast
  | div =>
      simp only [MextOp.cpp, MextOp.spec, Cpp.divValue]
      by_cases hy : y = 0
      · rw [if_pos hy, if_pos hy]
        rfl
      · rw [if_neg hy, if_neg hy]
        cases hover : Cpp.divOverflow x y with
        | false => rfl
        | true =>
            obtain ⟨rfl, rfl⟩ := cpp_overflow hover
            decide
  | divu =>
      simp only [MextOp.cpp, MextOp.spec, Cpp.divuValue, BitVec.udiv_def]
      rfl
  | rem =>
      simp only [MextOp.cpp, MextOp.spec, Cpp.remValue]
      by_cases hy : y = 0
      · rw [if_pos hy, if_pos hy]
      · rw [if_neg hy, if_neg hy]
        cases hover : Cpp.divOverflow x y with
        | false => rfl
        | true =>
            obtain ⟨rfl, rfl⟩ := cpp_overflow hover
            decide
  | remu => simp only [MextOp.cpp, MextOp.spec, Cpp.remuValue, BitVec.umod_def]

/-! ## The multiplier -/

theorem mul_rtl : (MextOp.mul.rtl x y revPack).rdValue = (MextOp.mul.spec x y).toNat := by
  have hvalue : mulRdValue (MextOp.mul.issued x y revPack) =
      (x.signExtend 64 * y.signExtend 64).setWidth 32 := by
    simp [mulRdValue, MextOp.issued, aluSrc1, aluSrc2]
  rw [MextOp.rtl, executeMul, hvalue, signExtend_eq_ofInt, signExtend_eq_ofInt, ← BitVec.ofInt_mul,
    low_half]
  rfl

theorem mulh_rtl : (MextOp.mulh.rtl x y revPack).rdValue = (MextOp.mulh.spec x y).toNat := by
  have hvalue : mulRdValue (MextOp.mulh.issued x y revPack) =
      ((x.signExtend 64 * y.signExtend 64) >>> 32).setWidth 32 := by
    simp [mulRdValue, MextOp.issued, aluSrc1, aluSrc2]
  rw [MextOp.rtl, executeMul, hvalue, signExtend_eq_ofInt, signExtend_eq_ofInt, ← BitVec.ofInt_mul,
    high_half]
  rfl

theorem mulhsu_rtl : (MextOp.mulhsu.rtl x y revPack).rdValue = (MextOp.mulhsu.spec x y).toNat := by
  have hvalue : mulRdValue (MextOp.mulhsu.issued x y revPack) =
      ((x.signExtend 64 * y.setWidth 64) >>> 32).setWidth 32 := by
    simp [mulRdValue, MextOp.issued, aluSrc1, aluSrc2]
  rw [MextOp.rtl, executeMul, hvalue, signExtend_eq_ofInt, setWidth_eq_ofInt, ← BitVec.ofInt_mul,
    high_half]
  rfl

theorem mulhu_rtl : (MextOp.mulhu.rtl x y revPack).rdValue = (MextOp.mulhu.spec x y).toNat := by
  have hvalue : mulRdValue (MextOp.mulhu.issued x y revPack) =
      ((x.setWidth 64 * y.setWidth 64) >>> 32).setWidth 32 := by
    simp [mulRdValue, MextOp.issued, aluSrc1, aluSrc2]
  rw [MextOp.rtl, executeMul, hvalue, setWidth_eq_ofInt, setWidth_eq_ofInt, ← BitVec.ofInt_mul,
    high_half, MextOp.spec]
  norm_cast

/-! ## The divider -/

theorem div_rtl : (MextOp.div.rtl x y revPack).rdValue =
    (if y = 0 then 0xFFFFFFFF#32
      else if x = 0x80000000#32 ∧ y = 0xFFFFFFFF#32 then 0x80000000#32 else x / y).toNat := by
  simp [MextOp.rtl, executeDiv, divRdValue, divOverflow, MextOp.issued, aluSrc1, aluSrc2]

theorem rem_rtl : (MextOp.rem.rtl x y revPack).rdValue =
    (if y = 0 then x
      else if x = 0x80000000#32 ∧ y = 0xFFFFFFFF#32 then 0 else x % y).toNat := by
  simp [MextOp.rtl, executeDiv, divRdValue, divOverflow, MextOp.issued, aluSrc1, aluSrc2]

theorem divu_rtl : (MextOp.divu.rtl x y revPack).rdValue = (MextOp.divu.spec x y).toNat := by
  have hvalue : divRdValue (MextOp.divu.issued x y revPack) =
      if y = 0 then 0xFFFFFFFF#32 else x / y := by
    simp [divRdValue, MextOp.issued, aluSrc1, aluSrc2]
  rw [MextOp.rtl, executeDiv, hvalue, MextOp.spec, BitVec.udiv_def]
  rfl

theorem remu_rtl : (MextOp.remu.rtl x y revPack).rdValue = (MextOp.remu.spec x y).toNat := by
  have hvalue : divRdValue (MextOp.remu.issued x y revPack) = if y = 0 then x else x % y := by
    simp [divRdValue, MextOp.issued, aluSrc1, aluSrc2]
  rw [MextOp.rtl, executeDiv, hvalue, MextOp.spec, BitVec.umod_def]

/-! ## Where signed division is right -/

theorem div_rtl_iff : (MextOp.div.rtl x y revPack).rdValue = (MextOp.div.spec x y).toNat ↔
    MextOp.div.Agrees x y := by
  rw [div_rtl, BitVec.toNat_inj, MextOp.spec, MextOp.Agrees]
  by_cases hy : y = 0
  · rw [if_pos hy, if_pos hy]
    exact iff_of_true rfl (Or.inl hy)
  rw [if_neg hy, if_neg hy]
  by_cases hover : x = 0x80000000#32 ∧ y = 0xFFFFFFFF#32
  · rw [if_pos hover]
    refine iff_of_true ?_ (Or.inr (Or.inl hover))
    obtain ⟨rfl, rfl⟩ := hover
    decide
  have hzero : y.toNat ≠ 0 := fun h => hy (BitVec.eq_of_toNat_eq h)
  rw [if_neg hover, eq_comm, ofInt_tdiv_eq_iff x y hzero]
  simp only [hy, hover, false_or]

theorem rem_rtl_iff : (MextOp.rem.rtl x y revPack).rdValue = (MextOp.rem.spec x y).toNat ↔
    MextOp.rem.Agrees x y := by
  rw [rem_rtl, BitVec.toNat_inj, MextOp.spec, MextOp.Agrees]
  by_cases hy : y = 0
  · rw [if_pos hy, if_pos hy]
    exact iff_of_true rfl (Or.inl hy)
  rw [if_neg hy, if_neg hy]
  by_cases hover : x = 0x80000000#32 ∧ y = 0xFFFFFFFF#32
  · rw [if_pos hover]
    refine iff_of_true ?_ (Or.inr (Or.inl hover))
    obtain ⟨rfl, rfl⟩ := hover
    decide
  have hzero : y.toNat ≠ 0 := fun h => hy (BitVec.eq_of_toNat_eq h)
  rw [if_neg hover, eq_comm, ofInt_tmod_eq_iff x y hzero]
  simp only [hy, hover, false_or]

end Operands

/-! ## All eight operations -/

/-- The hardware answers what the definition and the C++ units give. -/
def FollowsMExtension (op : MextOp) (x y : BitVec 32) (revPack : IssueExecutePack) : Prop :=
  (op.rtl x y revPack).rdValue = (op.spec x y).toNat ∧
    (op.rtl x y revPack).rdValue = (op.cpp x y).toNat

/-- Dividend, divisor, quotient and remainder belong together modulo `2 ^ 32`. -/
def DivisionIdentity (quotient remainder : MextOp) (x y : BitVec 32)
    (revPack : IssueExecutePack) : Prop :=
  x.toNat = (y.toNat * (quotient.rtl x y revPack).rdValue +
    (remainder.rtl x y revPack).rdValue) % 2 ^ 32

theorem follows_iff (op : MextOp) (x y : BitVec 32) (revPack : IssueExecutePack) :
    FollowsMExtension op x y revPack ↔ op.Agrees x y := by
  rw [FollowsMExtension, cpp_eq_spec, and_self]
  cases op with
  | mul => exact iff_of_true (mul_rtl x y revPack) trivial
  | mulh => exact iff_of_true (mulh_rtl x y revPack) trivial
  | mulhsu => exact iff_of_true (mulhsu_rtl x y revPack) trivial
  | mulhu => exact iff_of_true (mulhu_rtl x y revPack) trivial
  | div => exact div_rtl_iff x y revPack
  | divu => exact iff_of_true (divu_rtl x y revPack) trivial
  | rem => exact rem_rtl_iff x y revPack
  | remu => exact iff_of_true (remu_rtl x y revPack) trivial

/-- Both dividers divide the words, outside the cases they single out. -/
theorem words_identity (x y : BitVec 32) :
    x.toNat = (y.toNat * (x / y).toNat + (x % y).toNat) % 2 ^ 32 := by
  rw [BitVec.toNat_udiv, BitVec.toNat_umod, Nat.div_add_mod, Nat.mod_eq_of_lt x.isLt]

theorem divu_identity (x y : BitVec 32) (revPack : IssueExecutePack) :
    DivisionIdentity .divu .remu x y revPack := by
  rw [DivisionIdentity, divu_rtl, remu_rtl, MextOp.spec, MextOp.spec, ← BitVec.udiv_def,
    ← BitVec.umod_def]
  by_cases hy : y = 0
  · have hzero : y.toNat = 0 := by rw [hy]; rfl
    rw [if_pos hy, if_pos hy, hzero, Nat.zero_mul, Nat.zero_add, Nat.mod_eq_of_lt x.isLt]
  · rw [if_neg hy, if_neg hy]
    exact words_identity x y

theorem div_identity (x y : BitVec 32) (revPack : IssueExecutePack) :
    DivisionIdentity .div .rem x y revPack := by
  rw [DivisionIdentity, div_rtl, rem_rtl]
  by_cases hy : y = 0
  · have hzero : y.toNat = 0 := by rw [hy]; rfl
    rw [if_pos hy, if_pos hy, hzero, Nat.zero_mul, Nat.zero_add, Nat.mod_eq_of_lt x.isLt]
  rw [if_neg hy, if_neg hy]
  by_cases hover : x = 0x80000000#32 ∧ y = 0xFFFFFFFF#32
  · obtain ⟨rfl, rfl⟩ := hover
    decide
  · rw [if_neg hover, if_neg hover]
    exact words_identity x y

/-- Every operation follows the M extension exactly on the operands on which it agrees, and
quotient and remainder belong together on all operands. -/
theorem mext_iff (x y : BitVec 32) (revPack : IssueExecutePack) :
    (∀ op, FollowsMExtension op x y revPack ↔ op.Agrees x y) ∧
      DivisionIdentity .div .rem x y revPack ∧ DivisionIdentity .divu .remu x y revPack :=
  ⟨fun op => follows_iff op x y revPack, div_identity x y revPack, divu_identity x y revPack⟩

/-- Minus six divided by two is `0x7FFFFFFD` in the hardware and minus three in the model. -/
theorem negative_dividend_differs :
    (MextOp.div.rtl 0xFFFFFFFA#32 2#32 IssueExecutePack.zero).rdValue = 0x7FFFFFFD ∧
      MextOp.div.cpp 0xFFFFFFFA#32 2#32 = 0xFFFFFFFD#32 ∧
      ¬FollowsMExtension .div 0xFFFFFFFA#32 2#32 IssueExecutePack.zero := by
  refine ⟨by decide, by decide, fun h => ?_⟩
  exact absurd h.1 (by decide)

end DreamCore.Proofs
