import Mathlib.Data.Nat.Bitwise
import Mathlib.Tactic.Common

/-!
# Signed and unsigned division of words

A word is a natural number below `2 * h`; from `h` on it stands for a negative number.
Truncated division of the numbers and division of the words themselves agree on few
operands of different sign, and the two lemmas here say exactly on which.
-/

namespace DreamCore.TwosComplement

/-- The number a word stands for. -/
def signed (h a : Nat) : Int := if a < h then a else (a : Int) - 2 * h

/-- The word that stands for a number. -/
def word (h : Nat) (z : Int) : Nat := (z % (2 * h : Int)).toNat

variable {h a b : Nat}

/-! ## Words of small numbers -/

theorem word_of_lt {n : Nat} (hn : n < 2 * h) : word h n = n := by
  rw [word, Int.emod_eq_of_lt (by omega) (by omega), Int.toNat_natCast]

theorem word_neg {n : Nat} (hpos : 0 < n) (hn : n ≤ 2 * h) : word h (-n) = 2 * h - n := by
  have hmod : (-(n : Int)) % (2 * h : Int) = 2 * h - n := by
    rw [← Int.add_emod_right, Int.emod_eq_of_lt (by omega) (by omega)]
    omega
  rw [word, hmod]
  omega

theorem word_neg_zero : word h (-((0 : Nat) : Int)) = 0 := by simp [word]

theorem signed_of_lt (ha : a < h) : signed h a = a := if_pos ha

theorem signed_of_ge (ha : h ≤ a) (hlt : a < 2 * h) : signed h a = -((2 * h - a : Nat) : Int) := by
  rw [signed, if_neg (by omega)]
  omega

/-! ## Quotients -/

theorem quotient_iff (ha : a < 2 * h) (hb : b < 2 * h) (hzero : b ≠ 0) :
    word h ((signed h a).tdiv (signed h b)) = a / b ↔
      b = 1 ∨ a = b ∨ a < h ∧ (b < h ∨ a < 2 * h - b) := by
  rcases Nat.lt_or_ge a h with hah | hah <;> rcases Nat.lt_or_ge b h with hbh | hbh
  · -- two non-negative numbers
    have hle := Nat.div_le_self a b
    rw [signed_of_lt hah, signed_of_lt hbh, ← Int.ofNat_tdiv, word_of_lt (by omega)]
    omega
  · -- a negative divisor: the word of the dividend is the smaller one
    have hle := Nat.div_le_self a (2 * h - b)
    have hsmall := Nat.div_eq_zero_iff (a := a) (b := 2 * h - b)
    rw [signed_of_lt hah, signed_of_ge hbh hb, Int.tdiv_neg, ← Int.ofNat_tdiv,
      Nat.div_eq_of_lt (by omega : a < b)]
    rcases Nat.eq_zero_or_pos (a / (2 * h - b)) with hq | hq
    · rw [hq, word_neg_zero]
      omega
    · rw [word_neg hq (by omega)]
      omega
  · -- a negative dividend: the quotient of the words is positive
    have hle := Nat.div_le_self (2 * h - a) b
    have hpos : 1 ≤ a / b := (Nat.one_le_div_iff (by omega)).2 (by omega)
    rw [signed_of_ge hah ha, signed_of_lt hbh, Int.neg_tdiv, ← Int.ofNat_tdiv]
    rcases Nat.eq_or_lt_of_le (Nat.one_le_iff_ne_zero.2 hzero) with hone | htwo
    · subst hone
      rw [Nat.div_one, Nat.div_one, word_neg (by omega) (by omega)]
      omega
    · have htwice : 2 * h ≤ h * b := Nat.mul_comm 2 h ▸ Nat.mul_le_mul_left h htwo
      have hhalf : a / b < h :=
        (Nat.div_lt_iff_lt_mul (by omega)).2 (Nat.lt_of_lt_of_le ha htwice)
      rcases Nat.eq_zero_or_pos ((2 * h - a) / b) with hq | hq
      · rw [hq, word_neg_zero]
        omega
      · rw [word_neg hq (by omega)]
        omega
  · -- two negative numbers
    rw [signed_of_ge hah ha, signed_of_ge hbh hb, Int.neg_tdiv, Int.tdiv_neg, Int.neg_neg,
      ← Int.ofNat_tdiv]
    have hle := Nat.div_le_self (2 * h - a) (2 * h - b)
    rw [word_of_lt (by omega)]
    have hsmall := Nat.div_eq_zero_iff (a := 2 * h - a) (b := 2 * h - b)
    rcases Nat.lt_trichotomy a b with hlt | rfl | hgt
    · rw [Nat.div_eq_of_lt hlt]
      omega
    · rw [Nat.div_self (by omega), Nat.div_self (by omega)]
      omega
    · have hone : 1 ≤ a / b := (Nat.one_le_div_iff (by omega)).2 (by omega)
      rw [Nat.div_eq_of_lt (by omega : 2 * h - a < 2 * h - b)]
      omega

/-! ## Remainders -/

theorem remainder_iff (ha : a < 2 * h) (hb : b < 2 * h) (hzero : b ≠ 0) :
    word h ((signed h a).tmod (signed h b)) = a % b ↔
      a = b ∨ (a < h ∧ (b < h ∨ a < 2 * h - b)) ∨
        (h ≤ a ∧ b < h ∧ a % b = 0 ∧ (2 * h - a) % b = 0) := by
  rcases Nat.lt_or_ge a h with hah | hah <;> rcases Nat.lt_or_ge b h with hbh | hbh
  · have hle := Nat.mod_le a b
    rw [signed_of_lt hah, signed_of_lt hbh, ← Int.ofNat_tmod, word_of_lt (by omega)]
    omega
  · have hle := Nat.mod_le a (2 * h - b)
    have hsmall := Nat.mod_eq_iff_lt (m := a) (n := 2 * h - b) (by omega)
    rw [signed_of_lt hah, signed_of_ge hbh hb, Int.tmod_neg, ← Int.ofNat_tmod,
      word_of_lt (by omega), Nat.mod_eq_of_lt (by omega : a < b)]
    omega
  · have hlt := Nat.mod_lt a (by omega : 0 < b)
    have hlt' := Nat.mod_lt (2 * h - a) (by omega : 0 < b)
    rw [signed_of_ge hah ha, signed_of_lt hbh, Int.neg_tmod, ← Int.ofNat_tmod]
    rcases Nat.eq_zero_or_pos ((2 * h - a) % b) with hr | hr
    · rw [hr, word_neg_zero]
      omega
    · rw [word_neg hr (by omega)]
      omega
  · have hle := Nat.mod_le (2 * h - a) (2 * h - b)
    have hsmall := Nat.mod_eq_iff_lt (m := 2 * h - a) (n := 2 * h - b) (by omega)
    rw [signed_of_ge hah ha, signed_of_ge hbh hb, Int.neg_tmod, Int.tmod_neg, ← Int.ofNat_tmod]
    rcases Nat.lt_trichotomy a b with hlt | rfl | hgt
    · -- the dividend is larger in magnitude: the words leave it, the numbers do not
      rw [Nat.mod_eq_of_lt hlt]
      rcases Nat.eq_zero_or_pos ((2 * h - a) % (2 * h - b)) with hr | hr
      · rw [hr, word_neg_zero]
        omega
      · rw [word_neg hr (by omega)]
        omega
    · rw [Nat.mod_self, Nat.mod_self, word_neg_zero]
      omega
    · rw [hsmall.2 (by omega), word_neg (by omega) (by omega), Nat.mod_eq_sub_mod (by omega),
        Nat.mod_eq_of_lt (by omega)]
      omega

/-! ## Bit vectors -/

section BitVec

variable {n : Nat}

theorem toInt_eq_signed (x : BitVec (n + 1)) : x.toInt = signed (2 ^ n) x.toNat := by
  have hlt := x.isLt
  rw [BitVec.toInt_eq_toNat_cond, signed]
  have hpow : (2 : Nat) ^ (n + 1) = 2 * 2 ^ n := by rw [Nat.pow_succ, Nat.mul_comm]
  split_ifs with hx hx' hx'
  · rfl
  · omega
  · omega
  · rw [hpow]
    push_cast
    rfl

theorem toNat_ofInt_eq_word (z : Int) : (BitVec.ofInt (n + 1) z).toNat = word (2 ^ n) z := by
  have hpow : (2 : Nat) ^ (n + 1) = 2 * 2 ^ n := by rw [Nat.pow_succ, Nat.mul_comm]
  rw [BitVec.toNat_ofInt, word, hpow]
  push_cast
  rfl

theorem toNat_lt (x : BitVec (n + 1)) : x.toNat < 2 * 2 ^ n :=
  Nat.lt_of_lt_of_eq x.isLt (by rw [Nat.pow_succ, Nat.mul_comm])

/-- Where dividing the words gives the truncated quotient of the numbers. -/
theorem ofInt_tdiv_eq_iff (x y : BitVec (n + 1)) (hy : y.toNat ≠ 0) :
    BitVec.ofInt (n + 1) (x.toInt.tdiv y.toInt) = x / y ↔
      y.toNat = 1 ∨ x.toNat = y.toNat ∨
        x.toNat < 2 ^ n ∧ (y.toNat < 2 ^ n ∨ x.toNat < 2 * 2 ^ n - y.toNat) := by
  rw [← BitVec.toNat_inj, toNat_ofInt_eq_word, toInt_eq_signed, toInt_eq_signed, BitVec.toNat_udiv]
  exact quotient_iff (toNat_lt x) (toNat_lt y) hy

/-- Where the remainder of the words is the one with the sign of the dividend. -/
theorem ofInt_tmod_eq_iff (x y : BitVec (n + 1)) (hy : y.toNat ≠ 0) :
    BitVec.ofInt (n + 1) (x.toInt.tmod y.toInt) = x % y ↔
      x.toNat = y.toNat ∨
        (x.toNat < 2 ^ n ∧ (y.toNat < 2 ^ n ∨ x.toNat < 2 * 2 ^ n - y.toNat)) ∨
        (2 ^ n ≤ x.toNat ∧ y.toNat < 2 ^ n ∧ x.toNat % y.toNat = 0 ∧
          (2 * 2 ^ n - x.toNat) % y.toNat = 0) := by
  rw [← BitVec.toNat_inj, toNat_ofInt_eq_word, toInt_eq_signed, toInt_eq_signed, BitVec.toNat_umod]
  exact remainder_iff (toNat_lt x) (toNat_lt y) hy

end BitVec

end DreamCore.TwosComplement
