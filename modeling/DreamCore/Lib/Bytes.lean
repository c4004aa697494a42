import Mathlib.Data.Nat.Bitwise

/-!
# Words and memories made of bytes

A word is the bitwise or of its bytes, the lowest first.  A cyclic memory is a function
of addresses; a write replaces a few consecutive bytes, counted from its address around
the end of the memory.
-/

namespace DreamCore.Bytes

/-! ## Words -/

/-- The word with the bytes `byte 0`, …, `byte (n - 1)`. -/
def ofBytes (byte : Nat → BitVec 8) : Nat → Nat
  | 0 => 0
  | n + 1 => ofBytes byte n ||| (byte n).toNat <<< (8 * n)

theorem testBit_byte (b : BitVec 8) {i : Nat} (hi : 8 ≤ i) : b.toNat.testBit i = false :=
  Nat.testBit_lt_two_pow (Nat.lt_of_lt_of_le b.isLt (Nat.pow_le_pow_right (by decide) hi))

theorem testBit_ofBytes (byte : Nat → BitVec 8) (n i : Nat) :
    (ofBytes byte n).testBit i = (decide (i < 8 * n) && (byte (i / 8)).toNat.testBit (i % 8)) := by
  induction n with
  | zero => simp [ofBytes]
  | succ n ih =>
      rw [ofBytes, Nat.testBit_or, ih, Nat.testBit_shiftLeft]
      rcases Nat.lt_or_ge i (8 * n) with hlow | hge
      · simp [hlow, Nat.not_le.2 hlow, (by omega : i < 8 * (n + 1))]
      · rcases Nat.lt_or_ge i (8 * (n + 1)) with hin | hout
        · have hindex : i / 8 = n := by omega
          have hbit : i - 8 * n = i % 8 := by omega
          simp [hge, hin, Nat.not_lt.2 hge, hindex, hbit]
        · rw [testBit_byte (byte n) (by omega : 8 ≤ i - 8 * n)]
          simp [Nat.not_lt.2 hge, Nat.not_lt.2 hout]

theorem ofBytes_congr {f g : Nat → BitVec 8} {n : Nat} (h : ∀ k, k < n → f k = g k) :
    ofBytes f n = ofBytes g n := by
  induction n with
  | zero => rfl
  | succ n ih =>
      rw [ofBytes, ofBytes, ih fun k hk => h k (by omega), h n (Nat.lt_succ_self n)]

/-- Some bytes in the middle of a word. -/
theorem ofBytes_slice (byte : Nat → BitVec 8) {n first count : Nat} (h : first + count ≤ n) :
    (ofBytes byte n >>> (8 * first)) % 2 ^ (8 * count) =
      ofBytes (fun k => byte (first + k)) count := by
  refine Nat.eq_of_testBit_eq fun i => ?_
  rw [Nat.testBit_mod_two_pow, Nat.testBit_shiftRight, testBit_ofBytes, testBit_ofBytes]
  have hindex : (8 * first + i) / 8 = first + i / 8 := by omega
  have hbit : (8 * first + i) % 8 = i % 8 := by omega
  rw [hindex, hbit]
  rcases Nat.lt_or_ge i (8 * count) with hlt | hge
  · simp [hlt, (by omega : 8 * first + i < 8 * n)]
  · simp [Nat.not_lt.2 hge]

/-- A number is made of its bytes. -/
theorem ofBytes_shifts {n count : Nat} (h : n < 2 ^ (8 * count)) :
    ofBytes (fun k => BitVec.ofNat 8 (n >>> (8 * k))) count = n := by
  refine Nat.eq_of_testBit_eq fun i => ?_
  rw [testBit_ofBytes, BitVec.toNat_ofNat, Nat.testBit_mod_two_pow, Nat.testBit_shiftRight,
    decide_eq_true (by omega : i % 8 < 8), Bool.true_and, Nat.div_add_mod]
  rcases Nat.lt_or_ge i (8 * count) with hlt | hge
  · rw [decide_eq_true hlt, Bool.true_and]
  · rw [decide_eq_false (by omega), Bool.false_and, Nat.testBit_lt_two_pow
      (Nat.lt_of_lt_of_le h (Nat.pow_le_pow_right (by decide) hge))]

theorem ofBytes_lt (byte : Nat → BitVec 8) (n : Nat) : ofBytes byte n < 2 ^ (8 * n) := by
  have h := ofBytes_slice byte (Nat.le_of_eq (Nat.zero_add n))
  rw [Nat.mul_zero, Nat.shiftRight_zero] at h
  simp only [Nat.zero_add] at h
  rw [← h]
  exact Nat.mod_lt _ (Nat.two_pow_pos _)

/-- The bitwise or of bytes shifted to different places. -/
def orShifted (byte : Nat → BitVec 8) (place : Nat → Nat) : Nat → Nat
  | 0 => 0
  | n + 1 => orShifted byte place n ||| (byte n).toNat <<< (8 * place n)

theorem testBit_orShifted (byte : Nat → BitVec 8) (place : Nat → Nat) (n i : Nat) :
    (orShifted byte place n).testBit i = true ↔
      ∃ k, k < n ∧ place k = i / 8 ∧ (byte k).toNat.testBit (i % 8) = true := by
  induction n with
  | zero => simp [orShifted]
  | succ n ih =>
      rw [orShifted, Nat.testBit_or, Bool.or_eq_true, ih, Nat.testBit_shiftLeft, Bool.and_eq_true,
        decide_eq_true_iff]
      have hlast : (8 * place n ≤ i ∧ (byte n).toNat.testBit (i - 8 * place n) = true) ↔
          (place n = i / 8 ∧ (byte n).toNat.testBit (i % 8) = true) := by
        constructor
        · rintro ⟨hle, hbit⟩
          have hlt : i - 8 * place n < 8 := by
            by_contra hge
            exact Bool.false_ne_true ((testBit_byte _ (by omega)).symm.trans hbit)
          exact ⟨by omega, (by omega : i - 8 * place n = i % 8) ▸ hbit⟩
        · rintro ⟨hplace, hbit⟩
          exact ⟨by omega, (by omega : i - 8 * place n = i % 8).symm ▸ hbit⟩
      rw [hlast]
      constructor
      · rintro (⟨k, hk, hrest⟩ | hrest)
        · exact ⟨k, by omega, hrest⟩
        · exact ⟨n, Nat.lt_succ_self n, hrest⟩
      · rintro ⟨k, hk, hrest⟩
        rcases Nat.lt_succ_iff_lt_or_eq.1 hk with hlt | rfl
        · exact Or.inl ⟨k, hlt, hrest⟩
        · exact Or.inr hrest

/-- Bytes shifted to a permutation of the places of a word give the permuted word. -/
theorem orShifted_perm {byte : Nat → BitVec 8} {place source : Nat → Nat} {n : Nat}
    (hplace : ∀ k, k < n → place k < n) (hfrom : ∀ j, j < n → source j < n)
    (hinv : ∀ k j, k < n → j < n → (place k = j ↔ k = source j)) :
    orShifted byte place n = ofBytes (fun j => byte (source j)) n := by
  refine Nat.eq_of_testBit_eq fun i => ?_
  rw [Bool.eq_iff_iff, testBit_orShifted, testBit_ofBytes, Bool.and_eq_true, decide_eq_true_iff]
  constructor
  · rintro ⟨k, hk, heq, hbit⟩
    have hj : i / 8 < n := heq ▸ hplace k hk
    have hk' := (hinv k (i / 8) hk hj).1 heq
    exact ⟨by omega, hk' ▸ hbit⟩
  · rintro ⟨hi, hbit⟩
    have hj : i / 8 < n := by omega
    exact ⟨source (i / 8), hfrom _ hj, (hinv _ _ (hfrom _ hj) hj).2 rfl, hbit⟩

/-! ## Fields of a bit vector -/

def lowMask (w len : Nat) : BitVec w := 1#w <<< len - 1#w

theorem getLsbD_lowMask {w : Nat} (len p : Nat) :
    (lowMask w len).getLsbD p = (decide (p < w) && decide (p < len)) := by
  rcases Nat.lt_or_ge len w with hlen | hlen
  · have hpow : 2 ^ len < 2 ^ w := Nat.pow_lt_pow_right (by decide) hlen
    have hone : 1 ≤ 2 ^ len := Nat.one_le_two_pow
    have heq : lowMask w len = BitVec.ofNat w (2 ^ len - 1) := by
      apply BitVec.eq_of_toNat_eq
      have h1 : (1 : Nat) % 2 ^ w = 1 := Nat.mod_eq_of_lt (by omega)
      have hlow : (2 ^ len - 1) % 2 ^ w = 2 ^ len - 1 := Nat.mod_eq_of_lt (by omega)
      rw [lowMask, BitVec.toNat_sub, BitVec.toNat_shiftLeft, BitVec.toNat_ofNat,
        BitVec.toNat_ofNat, h1, Nat.shiftLeft_eq, Nat.one_mul, Nat.mod_eq_of_lt hpow, hlow]
      have hsum : 2 ^ w - 1 + 2 ^ len = 2 ^ len - 1 + 2 ^ w := by omega
      rw [hsum, Nat.add_mod_right, hlow]
    rw [heq, BitVec.getLsbD_ofNat, Nat.testBit_two_pow_sub_one]
  · have hzero : (1#w) <<< len = 0#w := BitVec.shiftLeft_eq_zero hlen
    rw [lowMask, hzero, BitVec.zero_sub, BitVec.neg_one_eq_allOnes, BitVec.getLsbD_allOnes]
    by_cases hp : p < w
    · simp [hp, (by omega : p < len)]
    · simp [hp]

/-- The lowest `len` bits of `x` put at bit `off`. -/
theorem getLsbD_insert {w : Nat} (dataIn x : BitVec w) {off len p : Nat} (hp : p < w) :
    (dataIn &&& ~~~(lowMask w len <<< off) ||| (x &&& lowMask w len) <<< off).getLsbD p =
      if off ≤ p ∧ p < off + len then x.getLsbD (p - off) else dataIn.getLsbD p := by
  have hsub : p - off < w := by omega
  simp only [BitVec.getLsbD_or, BitVec.getLsbD_and, BitVec.getLsbD_not, BitVec.getLsbD_shiftLeft,
    getLsbD_lowMask, hp, hsub, decide_true, Bool.true_and]
  by_cases hoff : off ≤ p
  · by_cases hlen : p < off + len
    · have hin : decide (p - off < len) = true := decide_eq_true (by omega)
      simp [hoff, hlen, Nat.not_lt.2 hoff, hin]
    · have hout : decide (p - off < len) = false := decide_eq_false (by omega)
      simp [hoff, hlen, Nat.not_lt.2 hoff, hout]
  · simp [hoff, Nat.lt_of_not_le hoff]

/-- The byte `k` of a vector. -/
def byteAt {w : Nat} (v : BitVec w) (k : Nat) : BitVec 8 := v.extractLsb' (8 * k) 8

theorem getLsbD_byteAt {w : Nat} (v : BitVec w) (k : Nat) {t : Nat} (ht : t < 8) :
    (byteAt v k).getLsbD t = v.getLsbD (8 * k + t) := by
  rw [byteAt, BitVec.getLsbD_extractLsb', decide_eq_true ht, Bool.true_and]

theorem testBit_byteAt {w : Nat} (v : BitVec w) (i : Nat) :
    (byteAt v (i / 8)).toNat.testBit (i % 8) = v.toNat.testBit i := by
  have hbit := getLsbD_byteAt v (i / 8) (Nat.mod_lt i (by decide))
  rwa [Nat.div_add_mod] at hbit

/-- The lowest bytes of a vector. -/
theorem ofBytes_byteAt {w : Nat} (v : BitVec w) (n : Nat) :
    ofBytes (byteAt v) n = v.toNat % 2 ^ (8 * n) := by
  refine Nat.eq_of_testBit_eq fun i => ?_
  rw [testBit_ofBytes, testBit_byteAt, Nat.testBit_mod_two_pow]

theorem byteAt_ofBytes {w n k : Nat} (byte : Nat → BitVec 8) (hk : k < n) (hw : 8 * k + 8 ≤ w) :
    byteAt (BitVec.ofNat w (ofBytes byte n)) k = byte k := by
  apply BitVec.eq_of_getLsbD_eq
  intro t ht
  have hindex : (8 * k + t) / 8 = k := by omega
  have hbit : (8 * k + t) % 8 = t := by omega
  rw [getLsbD_byteAt _ _ ht, BitVec.getLsbD_ofNat, testBit_ofBytes, hindex, hbit,
    decide_eq_true (by omega : 8 * k + t < w), decide_eq_true (by omega : 8 * k + t < 8 * n)]
  rfl

/-! ## Memories -/

/-- How far `addr` lies behind `start` on a ring of `size` addresses. -/
def offset (size start addr : Nat) : Nat := (addr + (size - start % size)) % size

/-- `count` bytes from `start` on are replaced. -/
def writeBytes (size start count : Nat) (data : Nat → BitVec 8) (mem : Nat → BitVec 8) :
    Nat → BitVec 8 := fun addr =>
  if offset size start addr < count then data (offset size start addr) else mem addr

/-- The distance is `k` exactly for the address `k` behind the start. -/
theorem offset_eq_iff {size start k addr : Nat} (hk : k < size) :
    offset size start addr = k ↔ addr % size = (start + k) % size := by
  have hsplit := Nat.div_add_mod start size
  have hlt := Nat.mod_lt start (by omega : size > 0)
  have hback : ∀ a, (a + (size - start % size) + start) % size = a % size := by
    intro a
    have hsum : a + (size - start % size) + start = a + size * (start / size + 1) := by
      rw [Nat.mul_add, Nat.mul_one]
      omega
    rw [hsum, Nat.add_mul_mod_self_left]
  constructor
  · rintro rfl
    rw [offset, Nat.add_comm start, Nat.mod_add_mod, hback]
  · intro heq
    rw [offset, ← Nat.mod_add_mod, heq, Nat.mod_add_mod]
    have hcomm : start + k + (size - start % size) = k + (size - start % size) + start := by omega
    rw [hcomm, hback, Nat.mod_eq_of_lt hk]

end DreamCore.Bytes
