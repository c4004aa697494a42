import DreamCore.Model.Encoding
import Mathlib.Tactic.IntervalCases
import Mathlib.Tactic.SplitIfs

/-!
# The decoders agree and invert the encoding

The fields of the word and its immediates are the same numbers in both programs; each
major opcode is then compared and encoded on its own.
-/

namespace DreamCore.Proofs

open DreamCore.InstructionFormats DreamCore.Model DreamCore.Rtl

/-! ## Fields -/

theorem bits_field (word lo width : Nat) : bits word lo width = field word lo width := by
  rw [bits, field, Nat.shiftRight_eq_div_pow]

section CppFields

variable (word : Nat)

theorem mask_bits (lo width : Nat) : (word >>> lo) &&& (2 ^ width - 1) = bits word lo width :=
  Nat.and_two_pow_sub_one_eq_mod _ _

theorem decOpcode_eq : Cpp.decOpcode word = wordOpcode word := mask_bits word 0 7
theorem decRd_eq : Cpp.decRd word = wordRd word := mask_bits word 7 5
theorem decFunct3_eq : Cpp.decFunct3 word = wordFunct3 word := mask_bits word 12 3
theorem decRs1_eq : Cpp.decRs1 word = wordRs1 word := mask_bits word 15 5
theorem decRs2_eq : Cpp.decRs2 word = wordRs2 word := mask_bits word 20 5
theorem decFunct7_eq : Cpp.decFunct7 word = wordFunct7 word := mask_bits word 25 7
theorem decImmI_eq : Cpp.decImmI word = immI word := mask_bits word 20 12

theorem decImmS_eq : Cpp.decImmS word = immS word := by
  have hlow : (word >>> 7) &&& 0x1f = bits word 7 5 := mask_bits word 7 5
  have hhigh : (word >>> 25) &&& 0x7f = bits word 25 7 := mask_bits word 25 7
  rw [Cpp.decImmS, hlow, hhigh, immS, Nat.or_comm]

theorem or_reverse (a b c d : Nat) : a ||| b ||| c ||| d = d ||| c ||| b ||| a := by
  rw [Nat.or_comm _ d, Nat.or_comm _ c, Nat.or_comm a b, Nat.or_assoc, Nat.or_assoc]

theorem decImmB_eq : Cpp.decImmB word = immB word := by
  have hlow : (word >>> 8) &&& 0x0f = bits word 8 4 := mask_bits word 8 4
  have hhigh : (word >>> 25) &&& 0x3f = bits word 25 6 := mask_bits word 25 6
  have hbit11 : (word >>> 7) &&& 0x01 = bits word 7 1 := mask_bits word 7 1
  have hsign : (word >>> 31) &&& 0x01 = bits word 31 1 := mask_bits word 31 1
  rw [Cpp.decImmB, hlow, hhigh, hbit11, hsign, immB, or_reverse]

theorem decImmJ_eq : Cpp.decImmJ word = immJ word := by
  have hmid : (word >>> 12) &&& 0xff = bits word 12 8 := mask_bits word 12 8
  have hbit11 : (word >>> 20) &&& 0x01 = bits word 20 1 := mask_bits word 20 1
  have hlow : (word >>> 21) &&& 0x3ff = bits word 21 10 := mask_bits word 21 10
  have hsign : (word >>> 31) &&& 0x01 = bits word 31 1 := mask_bits word 31 1
  rw [Cpp.decImmJ, hmid, hbit11, hlow, hsign, immJ, Nat.or_comm, Nat.or_assoc, Nat.or_assoc,
    Nat.or_assoc]

/-- A mask above `k` bits. -/
theorem and_shifted (mask k : Nat) : word &&& mask <<< k = (word >>> k &&& mask) <<< k := by
  apply Nat.eq_of_testBit_eq
  intro i
  rw [Nat.testBit_and, Nat.testBit_shiftLeft, Nat.testBit_shiftLeft, Nat.testBit_and,
    Nat.testBit_shiftRight]
  by_cases hi : k ≤ i
  · rw [Nat.add_sub_cancel' hi, Bool.and_left_comm]
  · rw [decide_eq_false (by omega : ¬i ≥ k), Bool.false_and, Bool.false_and, Bool.and_false]

theorem decImmU_eq : Cpp.decImmU word = immU word := by
  have hmask : 0xfffff000 = (2 ^ 20 - 1) <<< 12 := by decide
  rw [Cpp.decImmU, hmask, and_shifted, mask_bits, immU]

theorem cppSignExtend_eq {imm len : Nat} (hlen : 0 < len) (hlen' : len < 32)
    (himm : imm < 2 ^ len) : Cpp.signExtend imm len = signExtend len imm := by
  have hhalf : 2 ^ len = 2 ^ (len - 1) * 2 := by
    rw [← Nat.pow_succ]
    congr 1
    omega
  have hfull : 2 ^ (32 - len) * 2 ^ len = 2 ^ 32 := by
    rw [← Nat.pow_add]
    congr 1
    omega
  rw [Cpp.signExtend, Nat.shiftRight_eq_div_pow, signExtend]
  rcases Nat.lt_or_ge imm (2 ^ (len - 1)) with hlt | hge
  · rw [Nat.div_eq_of_lt hlt, if_pos rfl, if_pos hlt, Nat.zero_or]
  · have hsign : imm / 2 ^ (len - 1) = 1 :=
      Nat.div_eq_of_lt_le (by omega) (by omega)
    have hle : 2 ^ len ≤ 2 ^ 32 := Nat.pow_le_pow_right (by decide) hlen'.le
    have hmul : (2 ^ (32 - len) - 1) * 2 ^ len = 2 ^ 32 - 2 ^ len := by
      rw [Nat.sub_mul, hfull, Nat.one_mul]
    rw [hsign, if_neg (by decide), if_neg (by omega), Nat.one_shiftLeft, Nat.shiftLeft_eq, hmul,
      Nat.mod_eq_of_lt (by omega), ← hmul, ← Nat.shiftLeft_eq,
      ← Nat.shiftLeft_add_eq_or_of_lt himm, Nat.shiftLeft_eq, hmul]
    omega

end CppFields

/-! ## Immediates -/

section Immediates

variable (word : Nat)

theorem shiftLeft_or {low k : Nat} (hlow : low < 2 ^ k) (high : Nat) :
    high <<< k ||| low = high * 2 ^ k + low := by
  rw [← Nat.shiftLeft_add_eq_or_of_lt hlow, Nat.shiftLeft_eq]

/-- Parts that do not overlap add up. -/
theorem or_parts {a b c d i j k : Nat} (hd : d < 2 ^ i) (hc : c * 2 ^ i + d < 2 ^ j)
    (hb : b * 2 ^ j + (c * 2 ^ i + d) < 2 ^ k) :
    a <<< k ||| b <<< j ||| c <<< i ||| d = a * 2 ^ k + b * 2 ^ j + c * 2 ^ i + d := by
  rw [Nat.or_assoc, Nat.or_assoc, shiftLeft_or hd, shiftLeft_or hc, shiftLeft_or hb]
  omega

theorem immI_eq : immI word = field word 20 12 := bits_field word 20 12

theorem immS_eq : immS word = field word 25 7 * 2 ^ 5 + field word 7 5 := by
  rw [immS, bits_field, bits_field, shiftLeft_or (field_lt _ _ _)]

theorem immB_eq :
    immB word = field word 31 1 * 2 ^ 12 + field word 7 1 * 2 ^ 11 + field word 25 6 * 2 ^ 5 +
      field word 8 4 * 2 := by
  have hbit11 := field_lt word 7 1
  have hhigh := field_lt word 25 6
  have hlow := field_lt word 8 4
  simp only [immB, bits_field]
  rw [Nat.shiftLeft_eq (field word 8 4), or_parts (by omega) (by omega) (by omega)]

theorem immJ_eq :
    immJ word = field word 31 1 * 2 ^ 20 + field word 12 8 * 2 ^ 12 + field word 20 1 * 2 ^ 11 +
      field word 21 10 * 2 := by
  have hmid := field_lt word 12 8
  have hbit11 := field_lt word 20 1
  have hlow := field_lt word 21 10
  simp only [immJ, bits_field]
  rw [Nat.shiftLeft_eq (field word 21 10), or_parts (by omega) (by omega) (by omega)]

theorem immU_eq : immU word = field word 12 20 * 2 ^ 12 := by
  rw [immU, bits_field, Nat.shiftLeft_eq]

theorem immI_lt : immI word < 2 ^ 12 := immI_eq word ▸ field_lt _ _ _

theorem immS_lt : immS word < 2 ^ 12 := by
  have hlow := field_lt word 7 5
  have hhigh := field_lt word 25 7
  rw [immS_eq]
  omega

theorem immB_lt : immB word < 2 ^ 13 := by
  have hsign := field_lt word 31 1
  have hbit11 := field_lt word 7 1
  have hhigh := field_lt word 25 6
  have hlow := field_lt word 8 4
  rw [immB_eq]
  omega

theorem immJ_lt : immJ word < 2 ^ 21 := by
  have hsign := field_lt word 31 1
  have hmid := field_lt word 12 8
  have hbit11 := field_lt word 20 1
  have hlow := field_lt word 21 10
  rw [immJ_eq]
  omega

/-- The extension keeps the bits of the immediate. -/
theorem signExtend_mod {len imm : Nat} (hlen : len ≤ 32) (himm : imm < 2 ^ len) :
    signExtend len imm % 2 ^ len = imm := by
  have hfull : 2 ^ 32 = 2 ^ len * 2 ^ (32 - len) := by
    rw [← Nat.pow_add]
    congr 1
    omega
  have hpos := Nat.two_pow_pos (32 - len)
  rw [signExtend]
  split_ifs
  · exact Nat.mod_eq_of_lt himm
  · have hsum : imm + 2 ^ 32 - 2 ^ len = imm + 2 ^ len * (2 ^ (32 - len) - 1) := by
      rw [hfull, Nat.mul_sub, Nat.mul_one, Nat.add_sub_assoc]
      exact Nat.le_mul_of_pos_right _ hpos
    rw [hsum, Nat.add_mul_mod_self_left, Nat.mod_eq_of_lt himm]

end Immediates

/-! ## The decoders agree -/

/-- Agreement of the hardware and the C++ model, where the argument sources of a
rejected word do not count. -/
def DecodeAgree (f g : DecodeFields) : Prop :=
  SameOperation f g ∧ (f.valid = true → SameArgSources f g)

theorem decodeAgree_refl (f : DecodeFields) : DecodeAgree f f := by
  have hrename : (f.rdEnable && decide (f.rd ≠ 0)) = Cpp.decodeNeedRename f := by
    simp only [Cpp.decodeNeedRename, Nat.pos_iff_ne_zero]
  exact ⟨⟨rfl, rfl, rfl, rfl, rfl, rfl, rfl, rfl, hrename, rfl, rfl⟩, fun _ => ⟨rfl, rfl⟩⟩

/-- A rejected word without a destination. -/
theorem decodeAgree_rejected (e : Bool) :
    DecodeAgree (decodeDefault e).invalid (Cpp.decodeStart e).invalid :=
  ⟨⟨rfl, rfl, rfl, rfl, rfl, rfl, rfl, rfl, rfl, rfl, rfl⟩, fun h => nomatch h⟩

theorem decodeAgree_ite {c : Prop} [Decidable c] {f g f' g' : DecodeFields}
    (h : DecodeAgree f g) (h' : DecodeAgree f' g') :
    DecodeAgree (if c then f else f') (if c then g else g') := by
  split_ifs
  · exact h
  · exact h'

section Agree

variable (word : Nat) (e : Bool)

theorem cppImmI : Cpp.signExtend (Cpp.decImmI word) 12 = signExtend 12 (immI word) := by
  rw [decImmI_eq, cppSignExtend_eq (by decide) (by decide) (immI_lt word)]

theorem cppImmS : Cpp.signExtend (Cpp.decImmS word) 12 = signExtend 12 (immS word) := by
  rw [decImmS_eq, cppSignExtend_eq (by decide) (by decide) (immS_lt word)]

theorem cppImmB : Cpp.signExtend (Cpp.decImmB word) 13 = signExtend 13 (immB word) := by
  rw [decImmB_eq, cppSignExtend_eq (by decide) (by decide) (immB_lt word)]

theorem cppImmJ : Cpp.signExtend (Cpp.decImmJ word) 21 = signExtend 21 (immJ word) := by
  rw [decImmJ_eq, cppSignExtend_eq (by decide) (by decide) (immJ_lt word)]

theorem cppLui : Cpp.decodeLui word (Cpp.decodeStart e) = decodeLui word (decodeDefault e) := by
  rw [Cpp.decodeLui, decImmU_eq, decRd_eq]
  rfl

theorem cppAuipc :
    Cpp.decodeAuipc word (Cpp.decodeStart e) = decodeAuipc word (decodeDefault e) := by
  rw [Cpp.decodeAuipc, decImmU_eq, decRd_eq]
  rfl

theorem cppJal : Cpp.decodeJal word (Cpp.decodeStart e) = decodeJal word (decodeDefault e) := by
  rw [Cpp.decodeJal, cppImmJ, decRd_eq]
  rfl

theorem cppJalr : Cpp.decodeJalr word (Cpp.decodeStart e) = decodeJalr word (decodeDefault e) := by
  rw [Cpp.decodeJalr, cppImmI, decRd_eq, decRs1_eq]
  rfl

theorem cppBranch :
    Cpp.decodeBranch word (Cpp.decodeStart e) = decodeBranch word (decodeDefault e) := by
  rw [Cpp.decodeBranch, cppImmB, decRs1_eq, decRs2_eq, decFunct3_eq]
  rfl

theorem cppLoad : Cpp.decodeLoad word (Cpp.decodeStart e) = decodeLoad word (decodeDefault e) := by
  rw [Cpp.decodeLoad, cppImmI, decRs1_eq, decRd_eq, decFunct3_eq]
  rfl

theorem cppStore :
    Cpp.decodeStore word (Cpp.decodeStart e) = decodeStore word (decodeDefault e) := by
  rw [Cpp.decodeStore, cppImmS, decRs1_eq, decRs2_eq, decFunct3_eq]
  rfl

theorem wordFunct3_lt : wordFunct3 word < 8 := Nat.mod_lt _ (by decide)

theorem cppOpImm :
    Cpp.decodeOpImm word (Cpp.decodeStart e) = decodeOpImm word (decodeDefault e) := by
  have hlt := wordFunct3_lt word
  rw [Cpp.decodeOpImm, cppImmI, decRs1_eq, decRd_eq, decFunct3_eq, decFunct7_eq, decodeOpImm]
  generalize wordFunct3 word = funct3 at hlt
  interval_cases funct3 <;> rfl

theorem cppTwo (g base extension : DecodeFields) :
    Cpp.decodeTwo word g base extension = decodeByFunct7 word g base g.invalid extension := by
  rw [Cpp.decodeTwo, decFunct7_eq, decodeByFunct7]
  split_ifs <;> first | rfl | omega

theorem cppThree (g base alternate extension : DecodeFields) :
    Cpp.decodeThree word g base alternate extension =
      decodeByFunct7 word g base alternate extension := by
  rw [Cpp.decodeThree, decFunct7_eq, decodeByFunct7]

theorem cppOp : Cpp.decodeOp word (Cpp.decodeStart e) = decodeOp word (decodeDefault e) := by
  have hlt := wordFunct3_lt word
  rw [Cpp.decodeOp, decRs1_eq, decRs2_eq, decRd_eq, decFunct3_eq, decodeOp]
  simp only [cppTwo, cppThree]
  generalize wordFunct3 word = funct3 at hlt
  interval_cases funct3 <;> rfl

theorem cppMiscMem :
    DecodeAgree (decodeMiscMem word (decodeDefault e))
      (Cpp.decodeMiscMem word (Cpp.decodeStart e)) := by
  have hfm : (word >>> 28) &&& 0x0f = bits word 28 4 := mask_bits word 28 4
  rw [Cpp.decodeMiscMem, decFunct3_eq, decRd_eq, decRs1_eq, decImmI_eq, hfm, decodeMiscMem]
  split_ifs
  · exact decodeAgree_refl _
  · exact decodeAgree_rejected e
  · exact decodeAgree_refl _
  · exact decodeAgree_rejected e
  · exact decodeAgree_rejected e

theorem cppCsrReg (op : Op) (subOp : Nat) :
    Cpp.decodeCsrReg word (Cpp.decodeStart e) op subOp =
      decodeCsrReg word (decodeDefault e) op subOp := by
  rw [Cpp.decodeCsrReg, decRs1_eq, decRd_eq, decImmI_eq]
  rfl

theorem cppCsrImm (op : Op) (subOp : Nat) :
    Cpp.decodeCsrImm word (Cpp.decodeStart e) op subOp =
      decodeCsrImm word (decodeDefault e) op subOp := by
  rw [Cpp.decodeCsrImm, decRs1_eq, decRd_eq, decImmI_eq]
  rfl

theorem cppSystem :
    DecodeAgree (decodeSystem word (decodeDefault e))
      (Cpp.decodeSystem word (Cpp.decodeStart e)) := by
  rw [Cpp.decodeSystem, decFunct3_eq, decRd_eq, decRs1_eq, decRs2_eq, decFunct7_eq, decodeSystem]
  simp only [cppCsrReg, cppCsrImm]
  split_ifs <;> first | exact decodeAgree_rejected e | exact decodeAgree_refl _

/-- The two decoders agree on every word, argument sources of rejected words apart. -/
theorem decoders_agree : DecodeAgree (decodeFields word e) (Cpp.decodeFields word e) := by
  rw [Cpp.decodeFields, Cpp.decodeSwitch, decOpcode_eq, decodeFields, decodeByOpcode, cppLui,
    cppAuipc, cppJal, cppJalr, cppBranch, cppLoad, cppStore, cppOpImm, cppOp]
  iterate 9 refine decodeAgree_ite (decodeAgree_refl _) ?_
  exact decodeAgree_ite (cppMiscMem word e) (decodeAgree_ite (cppSystem word e)
    (decodeAgree_rejected e))

end Agree

/-! ## The encoding is undone -/

/-- What a decoded word stands for, if it is accepted. -/
def Encodes (word : Nat) (f : DecodeFields) : Prop := f.valid = true → encodeFields f = word

theorem encodes_invalid (word : Nat) (f : DecodeFields) : Encodes word f.invalid :=
  fun h => nomatch h

theorem encodes_byFunct7 {word : Nat} {g base alternate extension : DecodeFields}
    (hbase : wordFunct7 word = 0x00 → Encodes word base)
    (halternate : wordFunct7 word = 0x20 → Encodes word alternate)
    (hextension : wordFunct7 word = 0x01 → Encodes word extension) :
    Encodes word (decodeByFunct7 word g base alternate extension) := by
  rw [decodeByFunct7]
  split_ifs with h0 h20 h1
  · exact hbase h0
  · exact halternate h20
  · exact hextension h1
  · exact encodes_invalid _ _

section Inverse

variable (word : Nat)

theorem wordOpcode_eq : wordOpcode word = field word 0 7 := bits_field word 0 7
theorem wordRd_eq : wordRd word = field word 7 5 := bits_field word 7 5
theorem wordFunct3_eq : wordFunct3 word = field word 12 3 := bits_field word 12 3
theorem wordRs1_eq : wordRs1 word = field word 15 5 := bits_field word 15 5
theorem wordRs2_eq : wordRs2 word = field word 20 5 := bits_field word 20 5
theorem wordFunct7_eq : wordFunct7 word = field word 25 7 := bits_field word 25 7

theorem immI_mod : immI word % 2 ^ 12 = field word 20 12 := by
  rw [Nat.mod_eq_of_lt (immI_lt word), immI_eq]

theorem signExtend_immI_mod : signExtend 12 (immI word) % 2 ^ 12 = field word 20 12 := by
  rw [signExtend_mod (by decide) (immI_lt word), immI_eq]

/-- The shift amount of the immediate is where the second source is. -/
theorem shamt_eq : field (signExtend 12 (immI word)) 0 5 = wordRs2 word := by
  rw [← field_mod (by decide : 0 + 5 ≤ 12), signExtend_immI_mod, wordRs2_eq]
  simp only [field]
  omega

variable {word} (h : word < 2 ^ 32)
include h

theorem pack_word :
    pack (wordOpcode word) (wordRd word) (wordFunct3 word) (wordRs1 word) (wordRs2 word)
      (wordFunct7 word) = word := by
  rw [wordOpcode_eq, wordRd_eq, wordFunct3_eq, wordRs1_eq, wordRs2_eq, wordFunct7_eq,
    pack_fields h]

theorem encodeI_word {imm : Nat} (himm : imm % 2 ^ 12 = field word 20 12) :
    encodeI (wordOpcode word) (wordRd word) (wordFunct3 word) (wordRs1 word) imm = word := by
  rw [wordOpcode_eq, wordRd_eq, wordFunct3_eq, wordRs1_eq, encodeI_fields h himm]

theorem encodeU_word : encodeU (wordOpcode word) (wordRd word) (immU word) = word := by
  have himm : immU word / 2 ^ 12 = word / 2 ^ 12 := by
    have hupper : word / 2 ^ 12 < 2 ^ 20 := by omega
    rw [immU_eq, field, Nat.mod_eq_of_lt hupper, Nat.mul_div_cancel _ (by decide)]
  rw [wordOpcode_eq, wordRd_eq, encodeU_fields h himm]

theorem encodeJ_word :
    encodeJ (wordOpcode word) (wordRd word) (signExtend 21 (immJ word)) = word := by
  have himm := signExtend_mod (by decide) (immJ_lt word)
  rw [immJ_eq] at himm
  rw [wordOpcode_eq, wordRd_eq, immJ_eq, encodeJ_fields h himm]

theorem encodeB_word :
    encodeB (wordOpcode word) (wordFunct3 word) (wordRs1 word) (wordRs2 word)
      (signExtend 13 (immB word)) = word := by
  have himm := signExtend_mod (by decide) (immB_lt word)
  rw [immB_eq] at himm
  rw [wordOpcode_eq, wordFunct3_eq, wordRs1_eq, wordRs2_eq, immB_eq, encodeB_fields h himm]

theorem encodeS_word :
    encodeS (wordOpcode word) (wordFunct3 word) (wordRs1 word) (wordRs2 word)
      (signExtend 12 (immS word)) = word := by
  have himm := signExtend_mod (by decide) (immS_lt word)
  rw [immS_eq] at himm
  rw [wordOpcode_eq, wordFunct3_eq, wordRs1_eq, wordRs2_eq, immS_eq, encodeS_fields h himm]

variable (f : DecodeFields)

theorem encodes_lui (hop : wordOpcode word = 0x37) : Encodes word (decodeLui word f) := by
  have hencode := encodeU_word h
  rw [hop] at hencode
  exact fun _ => hencode

theorem encodes_auipc (hop : wordOpcode word = 0x17) : Encodes word (decodeAuipc word f) := by
  have hencode := encodeU_word h
  rw [hop] at hencode
  exact fun _ => hencode

theorem encodes_jal (hop : wordOpcode word = 0x6f) : Encodes word (decodeJal word f) := by
  have hencode := encodeJ_word h
  rw [hop] at hencode
  exact fun _ => hencode

theorem encodes_jalr (hop : wordOpcode word = 0x67) (hfunct3 : wordFunct3 word = 0) :
    Encodes word (decodeJalr word f) := by
  have hencode := encodeI_word h (signExtend_immI_mod word)
  rw [hop, hfunct3] at hencode
  exact fun _ => hencode

theorem encodes_branch (hop : wordOpcode word = 0x63) : Encodes word (decodeBranch word f) := by
  have hencode := encodeB_word h
  rw [hop] at hencode
  rw [decodeBranch]
  generalize wordFunct3 word = funct3 at *
  split_ifs <;> subst_vars
  iterate 6 exact fun _ => hencode
  exact encodes_invalid _ _

theorem encodes_load (hop : wordOpcode word = 0x03) : Encodes word (decodeLoad word f) := by
  have hencode := encodeI_word h (signExtend_immI_mod word)
  rw [hop] at hencode
  rw [decodeLoad]
  generalize wordFunct3 word = funct3 at *
  split_ifs <;> subst_vars
  iterate 5 exact fun _ => hencode
  exact encodes_invalid _ _

theorem encodes_store (hop : wordOpcode word = 0x23) : Encodes word (decodeStore word f) := by
  have hencode := encodeS_word h
  rw [hop] at hencode
  rw [decodeStore]
  generalize wordFunct3 word = funct3 at *
  split_ifs <;> subst_vars
  iterate 3 exact fun _ => hencode
  exact encodes_invalid _ _

theorem encodes_opImm (hop : wordOpcode word = 0x13) : Encodes word (decodeOpImm word f) := by
  have hencode := encodeI_word h (signExtend_immI_mod word)
  have hshift := pack_word h
  have hlt := wordFunct3_lt word
  rw [hop] at hencode hshift
  rw [← shamt_eq] at hshift
  rw [decodeOpImm]
  generalize wordFunct3 word = funct3 at *
  generalize wordFunct7 word = funct7 at *
  split_ifs <;> subst_vars
  iterate 6 exact fun _ => hencode
  · exact fun _ => hshift
  · exact encodes_invalid _ _
  · obtain rfl : funct3 = 5 := by omega
    exact fun _ => hshift
  · obtain rfl : funct3 = 5 := by omega
    exact fun _ => hshift
  · exact encodes_invalid _ _

theorem encodes_op (hop : wordOpcode word = 0x33) : Encodes word (decodeOp word f) := by
  have hencode := pack_word h
  have hlt := wordFunct3_lt word
  rw [hop] at hencode
  have hfields : ∀ {funct3 funct7 : Nat}, wordFunct3 word = funct3 → wordFunct7 word = funct7 →
      pack 0x33 (wordRd word) funct3 (wordRs1 word) (wordRs2 word) funct7 = word :=
    fun h3 h7 => h3 ▸ h7 ▸ hencode
  have hinvalid := encodes_invalid word
  rw [decodeOp]
  split_ifs with h0 h1 h2 h3 h4 h5 h6
  · exact encodes_byFunct7 (fun h7 _ => hfields h0 h7) (fun h7 _ => hfields h0 h7)
      fun h7 _ => hfields h0 h7
  · exact encodes_byFunct7 (fun h7 _ => hfields h1 h7) (fun _ => hinvalid _)
      fun h7 _ => hfields h1 h7
  · exact encodes_byFunct7 (fun h7 _ => hfields h2 h7) (fun _ => hinvalid _)
      fun h7 _ => hfields h2 h7
  · exact encodes_byFunct7 (fun h7 _ => hfields h3 h7) (fun _ => hinvalid _)
      fun h7 _ => hfields h3 h7
  · exact encodes_byFunct7 (fun h7 _ => hfields h4 h7) (fun _ => hinvalid _)
      fun h7 _ => hfields h4 h7
  · exact encodes_byFunct7 (fun h7 _ => hfields h5 h7) (fun h7 _ => hfields h5 h7)
      fun h7 _ => hfields h5 h7
  · exact encodes_byFunct7 (fun h7 _ => hfields h6 h7) (fun _ => hinvalid _)
      fun h7 _ => hfields h6 h7
  · have h7' : wordFunct3 word = 7 := by omega
    exact encodes_byFunct7 (fun h7 _ => hfields h7' h7) (fun _ => hinvalid _)
      fun h7 _ => hfields h7' h7

theorem encodes_miscMem (e : Bool) (hop : wordOpcode word = 0x0f) :
    Encodes word (decodeMiscMem word (decodeDefault e)) := by
  have hencode := encodeI_word h (immI_mod word)
  rw [hop] at hencode
  rw [decodeMiscMem]
  split_ifs with h0 hfence h1 hfenceI
  · obtain ⟨hrd, hrs1, -⟩ := hfence
    rw [h0, hrd, hrs1] at hencode
    exact fun _ => hencode
  · exact encodes_invalid _ _
  · obtain ⟨hrd, hrs1, himm⟩ := hfenceI
    rw [h1, hrd, hrs1, himm] at hencode
    exact fun _ => hencode
  · exact encodes_invalid _ _
  · exact encodes_invalid _ _

theorem encodes_csrReg {op : Op} {funct3 subOp : Nat} (hop : wordOpcode word = 0x73)
    (hfunct3 : wordFunct3 word = funct3) (hformat : opFormat op = .csrReg funct3) :
    Encodes word (decodeCsrReg word f op subOp) := by
  intro _
  have hencode := encodeI_word h (immI_mod word)
  rw [hop, hfunct3] at hencode
  rw [encodeFields, encode]
  simp only [decodeCsrReg, DecodeFields.withUnit, hformat]
  exact hencode

theorem encodes_csrImm {op : Op} {funct3 subOp : Nat} (hop : wordOpcode word = 0x73)
    (hfunct3 : wordFunct3 word = funct3) (hformat : opFormat op = .csrImm funct3) :
    Encodes word (decodeCsrImm word f op subOp) := by
  intro _
  have hencode := encodeI_word h (immI_mod word)
  have hzimm : field (wordRs1 word) 0 5 = wordRs1 word := by
    have hlt := field_lt word 15 5
    rw [wordRs1_eq]
    simp only [field] at *
    omega
  rw [hop, hfunct3, ← hzimm] at hencode
  rw [encodeFields, encode]
  simp only [decodeCsrImm, DecodeFields.withUnit, hformat]
  exact hencode

theorem encodes_system (hop : wordOpcode word = 0x73) : Encodes word (decodeSystem word f) := by
  have hencode := pack_word h
  rw [hop] at hencode
  rw [decodeSystem]
  split_ifs with h0 hregs hfunct7 hecall hebreak hfunct7' hmret h1 h2 h3 h5 h6 h7
  · rw [h0, hregs.1, hregs.2, hfunct7, hecall] at hencode
    exact fun _ => hencode
  · rw [h0, hregs.1, hregs.2, hfunct7, hebreak] at hencode
    exact fun _ => hencode
  · exact encodes_invalid _ _
  · rw [h0, hregs.1, hregs.2, hfunct7', hmret] at hencode
    exact fun _ => hencode
  iterate 3 exact encodes_invalid _ _
  · exact encodes_csrReg h f hop h1 rfl
  · exact encodes_csrReg h f hop h2 rfl
  · exact encodes_csrReg h f hop h3 rfl
  · exact encodes_csrImm h f hop h5 rfl
  · exact encodes_csrImm h f hop h6 rfl
  · exact encodes_csrImm h f hop h7 rfl
  · exact encodes_invalid _ _

/-- An accepted word is the encoding of what is decoded. -/
theorem encodes_decoded (e : Bool) (hjalr : wordOpcode word = 0x67 → wordFunct3 word = 0) :
    Encodes word (decodeFields word e) :=
  decodeByOpcode_cases (encodes_lui h _) (encodes_auipc h _) (encodes_jal h _)
    (fun hop => encodes_jalr h _ hop (hjalr hop)) (encodes_branch h _) (encodes_load h _)
    (encodes_store h _) (encodes_opImm h _) (encodes_op h _) (encodes_miscMem h e)
    (encodes_system h _) fun _ => encodes_invalid _ _

end Inverse

theorem encodes_word {word : BitVec 32} (hvalid : (rtlFields word).valid = true)
    (hjalr : ¬ReservedJalr word) : encodeFields (rtlFields word) = word.toNat := by
  refine encodes_decoded word.isLt false (fun hop => ?_) hvalid
  by_contra hfunct3
  rw [wordOpcode_eq] at hop
  rw [wordFunct3_eq] at hfunct3
  exact hjalr ⟨hop, hfunct3⟩

/-- The two decoders agree, and every accepted word other than a reserved `jalr` is the
encoding of what it decodes to. -/
theorem decode_inverse (word : BitVec 32) :
    SameOperation (rtlFields word) (cppFields word) ∧
      ((rtlFields word).valid = true → SameArgSources (rtlFields word) (cppFields word)) ∧
      ((rtlFields word).valid = true → ¬ReservedJalr word →
        encodeFields (rtlFields word) = word.toNat ∧
        ∀ other : BitVec 32, (rtlFields other).valid = true → ¬ReservedJalr other →
          SameInstruction (rtlFields word) (rtlFields other) → word = other) := by
  have hagree := decoders_agree word.toNat false
  refine ⟨hagree.1, hagree.2, fun hvalid hjalr => ⟨encodes_word hvalid hjalr, ?_⟩⟩
  intro other hvalid' hjalr' hsame
  have hword := encodes_word hvalid hjalr
  rw [encodeFields, hsame.op, hsame.rd, hsame.rs1, hsame.rs2, hsame.imm, hsame.csr] at hword
  exact BitVec.eq_of_toNat_eq (hword.symm.trans (encodes_word hvalid' hjalr'))

/-- The reserved `jalr` reads as the one with `funct3 = 0`; the C++ model keeps a register
source in the rejected word zero. -/
theorem decode_inverse_fails : ¬FaithfulDecode 0x00001067#32 ∧ ¬FaithfulDecode 0#32 := by
  constructor
  · intro h
    have hvalid : (rtlFields 0x00001067#32).valid = true := by decide
    exact absurd (h.inverse hvalid) (by decide)
  · intro h
    exact absurd h.sources.arg1Src (by decide)

end DreamCore.Proofs
