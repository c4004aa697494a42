import Mathlib.Data.Nat.Bitwise

/-!
# The 32-bit instruction formats of RISC-V

A word is its six fields put side by side; the formats differ in which fields hold the
immediate and in what order.  An immediate is given as a number of any size, of which a
format keeps the bits it has room for.
-/

namespace DreamCore.InstructionFormats

/-- The bits `lo` to `lo + width - 1` of a number. -/
def field (word lo width : Nat) : Nat := word / 2 ^ lo % 2 ^ width

def pack (opcode rd funct3 rs1 rs2 funct7 : Nat) : Nat :=
  opcode + rd * 2 ^ 7 + funct3 * 2 ^ 12 + rs1 * 2 ^ 15 + rs2 * 2 ^ 20 + funct7 * 2 ^ 25

def encodeI (opcode rd funct3 rs1 imm : Nat) : Nat :=
  pack opcode rd funct3 rs1 (field imm 0 5) (field imm 5 7)

def encodeS (opcode funct3 rs1 rs2 imm : Nat) : Nat :=
  pack opcode (field imm 0 5) funct3 rs1 rs2 (field imm 5 7)

def encodeB (opcode funct3 rs1 rs2 imm : Nat) : Nat :=
  pack opcode (field imm 11 1 + field imm 1 4 * 2) funct3 rs1 rs2
    (field imm 5 6 + field imm 12 1 * 2 ^ 6)

def encodeU (opcode rd imm : Nat) : Nat :=
  pack opcode rd (field imm 12 3) (field imm 15 5) (field imm 20 5) (field imm 25 7)

def encodeJ (opcode rd imm : Nat) : Nat :=
  pack opcode rd (field imm 12 3) (field imm 15 5) (field imm 11 1 + field imm 1 4 * 2)
    (field imm 5 6 + field imm 20 1 * 2 ^ 6)

/-! ## Fields -/

theorem field_lt (word lo width : Nat) : field word lo width < 2 ^ width :=
  Nat.mod_lt _ (Nat.two_pow_pos width)

/-- Two neighbouring fields make one. -/
theorem field_append (word lo a b : Nat) :
    field word lo (a + b) = field word lo a + field word (lo + a) b * 2 ^ a := by
  rw [field, field, field, Nat.pow_add, Nat.mod_mul, Nat.div_div_eq_div_mul, ← Nat.pow_add,
    Nat.mul_comm (2 ^ a)]

/-- Only the bits of the field count. -/
theorem field_mod {n lo width : Nat} (h : lo + width ≤ n) (a : Nat) :
    field (a % 2 ^ n) lo width = field a lo width := by
  have hsplit : 2 ^ n = 2 ^ lo * 2 ^ (n - lo) := by
    rw [← Nat.pow_add]
    congr 1
    omega
  rw [field, field, hsplit, Nat.mod_mul_right_div_self,
    Nat.mod_mod_of_dvd _ (Nat.pow_dvd_pow 2 (by omega))]

/-! ## Reading the fields back -/

section Word

variable {word imm : Nat}

theorem pack_fields (h : word < 2 ^ 32) :
    pack (field word 0 7) (field word 7 5) (field word 12 3) (field word 15 5)
      (field word 20 5) (field word 25 7) = word := by
  simp only [pack, field]
  omega

theorem encodeI_fields (h : word < 2 ^ 32) (himm : imm % 2 ^ 12 = field word 20 12) :
    encodeI (field word 0 7) (field word 7 5) (field word 12 3) (field word 15 5) imm = word := by
  have hlow : field imm 0 5 = field word 20 5 := by
    simp only [field] at *
    omega
  have hhigh : field imm 5 7 = field word 25 7 := by
    simp only [field] at *
    omega
  rw [encodeI, hlow, hhigh, pack_fields h]

theorem encodeS_fields (h : word < 2 ^ 32)
    (himm : imm % 2 ^ 12 = field word 25 7 * 2 ^ 5 + field word 7 5) :
    encodeS (field word 0 7) (field word 12 3) (field word 15 5) (field word 20 5) imm = word := by
  have hlow : field imm 0 5 = field word 7 5 := by
    simp only [field] at *
    omega
  have hhigh : field imm 5 7 = field word 25 7 := by
    simp only [field] at *
    omega
  rw [encodeS, hlow, hhigh, pack_fields h]

/-- The parts of a branch offset. -/
theorem offsetB_parts {sign bit11 high low : Nat} (hbit11 : bit11 < 2 ^ 1)
    (hhigh : high < 2 ^ 6) (hlow : low < 2 ^ 4)
    (himm : imm % 2 ^ 13 = sign * 2 ^ 12 + bit11 * 2 ^ 11 + high * 2 ^ 5 + low * 2) :
    field imm 11 1 = bit11 ∧ field imm 1 4 = low ∧ field imm 5 6 = high ∧ field imm 12 1 = sign := by
  rw [← field_mod (by decide : 11 + 1 ≤ 13) imm, ← field_mod (by decide : 1 + 4 ≤ 13) imm,
    ← field_mod (by decide : 5 + 6 ≤ 13) imm, ← field_mod (by decide : 12 + 1 ≤ 13) imm, himm]
  simp only [field]
  omega

theorem encodeB_fields (h : word < 2 ^ 32)
    (himm : imm % 2 ^ 13 = field word 31 1 * 2 ^ 12 + field word 7 1 * 2 ^ 11 +
      field word 25 6 * 2 ^ 5 + field word 8 4 * 2) :
    encodeB (field word 0 7) (field word 12 3) (field word 15 5) (field word 20 5) imm = word := by
  obtain ⟨hbit11, hlow, hhigh, hsign⟩ := offsetB_parts (field_lt _ _ _) (field_lt _ _ _)
    (field_lt _ _ _) himm
  have hrd : field word 7 5 = field word 7 1 + field word 8 4 * 2 := field_append word 7 1 4
  have hfunct7 : field word 25 7 = field word 25 6 + field word 31 1 * 2 ^ 6 :=
    field_append word 25 6 1
  rw [encodeB, hbit11, hlow, hhigh, hsign, ← hrd, ← hfunct7, pack_fields h]

theorem encodeU_fields (h : word < 2 ^ 32) (himm : imm / 2 ^ 12 = word / 2 ^ 12) :
    encodeU (field word 0 7) (field word 7 5) imm = word := by
  have hupper : ∀ lo width, field imm (12 + lo) width = field word (12 + lo) width := by
    intro lo width
    rw [field, field, Nat.pow_add, ← Nat.div_div_eq_div_mul, himm, Nat.div_div_eq_div_mul]
  have hfields := pack_fields h
  rwa [← hupper 0 3, ← hupper 3 5, ← hupper 8 5, ← hupper 13 7] at hfields

/-- The parts of a jump offset. -/
theorem offsetJ_parts {sign mid bit11 low : Nat} (hmid : mid < 2 ^ 8)
    (hbit11 : bit11 < 2 ^ 1) (hlow : low < 2 ^ 10)
    (himm : imm % 2 ^ 21 = sign * 2 ^ 20 + mid * 2 ^ 12 + bit11 * 2 ^ 11 + low * 2) :
    field imm 12 8 = mid ∧ field imm 11 1 = bit11 ∧ field imm 1 10 = low ∧
      field imm 20 1 = sign := by
  rw [← field_mod (by decide : 12 + 8 ≤ 21) imm, ← field_mod (by decide : 11 + 1 ≤ 21) imm,
    ← field_mod (by decide : 1 + 10 ≤ 21) imm, ← field_mod (by decide : 20 + 1 ≤ 21) imm, himm]
  simp only [field]
  omega

theorem encodeJ_fields (h : word < 2 ^ 32)
    (himm : imm % 2 ^ 21 = field word 31 1 * 2 ^ 20 + field word 12 8 * 2 ^ 12 +
      field word 20 1 * 2 ^ 11 + field word 21 10 * 2) :
    encodeJ (field word 0 7) (field word 7 5) imm = word := by
  obtain ⟨hmid, hbit11, hlow, hsign⟩ := offsetJ_parts (field_lt _ _ _) (field_lt _ _ _)
    (field_lt _ _ _) himm
  have hmidImm : field imm 12 8 = field imm 12 3 + field imm 15 5 * 2 ^ 3 :=
    field_append imm 12 3 5
  have hmidWord : field word 12 8 = field word 12 3 + field word 15 5 * 2 ^ 3 :=
    field_append word 12 3 5
  have hlowImm : field imm 1 10 = field imm 1 4 + field imm 5 6 * 2 ^ 4 := field_append imm 1 4 6
  have hlowWord : field word 21 10 = field word 21 4 + field word 25 6 * 2 ^ 4 :=
    field_append word 21 4 6
  have hrs2 : field word 20 5 = field word 20 1 + field word 21 4 * 2 := field_append word 20 1 4
  have hfunct7 : field word 25 7 = field word 25 6 + field word 31 1 * 2 ^ 6 :=
    field_append word 25 6 1
  have hbounds := And.intro (field_lt imm 12 3) (field_lt word 12 3)
  have hbounds' := And.intro (field_lt imm 1 4) (field_lt word 21 4)
  have hequal : field imm 12 3 = field word 12 3 ∧ field imm 15 5 = field word 15 5 ∧
      field imm 1 4 = field word 21 4 ∧ field imm 5 6 = field word 25 6 := by omega
  rw [encodeJ, hbit11, hsign, hequal.1, hequal.2.1, hequal.2.2.1, hequal.2.2.2, ← hrs2, ← hfunct7,
    pack_fields h]

end Word

end DreamCore.InstructionFormats
