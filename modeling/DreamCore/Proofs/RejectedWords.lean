import DreamCore.Rtl.Execute

/-!
# Words the decoder rejects

A rejected word keeps the default operation, and its major opcode alone decides the
unit it is sent to and whether it still names a destination register.
-/

namespace DreamCore.Proofs

open DreamCore.Rtl

/-- Fetched without an exception, and rejected. -/
def Rejected (op : DecodeRenamePack) : Prop := op.valid = false ∧ op.hasException = false

instance (op : DecodeRenamePack) : Decidable (Rejected op) := inferInstanceAs (Decidable (_ ∧ _))

/-- No BRANCH, LOAD or STORE word, and no OP-IMM or OP word with a destination. -/
def TrapsByOpcode (word : Nat) : Prop :=
  wordOpcode word ≠ 0x63 ∧ wordOpcode word ≠ 0x03 ∧ wordOpcode word ≠ 0x23 ∧
    (wordOpcode word = 0x13 ∨ wordOpcode word = 0x33 → wordRd word = 0)

instance (word : Nat) : Decidable (TrapsByOpcode word) := inferInstanceAs (Decidable (_ ∧ _))

section Opcode

variable {opData : Nat} {f : DecodeFields}

/-! ## One opcode after the other -/

theorem decodeBranch_rejected (hf : f.valid = true) (h : (decodeBranch opData f).valid = false) :
    (decodeBranch opData f).op = f.op := by
  unfold decodeBranch at h ⊢
  dsimp only at h ⊢
  split_ifs at h ⊢ <;> first | rfl | simp [DecodeFields.withOp, hf] at h

theorem decodeBranch_unit : (decodeBranch opData f).opUnit = .bru := by
  simp only [decodeBranch, apply_ite DecodeFields.opUnit, DecodeFields.withOp,
    DecodeFields.invalid, ite_self]

theorem decodeLoad_rejected (hf : f.valid = true) (h : (decodeLoad opData f).valid = false) :
    (decodeLoad opData f).op = f.op := by
  unfold decodeLoad at h ⊢
  dsimp only at h ⊢
  split_ifs at h ⊢ <;> first | rfl | simp [DecodeFields.withOp, hf] at h

theorem decodeLoad_unit : (decodeLoad opData f).opUnit = .lsu := by
  simp only [decodeLoad, apply_ite DecodeFields.opUnit, DecodeFields.withOp,
    DecodeFields.invalid, ite_self]

theorem decodeStore_rejected (hf : f.valid = true) (h : (decodeStore opData f).valid = false) :
    (decodeStore opData f).op = f.op := by
  unfold decodeStore at h ⊢
  dsimp only at h ⊢
  split_ifs at h ⊢ <;> first | rfl | simp [DecodeFields.withOp, hf] at h

theorem decodeStore_unit : (decodeStore opData f).opUnit = .lsu := by
  simp only [decodeStore, apply_ite DecodeFields.opUnit, DecodeFields.withOp,
    DecodeFields.invalid, ite_self]

theorem decodeOpImm_rejected (hf : f.valid = true) (h : (decodeOpImm opData f).valid = false) :
    (decodeOpImm opData f).op = f.op := by
  unfold decodeOpImm at h ⊢
  dsimp only at h ⊢
  split_ifs at h ⊢ <;> first | rfl | simp [DecodeFields.withOp, hf] at h

theorem decodeOpImm_unit :
    (decodeOpImm opData f).opUnit = .alu ∧ (decodeOpImm opData f).rdEnable = true := by
  simp only [decodeOpImm, apply_ite DecodeFields.opUnit, apply_ite DecodeFields.rdEnable,
    DecodeFields.withOp, DecodeFields.invalid, ite_self, and_self]

theorem decodeByFunct7_cases {P : DecodeFields → Prop} {g base alternate extension : DecodeFields}
    (hbase : P base) (halternate : P alternate) (hextension : P extension)
    (hinvalid : P g.invalid) : P (decodeByFunct7 opData g base alternate extension) := by
  unfold decodeByFunct7
  repeat' split
  · exact hbase
  · exact halternate
  · exact hextension
  · exact hinvalid

/-- Only an accepted word is sent to the multiplier or the divider. -/
theorem decodeOp_rejected (hf : f.valid = true) :
    (decodeOp opData f).valid = false →
      (decodeOp opData f).opUnit = .alu ∧ (decodeOp opData f).op = f.op := by
  unfold decodeOp
  dsimp only
  split_ifs <;>
  · refine decodeByFunct7_cases (P := fun g => g.valid = false → g.opUnit = .alu ∧ g.op = f.op)
      ?_ ?_ ?_ ?_ <;>
    simp [DecodeFields.withOp, DecodeFields.withUnit, DecodeFields.invalid, hf]

theorem decodeOp_rdEnable : (decodeOp opData f).rdEnable = true := by
  unfold decodeOp
  dsimp only
  split_ifs <;>
  · refine decodeByFunct7_cases (P := fun g => g.rdEnable = true) ?_ ?_ ?_ ?_ <;>
    rfl

theorem decodeMiscMem_rejected (hf : f.valid = true) (h : (decodeMiscMem opData f).valid = false) :
    decodeMiscMem opData f = f.invalid := by
  unfold decodeMiscMem at h ⊢
  split_ifs at h ⊢ <;> first | rfl | simp [DecodeFields.withUnit, hf] at h

theorem decodeSystem_rejected (hf : f.valid = true) (h : (decodeSystem opData f).valid = false) :
    decodeSystem opData f = f.invalid := by
  unfold decodeSystem decodeCsrReg decodeCsrImm at h ⊢
  split_ifs at h ⊢ <;> first | rfl | simp [DecodeFields.withUnit, hf] at h

/-! ## Every word -/

/-- Sent to the arithmetic unit without a destination register. -/
def Harmless (g : DecodeFields) : Prop := g.opUnit = .alu ∧ (g.rdEnable = true → g.rd = 0)

/-- Accepted, or the operation is the default one and the opcode decides the rest. -/
def RejectedByOpcode (opData : Nat) (f g : DecodeFields) : Prop :=
  g.valid = false → g.op = f.op ∧ (Harmless g ↔ TrapsByOpcode opData)

theorem rejectedByOpcode_accepted {g : DecodeFields} (hg : g.valid = true) :
    RejectedByOpcode opData f g :=
  fun h => absurd (h.symm.trans hg) Bool.false_ne_true

/-- An opcode whose rejected words go to another unit. -/
theorem rejectedByOpcode_unit {g : DecodeFields} (hop : g.valid = false → g.op = f.op)
    (hunit : g.opUnit ≠ .alu) (hopcode : ¬TrapsByOpcode opData) : RejectedByOpcode opData f g :=
  fun h => ⟨hop h, iff_of_false (fun hok => hunit hok.1) hopcode⟩

theorem decodeByOpcode_rejected (hf : f.valid = true) (halu : f.opUnit = .alu)
    (hrd : f.rdEnable = false) : RejectedByOpcode opData f (decodeByOpcode opData f) := by
  have hharmless : Harmless f.invalid :=
    ⟨halu, fun henable => absurd (hrd.symm.trans henable) Bool.false_ne_true⟩
  have hinvalid : TrapsByOpcode opData → RejectedByOpcode opData f f.invalid :=
    fun hopcode _ => ⟨rfl, iff_of_true hharmless hopcode⟩
  refine decodeByOpcode_cases (P := RejectedByOpcode opData f)
    (fun _ => rejectedByOpcode_accepted hf) (fun _ => rejectedByOpcode_accepted hf)
    (fun _ => rejectedByOpcode_accepted hf) (fun _ => rejectedByOpcode_accepted hf)
    (fun hopcode => ?_) (fun hopcode => ?_) (fun hopcode => ?_) (fun hopcode h => ?_)
    (fun hopcode h => ?_) (fun hopcode h => ?_) (fun hopcode h => ?_) fun hopcode => hinvalid ?_
  · exact rejectedByOpcode_unit (decodeBranch_rejected hf) (by simp [decodeBranch_unit])
      fun htraps => htraps.1 hopcode
  · exact rejectedByOpcode_unit (decodeLoad_rejected hf) (by simp [decodeLoad_unit])
      fun htraps => htraps.2.1 hopcode
  · exact rejectedByOpcode_unit (decodeStore_rejected hf) (by simp [decodeStore_unit])
      fun htraps => htraps.2.2.1 hopcode
  · refine ⟨decodeOpImm_rejected hf h, ?_⟩
    simp [Harmless, TrapsByOpcode, decodeOpImm_unit, decodeOpImm_rd, hopcode]
  · obtain ⟨hunit, hsame⟩ := decodeOp_rejected hf h
    refine ⟨hsame, ?_⟩
    simp [Harmless, TrapsByOpcode, hunit, decodeOp_rdEnable, decodeOp_rd, hopcode]
  · rw [decodeMiscMem_rejected hf h]
    exact hinvalid (by simp [TrapsByOpcode, hopcode]) rfl
  · rw [decodeSystem_rejected hf h]
    exact hinvalid (by simp [TrapsByOpcode, hopcode]) rfl
  · simp only [knownOpcodes, List.mem_cons, List.not_mem_nil, or_false, not_or] at hopcode
    simp [TrapsByOpcode, hopcode]

/-- What decides whether a rejected word is an ordinary one for the rest of the core. -/
theorem decode_rejected {op : DecodeRenamePack} (hdecoded : op = decode op.toFetchDecodePack)
    (h : Rejected op) :
    op.op = .add ∧
      ((op.opUnit = .alu ∧ op.needRename = false) ↔ TrapsByOpcode op.value) := by
  obtain ⟨hvalid, hexc⟩ := h
  generalize hp : op.toFetchDecodePack = p at hdecoded
  subst hdecoded
  have hnone : p.hasException = false := hexc
  have hword : (decodeByOpcode p.value (decodeDefault p.hasException)).valid = false := hvalid
  obtain ⟨hop, hiff⟩ := decodeByOpcode_rejected (by simp [decodeDefault, hnone])
    rfl rfl hword
  refine ⟨hop, Iff.trans (and_congr_right fun _ => ?_) hiff⟩
  show (_ && decide (_ ≠ 0)) = false ↔ _
  rw [Bool.and_eq_false_imp]
  exact imp_congr_right fun _ => by rw [decide_eq_false_iff_not, not_not]; rfl

end Opcode

end DreamCore.Proofs
