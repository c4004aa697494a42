import DreamCore.Model.Zicsr
import DreamCore.Proofs.Results
import DreamCore.Rtl.Rename

/-!
# CSR instructions on the hardware and on the model

Decode tells the forms apart by the kind of their source; the units decide from that
whether they write and whether they fault.  Comparing the decision with the definition
form by form gives the exact cases in which the two agree.
-/

namespace DreamCore.Proofs

open DreamCore.Model DreamCore.Rtl

/-! ## Decoding -/

/-- What the units read of a decoded CSR instruction. -/
structure CsrDecoded (form : CsrForm) (word : Nat) (op : DecodeRenamePack) : Prop where
  arg1Src : op.arg1Src = if form.isReg then .reg else .imm
  rs1NeedMap : op.rs1NeedMap = (form.isReg && decide (wordRs1 word ≠ 0))
  imm : form.isReg = false → op.imm = wordRs1 word
  csr : op.csr = immI word
  subOp : op.subOp = form.subOp
  opUnit : op.opUnit = .csr
  notMret : op.op ≠ .mret

theorem decode_csr {form : CsrForm} {p : FetchDecodePack} (hword : form.Encodes p.value) :
    CsrDecoded form p.value (decode p) := by
  obtain ⟨hopcode, hfunct3⟩ := hword
  have hfields : decodeFields p.value p.hasException =
      decodeSystem p.value (decodeDefault p.hasException) := by
    simp [decodeFields, decodeByOpcode, hopcode]
  cases form <;>
    constructor <;>
    simp [decode, hfields, decodeSystem, hfunct3, CsrForm.funct3, decodeCsrReg, decodeCsrImm,
      DecodeFields.withUnit, CsrForm.isReg, CsrForm.subOp]

/-! ## Retirement -/

/-- The one write commit makes for a finished CSR instruction. -/
theorem csrWrites_retired {item : RobItem} {w : ExecuteWbPack} (hmret : item.isMret = false)
    (hunit : w.opUnit = .csr) (mstatus id : Nat) :
    (retireInOrder mstatus 1 [(id, finishedItem item w)]).csrWrites =
      if w.csrNewvalueValid && !w.hasException then [(item.csrAddr, w.csrNewvalue)] else [] := by
  cases hexc : w.hasException <;>
    cases hvalid : w.csrNewvalueValid <;>
    simp [retireInOrder, finishedItem, retireOne, retiredCsrWrites, trapEffects,
      CommitEffects.none, hmret, hunit, hexc, hvalid]

/-! ## Execution -/

section Execute

variable {form : CsrForm} {word regData old : Nat} {revPack : IssueExecutePack} {item : RobItem}

/-- The source reaches the unit. -/
theorem readregSrc1Value_csr {op : DecodeRenamePack} (h : CsrDecoded form word op) :
    readregSrc1Value op regData = form.source (wordRs1 word) regData := by
  rw [readregSrc1Value, h.rs1NeedMap, h.arg1Src, CsrForm.source]
  cases hreg : form.isReg with
  | true => by_cases hzero : wordRs1 word = 0 <;> simp [hzero]
  | false => simp [h.imm hreg]

theorem csrNewvalue_eq (h : CsrDecoded form word revPack.toDecodeRenamePack) (old : Nat) :
    csrNewvalue old revPack = form.newValue old revPack.src1Value := by
  rw [csrNewvalue, h.subOp]
  cases form <;> simp [CsrForm.subOp, CsrForm.newValue, aluSrc1]

theorem cppNewValue_eq (h : CsrDecoded form word revPack.toDecodeRenamePack) (old : Nat) :
    Cpp.csrNewValue old revPack = form.newValue old revPack.src1Value := by
  rw [Cpp.csrNewValue, h.subOp]
  cases form <;> simp [CsrForm.subOp, CsrForm.newValue]

/-- The decision of the hardware is the definition's in the cases of `RtlFollows`. -/
theorem executeCsr_follows_iff (hasUartFifo : Bool)
    (h : CsrDecoded form word revPack.toDecodeRenamePack)
    (hsrc : revPack.src1Value = readregSrc1Value revPack.toDecodeRenamePack regData)
    (hmret : item.isMret = false) (haddr : item.csrAddr = immI word) (mstatus id : Nat) :
    form.Follows word regData old (csrAccessCheck hasUartFifo false (immI word))
        (csrAccessCheck hasUartFifo true (immI word)) (executeCsr hasUartFifo old revPack)
        (retireInOrder mstatus 1
          [(id, finishedItem item (executeCsr hasUartFifo old revPack))]).csrWrites ↔
      form.RtlFollows (wordRs1 word) (csrAccessCheck hasUartFifo false (immI word))
        (csrAccessCheck hasUartFifo true (immI word)) := by
  rw [readregSrc1Value_csr h] at hsrc
  rw [csrWrites_retired hmret (show (executeCsr hasUartFifo old revPack).opUnit = .csr from h.opUnit),
    CsrForm.follows_iff, haddr]
  simp only [executeCsr, csrNewvalue_eq h, hsrc, csrAddrReadValid, csrAddrWriteValid, h.csr,
    h.rs1NeedMap, h.arg1Src]
  generalize csrAccessCheck hasUartFifo false (immI word) = present
  generalize csrAccessCheck hasUartFifo true (immI word) = writable
  by_cases hzero : wordRs1 word = 0 <;> cases form <;> cases present <;> cases writable <;>
    simp [CsrForm.RtlFollows, CsrForm.illegal, CsrForm.writes, CsrForm.isReg, hzero]

/-- The decision of the C++ model is the definition's in the cases of `CppFollows`. -/
theorem cppExecuteCsr_follows_iff (h : CsrDecoded form word revPack.toDecodeRenamePack)
    (hexc : revPack.hasException = false)
    (hsrc : revPack.src1Value = readregSrc1Value revPack.toDecodeRenamePack regData)
    (hmret : item.isMret = false) (haddr : item.csrAddr = immI word) (mstatus id : Nat) :
    form.Follows word regData old (Cpp.csrMapped (immI word)) (Cpp.csrWriteCheck (immI word))
        (Cpp.executeCsr old revPack)
        (retireInOrder mstatus 1 [(id, finishedItem item (Cpp.executeCsr old revPack))]).csrWrites ↔
      form.CppFollows (wordRs1 word) (Cpp.csrMapped (immI word)) := by
  rw [readregSrc1Value_csr h] at hsrc
  have hunit : (Cpp.executeCsr old revPack).opUnit = .csr := by
    unfold Cpp.executeCsr
    dsimp only
    split_ifs <;> exact h.opUnit
  rw [csrWrites_retired hmret hunit, CsrForm.follows_iff, haddr]
  simp only [Cpp.executeCsr, cppNewValue_eq h, hsrc, h.csr, h.rs1NeedMap, h.arg1Src]
  generalize Cpp.csrMapped (immI word) = present
  generalize Cpp.csrWriteCheck (immI word) = writable
  by_cases hzero : wordRs1 word = 0 <;> cases form <;> cases present <;> cases writable <;>
    simp [CsrForm.CppFollows, CsrForm.illegal, CsrForm.writes, CsrForm.isReg, hzero, hexc]

end Execute

/-! ## From the instruction word to retirement -/

/-- The CSR unit gets the instruction as issue sends it. -/
structure CsrIssued (p : FetchDecodePack) (regData : Nat) (item : ReadregIssueOpInfo) : Prop where
  op : item.toDecodeRenamePack = decode p
  src1Value : item.src1Value = readregSrc1Value (decode p) regData

theorem issued_csr {form : CsrForm} {p : FetchDecodePack} {regData : Nat}
    {item : ReadregIssueOpInfo} (hexc : p.hasException = false) (hword : form.Encodes p.value)
    (h : CsrIssued p regData item) :
    CsrDecoded form p.value (issueDataConverted item).toDecodeRenamePack ∧
      (issueDataConverted item).hasException = false ∧
      (issueDataConverted item).src1Value =
        readregSrc1Value (issueDataConverted item).toDecodeRenamePack regData := by
  have hdecoded := @decode_csr form p hword
  have hunit : item.opUnit = .csr := (congrArg (·.opUnit) h.op).trans hdecoded.opUnit
  have hlsu : issueIsLsu item = false := by simp [issueIsLsu, hunit]
  have hsame : (issueDataConverted item).toReadregIssueOpInfo = item := by
    simp [issueDataConverted, hlsu]
  have hop : (issueDataConverted item).toDecodeRenamePack = decode p :=
    (congrArg (·.toDecodeRenamePack) hsame).trans h.op
  refine ⟨hop ▸ hdecoded, (congrArg (·.hasException) hop).trans hexc, ?_⟩
  rw [hop, ← h.src1Value]
  exact congrArg (·.src1Value) hsame

/-- A CSR instruction returns the old value, writes and faults as defined exactly in the
cases of `RtlFollows` on the hardware and of `CppFollows` on the C++ model. -/
theorem zicsr_iff {form : CsrForm} {p : FetchDecodePack} (hexc : p.hasException = false)
    (hword : form.Encodes p.value) {regData : Nat} {item : ReadregIssueOpInfo}
    (hissued : CsrIssued p regData item) {r : RenameInput} {i : Nat} (hrev : r.revPack i = decode p)
    (hasUartFifo : Bool) (s : CsrFile) (mstatus id : Nat) :
    let revPack := issueDataConverted item
    let addr := immI p.value
    let rtl := executeCsr hasUartFifo (csrfExcsrData s revPack.csr) revPack
    let cpp := Cpp.executeCsr (s revPack.csr) revPack
    let writesOf := fun w : ExecuteWbPack =>
      (retireInOrder mstatus 1 [(id, finishedItem (r.robItem i) w)]).csrWrites
    (form.Follows p.value regData (s addr) (csrAccessCheck hasUartFifo false addr)
        (csrAccessCheck hasUartFifo true addr) rtl (writesOf rtl) ↔
      form.RtlFollows (wordRs1 p.value) (csrAccessCheck hasUartFifo false addr)
        (csrAccessCheck hasUartFifo true addr)) ∧
    (form.Follows p.value regData (s addr) (Cpp.csrMapped addr) (Cpp.csrWriteCheck addr) cpp
        (writesOf cpp) ↔
      form.CppFollows (wordRs1 p.value) (Cpp.csrMapped addr)) := by
  intro revPack addr rtl cpp writesOf
  obtain ⟨hdecoded, hnone, hsrc⟩ := issued_csr hexc hword hissued
  have hrev' := @decode_csr form p hword
  have hmret : (r.robItem i).isMret = false :=
    decide_eq_false (hrev ▸ hrev'.notMret)
  have haddr : (r.robItem i).csrAddr = addr := (congrArg (·.csr) hrev).trans hrev'.csr
  have hread : s revPack.csr = s addr := congrArg s hdecoded.csr
  constructor
  · have hfollows := @executeCsr_follows_iff _ _ _ (s addr) _ _ hasUartFifo hdecoded hsrc hmret haddr
      mstatus id
    rw [← hread] at hfollows
    rw [← hread]
    exact hfollows
  · have hfollows := @cppExecuteCsr_follows_iff _ _ _ (s addr) _ _ hdecoded hnone hsrc hmret haddr
      mstatus id
    rw [← hread] at hfollows
    rw [← hread]
    exact hfollows

/-! ## The cases that go wrong -/

/-- A rename cycle that offers one decoded instruction. -/
def soleRename (op : DecodeRenamePack) : RenameInput where
  decodeRenameFifoDataOut := fun _ => op
  decodeRenameFifoDataOutValid := fun i => decide (i = 0)
  cpbufRenameData := fun _ => ⟨fun _ => false, fun _ => false, 0, 0⟩
  ratRenameNewPhyId := fun _ => 40
  ratRenameNewPhyIdValid := fun _ => true
  ratRenameMapTableValid := fun _ => false
  ratRenameMapTableVisible := fun _ => false
  ratRenameReadPhyId := fun arch => arch
  robRenameNewId := fun i => i
  robRenameNewIdValid := fun _ => true
  issueFeedbackStall := false
  commitFeedbackPack :=
    ⟨false, false, 0, false, 0, false, fun _ => 0, fun _ => false, false, false, 0⟩

def fetchedWord (value : Nat) : FetchDecodePack :=
  ⟨true, value, 2 ^ 31, false, 0, 0, false, false, 0, false, 0⟩

def issuedWord (value regData : Nat) : ReadregIssueOpInfo :=
  let op := decode (fetchedWord value)
  ⟨⟨op, 0, 1, 2, 40⟩, readregSrc1Value op regData, true, 0, true⟩

/-- `csrrs x5, mscratch, x6` sets bits and returns what was there. -/
theorem zicsr_csrrs :
    let w := executeCsr true 0x0f (issueDataConverted (issuedWord 0x340322f3 0xf0))
    CsrForm.csrrs.RtlFollows 6 true true ∧ w.hasException = false ∧ w.rdValue = 0x0f ∧
      (retireInOrder 0 1
        [(0, finishedItem ((soleRename (decode (fetchedWord 0x340322f3))).robItem 0) w)]).csrWrites =
        [(Csr.mscratch, 0xff)] := by
  have h := (@zicsr_iff .csrrs (fetchedWord 0x340322f3) rfl (by decide) 0xf0
    (issuedWord 0x340322f3 0xf0) ⟨rfl, rfl⟩ (soleRename (decode (fetchedWord 0x340322f3))) 0 rfl true
    (fun _ => 0x0f) 0 0).1.2 (by decide)
  have hexc := h.hasException
  exact ⟨by decide, hexc, h.rdValue hexc, h.csrWrites⟩

/-- `csrrw x5, mscratch, x0` does not clear the register, and `csrrsi x5, mvendorid, 1`
is not illegal on the hardware. -/
theorem csrrw_x0_not_written :
    ¬(∀ (form : CsrForm) (word regData old : Nat), form.Encodes word →
      let w := executeCsr true old (issueDataConverted (issuedWord word regData))
      form.Follows word regData old (csrAccessCheck true false (immI word))
        (csrAccessCheck true true (immI word)) w
        (retireInOrder 0 1
          [(0, finishedItem ((soleRename (decode (fetchedWord word))).robItem 0) w)]).csrWrites) ∧
    (executeCsr true 0 (issueDataConverted (issuedWord 0xf110e2f3 0))).hasException = false := by
  refine ⟨fun h => ?_, by decide⟩
  have hwrites := (h .csrrw 0x340012f3 0 7 (by decide)).csrWrites
  exact absurd hwrites (by decide)

end DreamCore.Proofs
