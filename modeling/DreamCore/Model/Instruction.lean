import DreamCore.Cpp.Execute
import DreamCore.Cpp.IssueInput
import DreamCore.Lib.Rv32i

/-!
# One instruction in the pipeline

What decode, register read, issue and the execution units make of an instruction word,
to be compared with what the instruction set asks for.
-/

namespace DreamCore.Model

open DreamCore.Rtl DreamCore.Rv32i

/-! ## Operands -/

/-- What rename adds to a decoded pack, and what register read looks at. -/
structure SlotInputs where
  robId : Nat
  rs1Phy : Nat
  rs2Phy : Nat
  rdPhy : Nat
  phyf : PhyRegfileState
  executeFeedbackPack : Nat → FeedbackChannel
  wbFeedbackPack : Nat → FeedbackChannel

def SlotInputs.renamed (s : SlotInputs) (d : DecodeRenamePack) : RenameReadregOpInfo :=
  { toDecodeRenamePack := d, robId := s.robId, rs1Phy := s.rs1Phy, rs2Phy := s.rs2Phy
    rdPhy := s.rdPhy }

def SlotInputs.brings (s : SlotInputs) (phyId k : Nat) : Bool :=
  feedbackDataCmp s.executeFeedbackPack s.wbFeedbackPack phyId k

/-- A physical register holds `value`, or the feedback channels that bring it do. -/
structure Finds (s : SlotInputs) (phyId value : Nat) : Prop where
  stored : s.phyf.dataValid phyId = true → s.phyf.data phyId = value
  brought : s.phyf.dataValid phyId = false →
    ∃ k, k < executeUnitNum * 2 ∧ s.brings phyId k = true
  same : s.phyf.dataValid phyId = false → ∀ k, k < executeUnitNum * 2 →
    s.brings phyId k = true →
      (feedbackChannel s.executeFeedbackPack s.wbFeedbackPack k).value = value

/-- The physical registers of the mapped sources hold `x`. -/
structure SourcesHold (s : SlotInputs) (x : BitVec 5 → BitVec 32) (d : DecodeRenamePack) :
    Prop where
  rs1 : d.rs1NeedMap = true → Finds s s.rs1Phy (x (BitVec.ofNat 5 d.rs1)).toNat
  rs2 : d.rs2NeedMap = true → Finds s s.rs2Phy (x (BitVec.ofNat 5 d.rs2)).toNat

/-- A source as register read provides it, from the registers `x`. -/
def sourceValue (needMap : Bool) (argSrc : ArgSrc) (imm rs : Nat) (x : BitVec 5 → BitVec 32) : Nat :=
  if needMap then (x (BitVec.ofNat 5 rs)).toNat else if argSrc = .imm then imm else 0

/-- The decoded pack with both sources read. -/
structure OperandsRead (p : FetchDecodePack) (x : BitVec 5 → BitVec 32) (op : ReadregIssueOpInfo) :
    Prop where
  decoded : op.toDecodeRenamePack = decode p
  src1 : op.src1Value = sourceValue op.rs1NeedMap op.arg1Src op.imm op.rs1 x
  src2 : op.src2Value = sourceValue op.rs2NeedMap op.arg2Src op.imm op.rs2 x

/-! ## The units -/

/-- Decode, register read, issue and the units, with what the load/store unit makes of the
bytes of a load and of the operand of a store. -/
structure Units where
  decode : FetchDecodePack → DecodeRenamePack
  readreg : PhyRegfileState → (Nat → FeedbackChannel) → (Nat → FeedbackChannel) →
    RenameReadregOpInfo → ReadregIssueOpInfo
  issue : ReadregIssueOpInfo → IssueExecutePack
  alu : IssueExecutePack → ExecuteWbPack
  bru : IssueExecutePack → ExecuteWbPack
  load : IssueExecutePack → Nat → ExecuteWbPack
  store : IssueExecutePack → Nat × Nat

def loadInput (revPack : IssueExecutePack) (data : Nat) : ExecuteLsuInput where
  stbufExlsuBusDataFeedback := BitVec.ofNat 128 data
  stbufExlsuBusReady := true
  stbufExlsuFull := false
  issueLsuFifoDataOut := revPack
  issueLsuFifoDataOutValid := true
  commitFeedbackPack :=
    { enable := false, nextHandleRobIdValid := false, nextHandleRobId := 0, hasException := false
      exceptionPc := 0, flush := false, committedRobId := fun _ => 0
      committedRobIdValid := fun _ => false, jumpEnable := false, jump := false, nextPc := 0 }

def rtlUnits (csrfAllMepcData : Nat) : Units where
  decode := Rtl.decode
  readreg := readregSendPack
  issue := issueDataConverted
  alu := executeAlu
  bru := executeBru csrfAllMepcData
  load := fun revPack data => (loadInput revPack data).sendPack
  store := fun revPack =>
    ((loadInput revPack 0).exlsuStbufWriteSize, (loadInput revPack 0).exlsuStbufWriteData)

def cppUnits (mepc : Nat) : Units where
  decode := Cpp.decode
  readreg := Cpp.readregSend
  issue := Cpp.issueSendPack
  alu := Cpp.executeAlu
  bru := fun revPack => Cpp.executeBru revPack mepc
  load := fun revPack data => { Cpp.sendPackOf revPack with rdValue := Cpp.lsuRdValue revPack data }
  store := Cpp.lsuStore

/-! ## What a unit does -/

/-- The result goes to `rd`, which is renamed unless it is `x0`. -/
structure WritesRd (w : ExecuteWbPack) (reg : BitVec 5) (value : BitVec 32) : Prop where
  hasException : w.hasException = false
  rdEnable : w.rdEnable = true
  rd : w.rd = reg.toNat
  needRename : w.needRename = decide (reg ≠ 0)
  rdValue : w.rdValue = value.toNat

/-- Nothing goes to a register. -/
structure WritesNone (w : ExecuteWbPack) : Prop where
  hasException : w.hasException = false
  rdEnable : w.rdEnable = false
  needRename : w.needRename = false

/-- The pack of a load or store: a misaligned access is an exception with the address. -/
structure Accesses (pack : IssueExecutePack) (bytes misaligned : Nat) (addr : BitVec 32) : Prop where
  opUnit : pack.opUnit = .lsu
  lsuAddr : pack.lsuAddr = addr.toNat
  hasException : pack.hasException = decide (addr.toNat % bytes ≠ 0)
  exceptionId : pack.hasException = true → pack.exceptionId = misaligned
  exceptionValue : pack.exceptionValue = addr.toNat

/-- The units carry the instruction out: the pack goes to the right one, which answers
what the instruction set asks for. -/
def Performs (u : Units) (mepc : Nat) (pack : IssueExecutePack) : Outcome → Prop
  | .write rd value => pack.opUnit = .alu ∧ WritesRd (u.alu pack) rd value
  | .jump rd link target => pack.opUnit = .bru ∧ WritesRd (u.bru pack) rd link ∧
      (u.bru pack).bruJump = true ∧ (u.bru pack).bruNextPc = target.toNat
  | .branch taken target => pack.opUnit = .bru ∧ WritesNone (u.bru pack) ∧
      (u.bru pack).bruJump = taken ∧
      (u.bru pack).bruNextPc = if taken then target.toNat else (pack.pc + 4) % 2 ^ 32
  | .load rd form addr => Accesses pack form.bytes 4 addr ∧ isLoad pack.subOp = true ∧
      accessSize pack.subOp = form.bytes ∧
      ∀ n, n < 2 ^ (8 * form.bytes) → pack.hasException = false →
        WritesRd (u.load pack n) rd (form.extend n)
  | .store bytes addr value => Accesses pack bytes 6 addr ∧ isLoad pack.subOp = false ∧
      pack.rdEnable = false ∧ u.store pack = (bytes, value.toNat % 2 ^ (8 * bytes))
  | .fence => pack.opUnit = .alu ∧ WritesNone (u.alu pack)
  | .trap cause => pack.opUnit = .alu ∧ (u.alu pack).hasException = true ∧
      (u.alu pack).exceptionId = cause ∧ (u.alu pack).exceptionValue = 0
  | .trapReturn => pack.opUnit = .bru ∧ WritesNone (u.bru pack) ∧ (u.bru pack).bruJump = true ∧
      (u.bru pack).bruNextPc = mepc
  | .misaligned target => pack.opUnit = .bru ∧ (u.bru pack).hasException = true ∧
      (u.bru pack).exceptionId = RiscvException.instructionAddressMisaligned ∧
      (u.bru pack).exceptionValue = target.toNat

/-- Decode accepts the pack, and what register read and issue make of it is carried out. -/
def CarriesOut (u : Units) (mepc : Nat) (s : SlotInputs) (p : FetchDecodePack) (o : Outcome) :
    Prop :=
  (u.decode p).valid = true ∧
    Performs u mepc (u.issue (u.readreg s.phyf s.executeFeedbackPack s.wbFeedbackPack
      (s.renamed (u.decode p)))) o

/-- A fence with one of the fields set that are reserved for finer fences. -/
def FenceFieldsSet (w : BitVec 32) : Prop :=
  opcode w = 0x0f ∧ funct3 w = 0 ∧ ¬(rd w = 0 ∧ rs1 w = 0 ∧ w.extractLsb' 28 4 = 0)

instance (w : BitVec 32) : Decidable (FenceFieldsSet w) :=
  inferInstanceAs (Decidable (_ ∧ _ ∧ ¬_))

/-- What decode makes of a word outside the base set: it is rejected, or belongs to an
extension, or is the jump whose `funct3` decode does not look at. -/
def OutsideBase (w : BitVec 32) (d : DecodeRenamePack) : Prop :=
  d.valid = false ∨ d.opUnit = .mul ∨ d.opUnit = .div ∨ d.opUnit = .csr ∨ d.op = .fenceI ∨
    d.op = .jalr ∧ funct3 w ≠ 0

end DreamCore.Model
