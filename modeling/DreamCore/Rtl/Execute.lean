import DreamCore.Rtl.ExecuteLsu

/-!
# Arithmetic and branch units (`execute_alu.sv`, `execute_bru.sv`)

Both are combinational: they take the pack at the head of their FIFO and complete it.
The arithmetic unit turns an operation the decoder rejected into an exception; the
branch unit passes on the exception the pack came with and nothing else.
-/

namespace DreamCore.Rtl

/-! ## Exceptions -/

/-! The numbers of `riscv_exception_t` that the units raise. -/

namespace RiscvException
abbrev instructionAddressMisaligned : Nat := 0
abbrev illegalInstruction : Nat := 2
abbrev breakpoint : Nat := 3
abbrev environmentCallFromMMode : Nat := 11
end RiscvException

/-! ## Arithmetic unit -/

section Alu

variable (revPack : IssueExecutePack)

def aluSrc1 : BitVec 32 := BitVec.ofNat 32 revPack.src1Value

def aluSrc2 : BitVec 32 := BitVec.ofNat 32 revPack.src2Value

/-- A shift uses the lower five bits of the second source. -/
def aluShift : Nat := revPack.src2Value % 2 ^ 5

def aluRdValue : Nat :=
  let src1 := aluSrc1 revPack
  let src2 := aluSrc2 revPack
  if revPack.subOp = AluOp.add then (src1 + src2).toNat
  else if revPack.subOp = AluOp.and then (src1 &&& src2).toNat
  else if revPack.subOp = AluOp.auipc then (revPack.imm + revPack.pc) % 2 ^ 32
  else if revPack.subOp = AluOp.lui then revPack.imm
  else if revPack.subOp = AluOp.or then (src1 ||| src2).toNat
  else if revPack.subOp = AluOp.sll then (src1 <<< aluShift revPack).toNat
  else if revPack.subOp = AluOp.slt then (if src1.slt src2 then 1 else 0)
  else if revPack.subOp = AluOp.sltu then (if src1.ult src2 then 1 else 0)
  else if revPack.subOp = AluOp.sra then (src1.sshiftRight (aluShift revPack)).toNat
  else if revPack.subOp = AluOp.srl then (src1 >>> aluShift revPack).toNat
  else if revPack.subOp = AluOp.sub then (src1 - src2).toNat
  else if revPack.subOp = AluOp.xor then (src1 ^^^ src2).toNat
  else 0

def aluNewHasException : Bool :=
  decide (revPack.subOp = AluOp.ebreak) || decide (revPack.subOp = AluOp.ecall)

def aluNewExceptionId : Nat :=
  if revPack.subOp = AluOp.ebreak then RiscvException.breakpoint
  else if revPack.subOp = AluOp.ecall then RiscvException.environmentCallFromMMode
  else RiscvException.instructionAddressMisaligned

/-- `send_pack` of `execute_alu`. -/
def executeAlu : ExecuteWbPack :=
  { revPack.toReadregIssueOpInfo with
    hasException := revPack.hasException || !revPack.valid || aluNewHasException revPack
    exceptionId :=
      if revPack.hasException then revPack.exceptionId
      else if !revPack.valid then RiscvException.illegalInstruction
      else aluNewExceptionId revPack
    exceptionValue := if revPack.hasException then revPack.exceptionValue else 0
    bruJump := false
    bruNextPc := 0
    rdValue := aluRdValue revPack
    csrNewvalue := 0
    csrNewvalueValid := false }

end Alu

/-! ## Branch unit -/

section Bru

variable (csrfAllMepcData : Nat) (revPack : IssueExecutePack)

def bruJump : Bool :=
  let src1 := aluSrc1 revPack
  let src2 := aluSrc2 revPack
  if revPack.subOp = BruOp.beq then decide (revPack.src1Value = revPack.src2Value)
  else if revPack.subOp = BruOp.bge then src2.sle src1
  else if revPack.subOp = BruOp.bgeu then src2.ule src1
  else if revPack.subOp = BruOp.blt then src1.slt src2
  else if revPack.subOp = BruOp.bltu then src1.ult src2
  else if revPack.subOp = BruOp.bne then decide (revPack.src1Value ≠ revPack.src2Value)
  else decide (revPack.subOp = BruOp.jal) || decide (revPack.subOp = BruOp.jalr) ||
    decide (revPack.subOp = BruOp.mret)

def bruNextPc : Nat :=
  if bruJump revPack then
    if revPack.subOp = BruOp.jalr then
      (revPack.imm + revPack.src1Value) % 2 ^ 32 / 2 * 2
    else if revPack.subOp = BruOp.mret then csrfAllMepcData
    else (revPack.pc + revPack.imm) % 2 ^ 32
  else (revPack.pc + 4) % 2 ^ 32

def bruRdValue : Nat :=
  if revPack.subOp = BruOp.jal ∨ revPack.subOp = BruOp.jalr then (revPack.pc + 4) % 2 ^ 32
  else 0

/-- `send_pack` of `execute_bru`. -/
def executeBru : ExecuteWbPack :=
  { revPack.toReadregIssueOpInfo with
    bruJump := bruJump revPack
    bruNextPc := bruNextPc csrfAllMepcData revPack
    rdValue := bruRdValue revPack
    csrNewvalue := 0
    csrNewvalueValid := false }

end Bru

section BruPorts

variable (issueBruFifoDataOutValid : Bool) (fb : CommitFeedbackPack)
  (revPack : IssueExecutePack) (sendPack : ExecuteWbPack)

def bruWbPortFlush : Bool := !issueBruFifoDataOutValid || fb.flushing

def bruWbPortWe : Bool := !bruWbPortFlush issueBruFifoDataOutValid fb

def exbruBpHit : Bool := decide (sendPack.predictedJump = sendPack.bruJump)

/-- The predictor hears of accepted operations that own a checkpoint. -/
def exbruBpValid : Bool :=
  bruWbPortWe issueBruFifoDataOutValid fb && revPack.enable && revPack.valid &&
    revPack.checkpointIdValid

end BruPorts

/-! ## Rejected operations -/

/-- The arithmetic unit traps on every operation the decoder rejected. -/
theorem executeAlu_rejected {revPack : IssueExecutePack} (hvalid : revPack.valid = false)
    (hexc : revPack.hasException = false) :
    (executeAlu revPack).hasException = true ∧
      (executeAlu revPack).exceptionId = RiscvException.illegalInstruction ∧
      (executeAlu revPack).exceptionValue = 0 := by
  simp [executeAlu, hvalid, hexc]

/-- The branch unit adds no exception. -/
theorem executeBru_hasException (csrfAllMepcData : Nat) (revPack : IssueExecutePack) :
    (executeBru csrfAllMepcData revPack).hasException = revPack.hasException := rfl

/-- No store is pushed for an operation the decoder rejected. -/
theorem exlsuStbufPush_rejected {x : ExecuteLsuInput} (hvalid : x.revPack.valid = false) :
    x.exlsuStbufPush = false := by
  simp [ExecuteLsuInput.exlsuStbufPush, ExecuteLsuInput.instValid, hvalid]

/-- Issue leaves an operation the decoder rejected as it is. -/
theorem issueDataConverted_rejected {item : ReadregIssueOpInfo} (hvalid : item.valid = false) :
    (issueDataConverted item).toReadregIssueOpInfo = item := by
  have hlsu : issueIsLsu item = false := by simp [issueIsLsu, hvalid]
  simp [issueDataConverted, hlsu]

end DreamCore.Rtl
