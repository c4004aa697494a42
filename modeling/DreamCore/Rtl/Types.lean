import DreamCore.Rtl.Basic

/-!
# Configuration and packed types

The constants of `config.svh` and the packed structures of `common.svh`.  Words
are natural numbers; a sub-operation and an exception number are kept as their
bits, because the hardware moves and merges them as bits.
-/

namespace DreamCore.Rtl

/-! ## Configuration -/

@[simp] abbrev fetchWidth : Nat := 4
@[simp] abbrev renameWidth : Nat := 4
@[simp] abbrev commitWidth : Nat := 4
@[simp] abbrev readregWidth : Nat := 4
@[simp] abbrev issueWidth : Nat := 2
@[simp] abbrev executeUnitNum : Nat := 8
@[simp] abbrev wbWidth : Nat := 8
@[simp] abbrev phyRegNum : Nat := 128
@[simp] abbrev archRegNum : Nat := 32
@[simp] abbrev robSize : Nat := 64
@[simp] abbrev issueQueueSize : Nat := 16
@[simp] abbrev checkpointBufferSize : Nat := 256
@[simp] abbrev storeBufferSize : Nat := 16

/-- `check_align` of `common.svh`. -/
def checkAlign (addr size : Nat) : Bool := decide (addr &&& (size - 1) = 0)

/-! ## Operations -/

inductive OpUnit where
  | alu | mul | div | lsu | bru | csr
  deriving DecidableEq

inductive ArgSrc where
  | reg | imm | disable
  deriving DecidableEq

inductive Op where
  | add | addi | and | andi | auipc
  | csrrc | csrrci | csrrs | csrrsi | csrrw | csrrwi
  | ebreak | ecall | fence | fenceI
  | lui | or | ori | sll | slli | slt | slti | sltiu | sltu
  | sra | srai | srl | srli | sub | xor | xori
  | beq | bge | bgeu | blt | bltu | bne | jal | jalr
  | div | divu | rem | remu
  | lb | lbu | lh | lhu | lw | sb | sh | sw
  | mul | mulh | mulhsu | mulhu
  | mret
  deriving DecidableEq

/-! ## Packs -/

structure FetchDecodePack where
  enable : Bool
  value : Nat
  pc : Nat
  hasException : Bool
  exceptionId : Nat
  exceptionValue : Nat
  predicted : Bool
  predictedJump : Bool
  predictedNextPc : Nat
  checkpointIdValid : Bool
  checkpointId : Nat
  deriving DecidableEq

structure DecodeRenamePack extends FetchDecodePack where
  valid : Bool
  imm : Nat
  rs1 : Nat
  arg1Src : ArgSrc
  rs1NeedMap : Bool
  rs2 : Nat
  arg2Src : ArgSrc
  rs2NeedMap : Bool
  rd : Nat
  rdEnable : Bool
  needRename : Bool
  csr : Nat
  op : Op
  opUnit : OpUnit
  subOp : Nat
  deriving DecidableEq

structure RenameReadregOpInfo extends DecodeRenamePack where
  robId : Nat
  rs1Phy : Nat
  rs2Phy : Nat
  rdPhy : Nat

structure ReadregIssueOpInfo extends RenameReadregOpInfo where
  src1Value : Nat
  src1Loaded : Bool
  src2Value : Nat
  src2Loaded : Bool

structure IssueExecutePack extends ReadregIssueOpInfo where
  lsuAddr : Nat

structure ExecuteWbPack extends ReadregIssueOpInfo where
  bruJump : Bool
  bruNextPc : Nat
  rdValue : Nat
  csrNewvalue : Nat
  csrNewvalueValid : Bool

structure CommitFeedbackPack where
  enable : Bool
  nextHandleRobIdValid : Bool
  nextHandleRobId : Nat
  hasException : Bool
  exceptionPc : Nat
  flush : Bool
  committedRobId : Nat → Nat
  committedRobIdValid : Nat → Bool
  jumpEnable : Bool
  jump : Bool
  nextPc : Nat

/-- A channel of `execute_feedback_pack` or `wb_feedback_pack`. -/
structure FeedbackChannel where
  enable : Bool
  phyId : Nat
  value : Nat

structure Checkpoint where
  ratPhyMapTableValid : Nat → Bool
  ratPhyMapTableVisible : Nat → Bool
  globalHistory : Nat
  localHistory : Nat

/-! ## Reorder-buffer entries -/

structure RobItem where
  newPhyRegId : Nat
  oldPhyRegId : Nat
  oldPhyRegIdValid : Bool
  finish : Bool
  pc : Nat
  instValue : Nat
  hasException : Bool
  exceptionId : Nat
  exceptionValue : Nat
  predicted : Bool
  predictedJump : Bool
  predictedNextPc : Nat
  checkpointIdValid : Bool
  checkpointId : Nat
  bruOp : Bool
  bruJump : Bool
  bruNextPc : Nat
  isMret : Bool
  csrAddr : Nat
  csrNewvalue : Nat
  csrNewvalueValid : Bool
  deriving DecidableEq

def RobItem.zero : RobItem where
  newPhyRegId := 0
  oldPhyRegId := 0
  oldPhyRegIdValid := false
  finish := false
  pc := 0
  instValue := 0
  hasException := false
  exceptionId := 0
  exceptionValue := 0
  predicted := false
  predictedJump := false
  predictedNextPc := 0
  checkpointIdValid := false
  checkpointId := 0
  bruOp := false
  bruJump := false
  bruNextPc := 0
  isMret := false
  csrAddr := 0
  csrNewvalue := 0
  csrNewvalueValid := false

def RobItem.or (a b : RobItem) : RobItem where
  newPhyRegId := a.newPhyRegId ||| b.newPhyRegId
  oldPhyRegId := a.oldPhyRegId ||| b.oldPhyRegId
  oldPhyRegIdValid := a.oldPhyRegIdValid || b.oldPhyRegIdValid
  finish := a.finish || b.finish
  pc := a.pc ||| b.pc
  instValue := a.instValue ||| b.instValue
  hasException := a.hasException || b.hasException
  exceptionId := a.exceptionId ||| b.exceptionId
  exceptionValue := a.exceptionValue ||| b.exceptionValue
  predicted := a.predicted || b.predicted
  predictedJump := a.predictedJump || b.predictedJump
  predictedNextPc := a.predictedNextPc ||| b.predictedNextPc
  checkpointIdValid := a.checkpointIdValid || b.checkpointIdValid
  checkpointId := a.checkpointId ||| b.checkpointId
  bruOp := a.bruOp || b.bruOp
  bruJump := a.bruJump || b.bruJump
  bruNextPc := a.bruNextPc ||| b.bruNextPc
  isMret := a.isMret || b.isMret
  csrAddr := a.csrAddr ||| b.csrAddr
  csrNewvalue := a.csrNewvalue ||| b.csrNewvalue
  csrNewvalueValid := a.csrNewvalueValid || b.csrNewvalueValid

instance : Packed RobItem := ⟨RobItem.zero, RobItem.or⟩

end DreamCore.Rtl
