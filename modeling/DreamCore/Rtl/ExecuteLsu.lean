import DreamCore.Rtl.StoreBuffer
import DreamCore.Rtl.Decode
import DreamCore.Rtl.Wb

/-!
# Load/store unit (`issue.sv`, `handshake_dff.sv`, `execute_lsu.sv`)

Issue computes the address, finds misalignment and launches the read of a load; a
one-entry FIFO hands the operation over; the unit pushes a store into the store
buffer, or turns the overlaid bus data of a load into its result.
-/

namespace DreamCore.Rtl

/-! ## Issue -/

def isLoad (subOp : Nat) : Bool := decide (subOp ≤ LsuOp.lw)

/-- The number of bytes a load or store accesses. -/
def accessSize (subOp : Nat) : Nat :=
  if subOp = LsuOp.lb ∨ subOp = LsuOp.lbu ∨ subOp = LsuOp.sb then 1
  else if subOp = LsuOp.lh ∨ subOp = LsuOp.lhu ∨ subOp = LsuOp.sh then 2
  else if subOp = LsuOp.lw ∨ subOp = LsuOp.sw then 4
  else 0

theorem accessSize_cases {subOp : Nat} (h : subOp ≤ LsuOp.sw) :
    accessSize subOp = 1 ∨ accessSize subOp = 2 ∨ accessSize subOp = 4 := by
  have : subOp ≤ 7 := h
  rcases (by omega : subOp = 0 ∨ subOp = 1 ∨ subOp = 2 ∨ subOp = 3 ∨ subOp = 4 ∨ subOp = 5 ∨
    subOp = 6 ∨ subOp = 7) with rfl | rfl | rfl | rfl | rfl | rfl | rfl | rfl <;> decide

theorem checkAlign_iff {addr size : Nat} (hsize : size = 1 ∨ size = 2 ∨ size = 4) :
    checkAlign addr size = true ↔ addr % size = 0 := by
  rw [checkAlign, decide_eq_true_iff]
  rcases hsize with rfl | rfl | rfl
  · rw [show 1 - 1 = 2 ^ 0 - 1 from rfl, Nat.and_two_pow_sub_one_eq_mod]
  · rw [show 2 - 1 = 2 ^ 1 - 1 from rfl, Nat.and_two_pow_sub_one_eq_mod]
  · rw [show 4 - 1 = 2 ^ 2 - 1 from rfl, Nat.and_two_pow_sub_one_eq_mod]

section Issue

variable (item : ReadregIssueOpInfo)

def issueLsuAddr : Nat := (item.src1Value + item.imm) % 2 ^ 32

def lsuHasException : Bool :=
  decide (accessSize item.subOp ≠ 0) && !checkAlign (issueLsuAddr item) (accessSize item.subOp)

/-- `riscv_exception_t`: load misaligned 4 and fault 5, store misaligned 6 and fault 7. -/
def lsuExceptionId : Nat :=
  if isLoad item.subOp then if lsuHasException item then 4 else 5
  else if accessSize item.subOp = 0 then 5
  else if lsuHasException item then 6
  else 7

def issueIsLsu : Bool := item.valid && decide (item.opUnit = .lsu)

/-- `iq_issue_data_converted`. -/
def issueDataConverted : IssueExecutePack :=
  { item with
    hasException := if issueIsLsu item then lsuHasException item else item.hasException
    exceptionId := if issueIsLsu item then lsuExceptionId item else item.exceptionId
    exceptionValue := if issueIsLsu item then issueLsuAddr item else item.exceptionValue
    lsuAddr := issueLsuAddr item }

def issueStbufReadSize : Nat := if isLoad item.subOp then accessSize item.subOp else 0

def issueStbufRd (issueLsuFifoPush issueLsuFifoFlush : Bool) : Bool :=
  isLoad item.subOp && issueLsuFifoPush && !issueLsuFifoFlush && !lsuHasException item

end Issue

def IssueExecutePack.zero : IssueExecutePack :=
  { ExecuteWbPack.zero.toReadregIssueOpInfo with lsuAddr := 0 }

/-! ## The FIFO and the port -/

structure HandshakeDff where
  hasData : Bool
  data : IssueExecutePack

def handshakeReset : HandshakeDff := ⟨false, IssueExecutePack.zero⟩

def handshakeFull (s : HandshakeDff) (pop : Bool) : Bool := s.hasData && !pop

def handshakeNext (s : HandshakeDff) (dataIn : IssueExecutePack) (push flush pop : Bool) :
    HandshakeDff :=
  if flush then handshakeReset
  else if push && !handshakeFull s pop then ⟨true, dataIn⟩
  else if pop && s.hasData then ⟨false, s.data⟩
  else s

/-- `port.sv` with the pack of an execution unit. -/
def portNext (dataOut dataIn : ExecuteWbPack) (we flush : Bool) : ExecuteWbPack :=
  if flush then ExecuteWbPack.zero else if we then dataIn else dataOut

/-! ## Execution -/

structure ExecuteLsuInput where
  stbufExlsuBusDataFeedback : BitVec 128
  stbufExlsuBusReady : Bool
  stbufExlsuFull : Bool
  issueLsuFifoDataOut : IssueExecutePack
  issueLsuFifoDataOutValid : Bool
  commitFeedbackPack : CommitFeedbackPack

/-- The bytes a store writes, cut to its size. -/
def storeData (revPack : IssueExecutePack) : Nat :=
  if revPack.subOp = LsuOp.sb then revPack.src2Value % 2 ^ 8
  else if revPack.subOp = LsuOp.sh then revPack.src2Value % 2 ^ 16
  else if revPack.subOp = LsuOp.sw then revPack.src2Value
  else 0

namespace ExecuteLsuInput

variable (x : ExecuteLsuInput)

def revPack : IssueExecutePack := x.issueLsuFifoDataOut

def instValid : Bool := x.issueLsuFifoDataOutValid && x.revPack.enable && x.revPack.valid

def busy : Bool :=
  x.instValid && !isLoad x.revPack.subOp && x.stbufExlsuFull && !x.commitFeedbackPack.flushing

def lsuWbPortFlush : Bool :=
  x.busy || !x.issueLsuFifoDataOutValid ||
    (x.instValid && isLoad x.revPack.subOp && !x.revPack.hasException && !x.stbufExlsuBusReady) ||
    x.commitFeedbackPack.flushing

def lsuWbPortWe : Bool := !x.lsuWbPortFlush

def issueLsuFifoPop : Bool := x.lsuWbPortWe

def exlsuStbufPush : Bool :=
  !isLoad x.revPack.subOp && x.lsuWbPortWe && x.instValid && !x.revPack.hasException

def exlsuStbufWriteSize : Nat :=
  if isLoad x.revPack.subOp then 0 else accessSize x.revPack.subOp

def exlsuStbufWriteData : Nat := storeData x.revPack

/-- The register value of a load, from the overlaid bus data. -/
def rdValue : Nat :=
  let data := x.stbufExlsuBusDataFeedback.toNat
  if x.revPack.subOp = LsuOp.lb then signExtend 8 (data % 2 ^ 8)
  else if x.revPack.subOp = LsuOp.lbu then data % 2 ^ 8
  else if x.revPack.subOp = LsuOp.lh then signExtend 16 (data % 2 ^ 16)
  else if x.revPack.subOp = LsuOp.lhu then data % 2 ^ 16
  else if x.revPack.subOp = LsuOp.lw then data % 2 ^ 32
  else 0

def sendPack : ExecuteWbPack :=
  { x.revPack.toReadregIssueOpInfo with
    bruJump := false
    bruNextPc := 0
    rdValue := x.rdValue
    csrNewvalue := 0
    csrNewvalueValid := false }

end ExecuteLsuInput

end DreamCore.Rtl
