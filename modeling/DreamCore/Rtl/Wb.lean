import DreamCore.Rtl.Types

/-!
# Write-back (`wb.sv`)

Passes the results of the eight execution units to the register file at once and
to commit through a port register, both dropped while commit flushes.
-/

namespace DreamCore.Rtl

/-- The all-zero pack a flushed port holds. -/
def ExecuteWbPack.zero : ExecuteWbPack where
  enable := false
  value := 0
  pc := 0
  hasException := false
  exceptionId := 0
  exceptionValue := 0
  predicted := false
  predictedJump := false
  predictedNextPc := 0
  checkpointIdValid := false
  checkpointId := 0
  valid := false
  imm := 0
  rs1 := 0
  arg1Src := .reg
  rs1NeedMap := false
  rs2 := 0
  arg2Src := .reg
  rs2NeedMap := false
  rd := 0
  rdEnable := false
  needRename := false
  csr := 0
  op := .add
  opUnit := .alu
  subOp := 0
  robId := 0
  rs1Phy := 0
  rs2Phy := 0
  rdPhy := 0
  src1Value := 0
  src1Loaded := false
  src2Value := 0
  src2Loaded := false
  bruJump := false
  bruNextPc := 0
  rdValue := 0
  csrNewvalue := 0
  csrNewvalueValid := false

def wbCommitPortFlush (fb : CommitFeedbackPack) : Bool := fb.enable && fb.flush

def wbPhyfWe (fb : CommitFeedbackPack) (executeWbPort : Nat → ExecuteWbPack) (i : Nat) : Bool :=
  !wbCommitPortFlush fb && (executeWbPort i).enable && (executeWbPort i).valid &&
    !(executeWbPort i).hasException && (executeWbPort i).rdEnable && (executeWbPort i).needRename

/-- The port register towards commit; its write enable is always on. -/
def wbCommitPortNext (fb : CommitFeedbackPack) (executeWbPort : Nat → ExecuteWbPack) :
    Nat → ExecuteWbPack :=
  if wbCommitPortFlush fb then fun _ => ExecuteWbPack.zero else executeWbPort

end DreamCore.Rtl
