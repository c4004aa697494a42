import DreamCore.Rtl.ExecuteCsr

/-!
# CSR unit of the model (`execute/csr.cpp`, `csrfile.h`, `main.cpp`)

The registers are those `main.cpp` maps, each read-only or not.  Here a write is checked
whatever form the instruction has.
-/

namespace DreamCore.Cpp

open DreamCore.Rtl

/-- `csr_map_table`: the `readonly` flag of a mapped register. -/
def csrMapTable (addr : Nat) : Option Bool :=
  if addr ∈ readOnlyCsrs then some true
  else if addr ∈ writableCsrs then some false
  else if 0x3A0 ≤ addr ∧ addr < 0x3A0 + 16 then some false
  else if 0x3B0 ≤ addr ∧ addr < 0x3B0 + 64 then some false
  else none

/-- `csrfile::read` finds the register. -/
def csrMapped (addr : Nat) : Bool := (csrMapTable addr).isSome

def csrWriteCheck (addr : Nat) : Bool := decide (csrMapTable addr = some false)

section ExecuteCsr

variable (csrValue : Nat) (revPack : IssueExecutePack)

def csrNewValue : Nat :=
  if revPack.subOp = CsrOp.csrrc then
    (BitVec.ofNat 32 csrValue &&& ~~~BitVec.ofNat 32 revPack.src1Value).toNat
  else if revPack.subOp = CsrOp.csrrs then csrValue ||| revPack.src1Value
  else if revPack.subOp = CsrOp.csrrw then revPack.src1Value
  else csrValue

/-- `send_pack` of `csr::run` for an enabled and valid pack: what is not assigned is zero. -/
def executeCsr : ExecuteWbPack :=
  let sendPack : ExecuteWbPack :=
    { revPack.toReadregIssueOpInfo with
      predicted := false
      predictedJump := false
      predictedNextPc := 0
      checkpointIdValid := false
      checkpointId := 0
      bruJump := false
      bruNextPc := 0
      rdValue := 0
      csrNewvalue := 0
      csrNewvalueValid := false }
  if !csrMapped revPack.csr then
    { sendPack with
      hasException := true
      exceptionId := RiscvException.illegalInstruction
      exceptionValue := 0 }
  else if !(decide (revPack.arg1Src = .reg) && !revPack.rs1NeedMap) then
    if !csrWriteCheck revPack.csr then
      { sendPack with
        rdValue := csrValue
        hasException := true
        exceptionId := RiscvException.illegalInstruction
        exceptionValue := revPack.value }
    else
      { sendPack with
        rdValue := csrValue
        csrNewvalue := csrNewValue csrValue revPack
        csrNewvalueValid := true }
  else { sendPack with rdValue := csrValue }

end ExecuteCsr

end DreamCore.Cpp
