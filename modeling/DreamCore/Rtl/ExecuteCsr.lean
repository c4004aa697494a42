import DreamCore.Rtl.CsrFile
import DreamCore.Rtl.Execute

/-!
# CSR unit (`readreg.sv`, `csr_access_check.sv`, `execute_csr.sv`)

The unit reads the register at once and sends the new value to commit.  Whether it
writes and whether it may fault is taken from the source: `arg1_src` tells the register
from the immediate forms, `rs1_need_map` a register other than `x0`.
-/

namespace DreamCore.Rtl

namespace Csr
abbrev mhartid : Nat := 0xf14
abbrev mconfigptr : Nat := 0xf15
abbrev mstatush : Nat := 0x310
abbrev charfifo : Nat := 0x800
abbrev uartfifo : Nat := 0x810
abbrev branchnum : Nat := 0xB03
abbrev branchnumh : Nat := 0xB83
abbrev branchpredicted : Nat := 0xB04
abbrev branchpredictedh : Nat := 0xB84
abbrev branchhit : Nat := 0xB05
abbrev branchhith : Nat := 0xB85
abbrev branchmiss : Nat := 0xB06
abbrev branchmissh : Nat := 0xB86
abbrev fd : Nat := 0xB07
abbrev fdh : Nat := 0xB87
abbrev dr : Nat := 0xB08
abbrev drh : Nat := 0xB88
abbrev iq : Nat := 0xB09
abbrev iqh : Nat := 0xB89
abbrev ie : Nat := 0xB0A
abbrev ieh : Nat := 0xB8A
abbrev cb : Nat := 0xB0B
abbrev cbh : Nat := 0xB8B
abbrev rob : Nat := 0xB0C
abbrev robh : Nat := 0xB8C
abbrev phy : Nat := 0xB0D
abbrev phyh : Nat := 0xB8D
abbrev ras : Nat := 0xB0E
abbrev rash : Nat := 0xB8E
abbrev fnf : Nat := 0xB0F
abbrev fnfh : Nat := 0xB8F
end Csr

/-! ## Access check -/

/-- The registers whose access is `!WRITE_PREMISSION`. -/
def readOnlyCsrs : List Nat :=
  [Csr.mvendorid, Csr.marchid, Csr.mimpid, Csr.mhartid, Csr.mconfigptr,
    Csr.branchnum, Csr.branchnumh, Csr.branchpredicted, Csr.branchpredictedh,
    Csr.branchhit, Csr.branchhith, Csr.branchmiss, Csr.branchmissh,
    Csr.fd, Csr.fdh, Csr.dr, Csr.drh, Csr.iq, Csr.iqh, Csr.ie, Csr.ieh,
    Csr.cb, Csr.cbh, Csr.rob, Csr.robh, Csr.phy, Csr.phyh,
    Csr.ras, Csr.rash, Csr.fnf, Csr.fnfh]

def writableCsrs : List Nat :=
  [Csr.mstatus, Csr.misa, Csr.mie, Csr.mtvec, Csr.mcounteren, Csr.mstatush,
    Csr.mscratch, Csr.mepc, Csr.mcause, Csr.mtval, Csr.mip, Csr.charfifo, Csr.finish,
    Csr.mcycle, Csr.minstret, Csr.mcycleh, Csr.minstreth]

/-- `hasUartFifo` tells whether the build macros list `CSR_UARTFIFO`. -/
def csrAccessCheck (hasUartFifo writePremission : Bool) (csrAddr : Nat) : Bool :=
  if csrAddr ∈ readOnlyCsrs then !writePremission
  else decide (csrAddr ∈ writableCsrs) || (hasUartFifo && decide (csrAddr = Csr.uartfifo))

/-! ## Source operand -/

/-- `src1_value` of `readreg`; `regData` is the value of the physical register. -/
def readregSrc1Value (op : DecodeRenamePack) (regData : Nat) : Nat :=
  if op.rs1NeedMap then regData else if op.arg1Src = .imm then op.imm else 0

/-! ## Execution -/

/-- The read port of the CSR file for the unit. -/
def csrfExcsrData (s : CsrFile) (excsrCsrfAddr : Nat) : Nat := s excsrCsrfAddr

section ExecuteCsr

variable (hasUartFifo : Bool) (csrData : Nat) (revPack : IssueExecutePack)

def csrAddrReadValid : Bool := csrAccessCheck hasUartFifo false revPack.csr

def csrAddrWriteValid : Bool := csrAccessCheck hasUartFifo true revPack.csr

def csrNewvalue : Nat :=
  if revPack.subOp = CsrOp.csrrc then
    (BitVec.ofNat 32 csrData &&& ~~~aluSrc1 revPack).toNat
  else if revPack.subOp = CsrOp.csrrs then csrData ||| revPack.src1Value
  else if revPack.subOp = CsrOp.csrrw then revPack.src1Value
  else 0

/-- `send_pack` of `execute_csr`. -/
def executeCsr : ExecuteWbPack :=
  { revPack.toReadregIssueOpInfo with
    hasException := !csrAddrReadValid hasUartFifo revPack ||
      (revPack.rs1NeedMap && !csrAddrWriteValid hasUartFifo revPack)
    exceptionId := RiscvException.illegalInstruction
    exceptionValue := if !csrAddrReadValid hasUartFifo revPack then 0 else revPack.value
    bruJump := false
    bruNextPc := 0
    rdValue := csrData
    csrNewvalue := csrNewvalue csrData revPack
    csrNewvalueValid :=
      !(decide (revPack.arg1Src = .reg) && !revPack.rs1NeedMap) &&
        csrAddrWriteValid hasUartFifo revPack }

end ExecuteCsr

end DreamCore.Rtl
