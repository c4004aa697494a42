import DreamCore.Rtl.Commit

/-!
# CSR file and interrupt interface (`csrfile.sv`, `interrupt_interface.sv`)

Every register has its own write mask; commit writes up to four of them a cycle.
An interrupt is offered to commit while `mstatus.MIE` is set and an enabled line is
up.  The counters of the front end and the serial port are not modelled: nothing in
the trap logic reads them.
-/

namespace DreamCore.Rtl

namespace Csr
abbrev mvendorid : Nat := 0xf11
abbrev marchid : Nat := 0xf12
abbrev mimpid : Nat := 0xf13
abbrev misa : Nat := 0x301
abbrev mie : Nat := 0x304
abbrev mcounteren : Nat := 0x306
abbrev mscratch : Nat := 0x340
abbrev mip : Nat := 0x344
abbrev finish : Nat := 0x804
abbrev mcycle : Nat := 0xB00
abbrev minstret : Nat := 0xB02
abbrev mcycleh : Nat := 0xB80
abbrev minstreth : Nat := 0xB82
end Csr

structure CsrFileInput where
  commitCsrfWrite : Nat → CsrWrite
  intifCsrfMipData : Nat
  commitCsrfCommitNumAdd : Nat

abbrev CsrFile := Nat → Nat

def csrFileReset : CsrFile := fun addr =>
  if addr = Csr.marchid then 0x19981001
  else if addr = Csr.mimpid then 0x20220201
  else if addr = Csr.misa then 0x40001100
  else if addr = Csr.finish then 0xffffffff
  else 0

section CsrFile

variable (s : CsrFile) (input : CsrFileInput) (addr : Nat)

def csrWriteChannelCmp (j : Nat) : Bool :=
  decide ((input.commitCsrfWrite j).addr = addr) && (input.commitCsrfWrite j).we

def csrWriteEnable : Bool := anyBit commitWidth (csrWriteChannelCmp input addr)

def csrWriteData : Nat :=
  dataSelector commitWidth (csrWriteChannelCmp input addr) fun j => (input.commitCsrfWrite j).data

def csrMcycleNext : Nat := (s Csr.mcycleh * 2 ^ 32 + s Csr.mcycle + 1) % 2 ^ 64

def csrMinstretNext : Nat :=
  (s Csr.minstreth * 2 ^ 32 + s Csr.minstret + input.commitCsrfCommitNumAdd) % 2 ^ 64

/-- The value a register takes when commit writes `data` to it. -/
def csrWritten (data : Nat) : Nat :=
  if addr = Csr.mstatus then data &&& 0x88
  else if addr = Csr.mie then data &&& 0x888
  else if addr = Csr.mtvec ∨ addr = Csr.mepc then data >>> 2 <<< 2
  else if addr = Csr.mcounteren then data &&& 0x7
  else if addr = Csr.mip then input.intifCsrfMipData
  else if addr = Csr.mscratch ∨ addr = Csr.mcause ∨ addr = Csr.mtval ∨ addr = Csr.finish ∨
      addr = Csr.mcycle ∨ addr = Csr.minstret ∨ addr = Csr.mcycleh ∨ addr = Csr.minstreth then data
  else s addr

/-- The value a register takes when commit leaves it alone. -/
def csrKept : Nat :=
  if addr = Csr.mip then input.intifCsrfMipData
  else if addr = Csr.mcycle then csrMcycleNext s % 2 ^ 32
  else if addr = Csr.mcycleh then csrMcycleNext s / 2 ^ 32
  else if addr = Csr.minstret then csrMinstretNext s input % 2 ^ 32
  else if addr = Csr.minstreth then csrMinstretNext s input / 2 ^ 32
  else s addr

def csrFileNext : CsrFile := fun addr =>
  if csrWriteEnable input addr then csrWritten s input addr (csrWriteData input addr)
  else csrKept s input addr

end CsrFile

/-! ## The bits of `mstatus` -/

def mstatusMie (mstatus : Nat) : Bool := mstatus.testBit 3

def mstatusMpie (mstatus : Nat) : Bool := mstatus.testBit 7

/-! ## Interrupt interface -/

structure InterruptLines where
  extReq : Bool
  softwareReq : Bool
  timerReq : Bool

section InterruptInterface

variable (lines : InterruptLines) (s : CsrFile)

def meiHasInterrupt : Bool := lines.extReq && (s Csr.mie).testBit 11

def msiHasInterrupt : Bool := lines.softwareReq && (s Csr.mie).testBit 3

def mtiHasInterrupt : Bool := lines.timerReq && (s Csr.mie).testBit 7

def intifCommitHasInterrupt : Bool :=
  mstatusMie (s Csr.mstatus) &&
    (meiHasInterrupt lines s || msiHasInterrupt lines s || mtiHasInterrupt lines s)

def intifCommitMcauseData : Nat :=
  if mstatusMie (s Csr.mstatus) then
    if meiHasInterrupt lines s then 11
    else if msiHasInterrupt lines s then 3
    else if mtiHasInterrupt lines s then 7
    else 0
  else 0

def intifCommitAckData : Nat :=
  if mstatusMie (s Csr.mstatus) then
    if meiHasInterrupt lines s then 2 ^ 11
    else if msiHasInterrupt lines s then 2 ^ 3
    else if mtiHasInterrupt lines s then 2 ^ 7
    else 0
  else 0

def intifCsrfMipData : Nat :=
  lines.extReq.toNat <<< 11 ||| lines.timerReq.toNat <<< 7 ||| lines.softwareReq.toNat <<< 3

end InterruptInterface

end DreamCore.Rtl
