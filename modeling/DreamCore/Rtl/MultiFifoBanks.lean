import DreamCore.Rtl.MultiFifo
import Mathlib.Data.Nat.Log

/-!
# The banks of the FIFO with several ports (`multififo.sv`)

`PORT_NUM` is 4 and `DEPTH` is `2 ^ depthWidth`.  Entry `k` of the ring is in bank
`k % 4`, so four consecutive entries are in four banks; a rotation by the low pointer
bits relates ports and banks.
-/

namespace DreamCore.Rtl

structure MultiFifoState (w : Nat) where
  rptr : Nat
  wptr : Nat
  buffer : Nat → Nat → BitVec w

structure MultiFifoInput (α : Type) where
  dataIn : Nat → α
  dataInValid : Nat → Bool
  push : Bool
  flush : Bool
  dataPopValid : Nat → Bool
  pop : Bool

/-- The state after reset; the buffer keeps whatever it held. -/
def multiFifoReset {w : Nat} (buffer : Nat → Nat → BitVec w) : MultiFifoState w where
  rptr := 0
  wptr := 0
  buffer := buffer

section MultiFifo

variable {w : Nat} (depthWidth : Nat) (s : MultiFifoState w) (x : MultiFifoInput (BitVec w))

def multiFifoDepth : Nat := 2 ^ depthWidth

/-! ## Space -/

def multiFifoFull : Bool :=
  decide (s.rptr % multiFifoDepth depthWidth = s.wptr % multiFifoDepth depthWidth) &&
    decide (s.rptr / multiFifoDepth depthWidth % 2 ≠ s.wptr / multiFifoDepth depthWidth % 2)

def multiFifoEmpty : Bool := decide (s.rptr = s.wptr)

def wptrRptrSub : Nat :=
  (s.wptr + 2 * multiFifoDepth depthWidth - s.rptr) % (2 * multiFifoDepth depthWidth)

def usedSpace : Nat :=
  if multiFifoFull depthWidth s then multiFifoDepth depthWidth
  else wptrRptrSub depthWidth s % multiFifoDepth depthWidth

def freeSpace : Nat := multiFifoDepth depthWidth - usedSpace depthWidth s

def pushEnableNum : Nat := if 4 ≤ freeSpace depthWidth s then 4 else freeSpace depthWidth s

def dataInEnable (i : Nat) : Bool := expandOne (pushEnableNum depthWidth s) i

def dataInNum : Nat :=
  countOneContinuous fifoPortNum fun i => x.dataInValid i && dataInEnable depthWidth s i

def dataInValidFiltered (i : Nat) : Bool := expandOne (dataInNum depthWidth s x) i

def popEnableNum : Nat := if 4 ≤ usedSpace depthWidth s then 4 else usedSpace depthWidth s

def dataOutValid (i : Nat) : Bool := expandOne (popEnableNum depthWidth s) i

def dataOutNum : Nat :=
  countOneContinuous fifoPortNum fun i => dataOutValid depthWidth s i && x.dataPopValid i

def multiFifoWptrNext : Nat :=
  if x.flush then 0
  else if !multiFifoFull depthWidth s && x.push then
    (s.wptr + dataInNum depthWidth s x) % (2 * multiFifoDepth depthWidth)
  else s.wptr

def multiFifoRptrNext : Nat :=
  if x.flush then 0
  else if !multiFifoEmpty s && x.pop then
    (s.rptr + dataOutNum depthWidth s x) % (2 * multiFifoDepth depthWidth)
  else s.rptr

/-! ## Banks -/

/-- `read_full_addr_set` and `write_full_addr_set`. -/
def fifoFullAddrSet (ptr i : Nat) : Nat := (ptr + i) % multiFifoDepth depthWidth

def fifoBankAddrSet (ptr i : Nat) : Nat := fifoFullAddrSet depthWidth ptr i / fifoPortNum

/-- Port `j` meets bank `i`. -/
def fifoBankIdCmp (ptr i j : Nat) : Bool := decide (fifoFullAddrSet depthWidth ptr j % fifoPortNum = i)

def fifoBankAddr (ptr i : Nat) : Nat :=
  dataSelector fifoPortNum (fifoBankIdCmp depthWidth ptr i) (fifoBankAddrSet depthWidth ptr)

def fifoReadBankSetIndex (i : Nat) : Nat :=
  parallelFinder fifoPortNum (fifoBankIdCmp depthWidth s.rptr i)

def fifoReadBankDataReg (i : Nat) : BitVec (fifoPortNum * w) :=
  (s.buffer i (fifoBankAddr depthWidth s.rptr i)).setWidth (fifoPortNum * w)

def fifoReadBankDataRegShift (i : Nat) : Nat :=
  fifoReadBankSetIndex depthWidth s i * w % 2 ^ Nat.clog 2 (fifoPortNum * w)

def fifoReadBankDataRecombine : Nat → BitVec (fifoPortNum * w)
  | 0 => fifoReadBankDataReg depthWidth s 0 <<< fifoReadBankDataRegShift depthWidth s 0
  | i + 1 => fifoReadBankDataRecombine i |||
      fifoReadBankDataReg depthWidth s (i + 1) <<< fifoReadBankDataRegShift depthWidth s (i + 1)

def dataOut (i : Nat) : BitVec w :=
  (fifoReadBankDataRecombine depthWidth s (fifoPortNum - 1)).extractLsb' (i * w) w

def setWe (i : Nat) : Bool := dataInValidFiltered depthWidth s x i && x.push

def fifoBankWe (i : Nat) : Bool :=
  dataSelector fifoPortNum (fifoBankIdCmp depthWidth s.wptr i) (setWe depthWidth s x)

def fifoBankWriteData (i : Nat) : BitVec w :=
  dataSelector fifoPortNum (fifoBankIdCmp depthWidth s.wptr i) x.dataIn

def multiFifoNext : MultiFifoState w where
  rptr := multiFifoRptrNext depthWidth s x
  wptr := multiFifoWptrNext depthWidth s x
  buffer := fun i a =>
    if fifoBankWe depthWidth s x i && decide (a = fifoBankAddr depthWidth s.wptr i) then
      fifoBankWriteData depthWidth s x i
    else s.buffer i a

end MultiFifo

end DreamCore.Rtl
