import Mathlib.Data.Nat.Bitwise

/-!
# The serial port (`uart_controller.sv`)

The transmitter sends a start bit, eight data bits from the lowest on and a stop bit, each
`FREQ_DIV` cycles long.  The receiver sees the line through two registers, counts from the
start bit on and samples in the middle of each bit.  `FREQ_DIV` is a positive `int`, so the
32-bit counters do not wrap.
-/

namespace DreamCore.Rtl

structure UartState where
  rxdSyncShiftReg : Bool × Bool
  revDoing : Bool
  revClkCnt : Nat
  revSample : Bool
  revData : BitVec 8
  revDataValid : Bool
  revCnt : Nat
  revDone : Bool
  sendClkCnt : Nat
  sendCurState : Nat
  sendDataBuf : BitVec 8
  txd : Bool

structure UartInput where
  sendData : BitVec 8
  send : Bool
  revDataInvalid : Bool

def uartReset : UartState where
  rxdSyncShiftReg := (true, true)
  revDoing := false
  revClkCnt := 0
  revSample := false
  revData := 0
  revDataValid := false
  revCnt := 0
  revDone := false
  sendClkCnt := 0
  sendCurState := 0
  sendDataBuf := 0
  txd := true

section Uart

variable (freqDiv : Nat) (s : UartState) (input : UartInput)

/-! ## Receiver -/

def rxdSync : Bool := s.rxdSyncShiftReg.1

/-- A low line starts the receiver. -/
def revStart : Bool := !s.revDoing && !rxdSync s

def revDoingNext : Bool :=
  if revStart s then true
  else if s.revDoing && s.revDone then false
  else s.revDoing

def revClkCntNext : Nat :=
  if revStart s then 1
  else if s.revDoing then
    if s.revClkCnt < freqDiv - 1 then s.revClkCnt + 1 else 0
  else s.revClkCnt

def revSampleNext : Bool := s.revDoing && decide (s.revClkCnt = freqDiv / 2 - 1)

/-- `{rxd_sync, rev_data[7:1]}`. -/
def shiftIn (bit : Bool) (data : BitVec 8) : BitVec 8 := BitVec.cons bit (data.extractLsb' 1 7)

def revDataNext : BitVec 8 :=
  if s.revSample && decide (0 < s.revCnt) && decide (s.revCnt ≤ 8) then shiftIn (rxdSync s) s.revData
  else s.revData

def revDataValidNext : Bool :=
  if s.revSample && decide (s.revCnt = 8) then true
  else if s.revSample && decide (s.revCnt = 1) then false
  else if input.revDataInvalid then false
  else s.revDataValid

def revCntNext : Nat :=
  if revStart s then 0
  else if s.revDone then 0
  else if s.revSample then (s.revCnt + 1) % 16
  else s.revCnt

def revDoneNext : Bool := decide (s.revCnt = 10)

/-! ## Transmitter -/

def sendBusy : Bool := decide (s.sendCurState ≠ 0)

def sendClkCntNext : Nat :=
  if sendBusy s then
    if s.sendClkCnt < freqDiv - 1 then s.sendClkCnt + 1 else 0
  else if input.send then 0
  else s.sendClkCnt

def sendEn : Bool :=
  (decide (s.sendClkCnt = freqDiv - 1) && sendBusy s) || (input.send && !sendBusy s)

def sendNextState : Nat :=
  if s.sendCurState = 0 then
    if input.send then 1 else s.sendCurState
  else if sendEn freqDiv s input then
    if s.sendCurState = 10 then 0 else (s.sendCurState + 1) % 16
  else s.sendCurState

def sendDataBufNext : BitVec 8 :=
  if input.send && !sendBusy s then input.sendData else s.sendDataBuf

def txdNext : Bool :=
  if sendEn freqDiv s input then
    if s.sendCurState = 0 then false
    else if s.sendCurState ≤ 8 then s.sendDataBuf.getLsbD (s.sendCurState - 1)
    else if s.sendCurState = 9 then true
    else s.txd
  else s.txd

def uartNext (rxd : Bool) : UartState where
  rxdSyncShiftReg := (s.rxdSyncShiftReg.2, rxd)
  revDoing := revDoingNext s
  revClkCnt := revClkCntNext freqDiv s
  revSample := revSampleNext freqDiv s
  revData := revDataNext s
  revDataValid := revDataValidNext s input
  revCnt := revCntNext s
  revDone := revDoneNext s
  sendClkCnt := sendClkCntNext freqDiv s input
  sendCurState := sendNextState freqDiv s input
  sendDataBuf := sendDataBufNext s input
  txd := txdNext freqDiv s input

end Uart

end DreamCore.Rtl
