import DreamCore.Lib.Clocked
import DreamCore.Rtl.Uart

/-!
# A serial port connected to itself

`txd` drives `rxd`.  Beside the registers stand what an observer of the ports has seen: the
bytes handed over for sending, the bytes at the rising edges of `rev_data_valid`, and the
last of these until the first data bit of the next frame is sampled.
-/

namespace DreamCore.Model

open DreamCore.Rtl

structure Loopback where
  uart : UartState
  sent : List (BitVec 8)
  received : List (BitVec 8)
  held : Option (BitVec 8)

def loopbackReset : Loopback := ⟨uartReset, [], [], none⟩

/-- `send` is asserted only when `send_busy` is low. -/
def SendAllowed (s : Loopback) (input : UartInput) : Prop :=
  input.send = true → sendBusy s.uart = false

instance (s : Loopback) (input : UartInput) : Decidable (SendAllowed s input) :=
  inferInstanceAs (Decidable (_ → _))

/-- `rev_data_valid` rises with this clock edge. -/
def validRises (s s' : UartState) : Bool := !s.revDataValid && s'.revDataValid

def firstBitSampled (s : UartState) : Bool := s.revSample && decide (s.revCnt = 1)

def loopbackNext (freqDiv : Nat) (s : Loopback) (input : UartInput) : Loopback :=
  let uart := uartNext freqDiv s.uart input s.uart.txd
  { uart := uart
    sent := if input.send then s.sent ++ [input.sendData] else s.sent
    received := if validRises s.uart uart then s.received ++ [uart.revData] else s.received
    held :=
      if validRises s.uart uart then some uart.revData
      else if firstBitSampled s.uart then none
      else s.held }

end DreamCore.Model
