import DreamCore.Rtl.Tcm

/-!
# Core-local interruptor (`clint.sv`) and the data side of the bus (`bus.sv`)

Three registers behind word-wide bus accesses: the software interrupt bit, the compare
value and the timer, which counts every clock cycle.  A read is answered in the next
cycle and sees the write of its own cycle.
-/

namespace DreamCore.Rtl

/-! ## Registers -/

abbrev msipAddr : Nat := 0

abbrev mtimecmpAddr : Nat := 0x4000

abbrev mtimeAddr : Nat := 0xbff8

structure ClintState where
  msip : BitVec 32
  mtimecmp : BitVec 64
  mtime : BitVec 64
  clintBusData : BitVec 128

structure ClintInput where
  readAddr : Nat
  readSize : Nat
  rd : Bool
  writeAddr : Nat
  writeSize : Nat
  data : BitVec 32
  wr : Bool

def clintReset : ClintState := ⟨0, 0, 0, 0⟩

section Clint

variable (s : ClintState) (input : ClintInput)

/-- A word is written to the register at `addr`. -/
def clintWrites (addr : Nat) : Bool :=
  input.wr && decide (input.writeSize = 4) && decide (input.writeAddr = addr)

def withLow (v : BitVec 64) (data : BitVec 32) : BitVec 64 := v.extractLsb' 32 32 ++ data

def withHigh (v : BitVec 64) (data : BitVec 32) : BitVec 64 := data ++ v.extractLsb' 0 32

def msipNext : BitVec 32 :=
  if clintWrites input msipAddr then (if input.data.getLsbD 0 then 1 else 0) else s.msip

def mtimecmpNext : BitVec 64 :=
  if clintWrites input mtimecmpAddr then withLow s.mtimecmp input.data
  else if clintWrites input (mtimecmpAddr + 4) then withHigh s.mtimecmp input.data
  else s.mtimecmp

/-- The half that is not written goes on counting. -/
def mtimeNext : BitVec 64 :=
  if clintWrites input mtimeAddr then withLow (s.mtime + 1) input.data
  else if clintWrites input (mtimeAddr + 4) then withHigh (s.mtime + 1) input.data
  else s.mtime + 1

def clintReadWord : BitVec 32 :=
  if input.readAddr = msipAddr then msipNext s input
  else if input.readAddr = mtimecmpAddr then (mtimecmpNext s input).extractLsb' 0 32
  else if input.readAddr = mtimecmpAddr + 4 then (mtimecmpNext s input).extractLsb' 32 32
  else if input.readAddr = mtimeAddr then (mtimeNext s input).extractLsb' 0 32
  else if input.readAddr = mtimeAddr + 4 then (mtimeNext s input).extractLsb' 32 32
  else 0

def clintNext : ClintState where
  msip := msipNext s input
  mtimecmp := mtimecmpNext s input
  mtime := mtimeNext s input
  clintBusData :=
    if input.rd && decide (input.readSize = 4) then (clintReadWord s input).setWidth 128
    else s.clintBusData

def intTimerReq : Bool := decide (s.mtimecmp ≤ s.mtime)

def intSoftwareReq : Bool := s.msip.getLsbD 0

end Clint

/-! ## The data side of the bus -/

def clintAddr : Nat := 0x20000000

def clintSize : Nat := 0x10000

def inClint (addr : Nat) : Bool :=
  decide (clintAddr ≤ addr) && decide (addr < clintAddr + clintSize)

def busClintAddr (addr : Nat) : Nat := (addr + (2 ^ 32 - clintAddr)) % 2 ^ 32

/-- One access of the store buffer. -/
structure BusAccess where
  addr : Nat
  size : Nat
  req : Bool

structure BusStbufState where
  busStbufReadAck : Bool
  busStbufWriteAck : Bool
  busTcmStbufRdR : Bool
  busClintRdR : Bool
  deriving DecidableEq

def busStbufReset : BusStbufState := ⟨false, false, false, false⟩

section Bus

variable (s : BusStbufState) (read write : BusAccess) (data : Nat)

def busTcmStbufRd : Bool := read.req && inTcm read.addr

def busClintInput : ClintInput where
  readAddr := busClintAddr read.addr
  readSize := read.size
  rd := read.req && inClint read.addr
  writeAddr := busClintAddr write.addr
  writeSize := write.size
  data := BitVec.ofNat 32 data
  wr := write.req && inClint write.addr

def busStbufNext : BusStbufState where
  busStbufReadAck := read.req
  busStbufWriteAck := write.req
  busTcmStbufRdR := busTcmStbufRd read
  busClintRdR := read.req && inClint read.addr

/-- `bus_stbuf_data`: a register's width of what the device read last cycle answers. -/
def busStbufData (tcmBusStbufData : Nat) (clintBusData : BitVec 128) : BitVec 32 :=
  if s.busTcmStbufRdR then BitVec.ofNat 32 tcmBusStbufData
  else if s.busClintRdR then clintBusData.setWidth 32
  else 0

end Bus

end DreamCore.Rtl
