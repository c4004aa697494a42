import DreamCore.Rtl.Types
import DreamCore.Lib.Bytes

/-!
# Tightly coupled memory (`mem_dual_port_rw.sv`, `tcm.sv`)

Sixteen byte-wide banks hold the memory, so that any sixteen consecutive bytes are read
in one cycle.  There are two copies with one read port each, for fetch and for the store
buffer; both take every write, and a read launched together with a write sees it.
-/

namespace DreamCore.Rtl

/-! ## One bank (`WRITE_FIRST = 1`) -/

structure MemState (width : Nat) where
  mem : Nat → BitVec width
  outData : BitVec width
  readAddrR : Nat
  rdR : Bool
  writeAddrR : Nat
  writeDataR : BitVec width
  weR : Bool

structure MemInput (width : Nat) where
  readAddr : Nat
  rd : Bool
  writeAddr : Nat
  writeData : BitVec width
  we : Bool

section Mem

variable {width : Nat} (s : MemState width) (input : MemInput width)

/-- The state while `rst` is held; `mem` and `out_data` have no reset. -/
def memReset (mem : Nat → BitVec width) (outData : BitVec width) : MemState width where
  mem := mem
  outData := outData
  readAddrR := 0
  rdR := false
  writeAddrR := 0
  writeDataR := 0
  weR := false

def memReadData : BitVec width :=
  if s.rdR && s.weR && decide (s.writeAddrR = s.readAddrR) then s.writeDataR else s.outData

def memNext : MemState width where
  mem := if input.we then Function.update s.mem input.writeAddr input.writeData else s.mem
  outData := if input.rd then s.mem input.readAddr else s.outData
  readAddrR := input.readAddr
  rdR := input.rd
  writeAddrR := input.writeAddr
  writeDataR := input.writeData
  weR := input.we

end Mem

/-! ## Addresses -/

def tcmAddr : Nat := 0x80000000

def tcmSize : Nat := 1048576

def tcmBankNum : Nat := 16

def tcmBankDepth : Nat := tcmSize / tcmBankNum

section Address

variable (addr : Nat) (i : Nat)

/-- The addresses of the sixteen bytes behind `addr`. -/
def fullAddrSet : Nat := (addr + i) % 2 ^ 32

def bankAddrSet : Nat := fullAddrSet addr i / tcmBankNum

/-- Bank `i` holds byte `j` of the set. -/
def bankIdCmp (j : Nat) : Bool := decide (fullAddrSet addr j % tcmBankNum = i)

/-- The row of bank `i`, cut to the depth of the bank at its port. -/
def bankAddr : Nat :=
  dataSelector tcmBankNum (bankIdCmp addr i) (bankAddrSet addr) % tcmBankDepth

def bankSetIndex : Nat := parallelFinder tcmBankNum (bankIdCmp addr i)

end Address

/-! ## The write port -/

/-- `bus_tcm_stbuf_wr` with its address, size and data. -/
structure TcmWrite where
  wr : Bool
  addr : Nat
  size : Nat
  data : Nat

namespace TcmWrite

variable (w : TcmWrite) (i : Nat)

/-- The number of ones in `stbuf_set_we_flatten`. -/
def byteCount : Nat :=
  if w.wr then
    if w.size = 1 then 1 else if w.size = 2 then 2 else if w.size = 4 then 4 else 0
  else 0

def stbufSetWe : Bool := decide (i < w.byteCount)

/-- The four bytes of `bus_tcm_stbuf_data`, and zeros. -/
def stbufSetWriteData : BitVec 8 := if i < 4 then BitVec.ofNat 8 (w.data >>> (8 * i)) else 0

def stbufBankWe : Bool := dataSelector tcmBankNum (bankIdCmp w.addr i) w.stbufSetWe

def stbufBankWriteData : BitVec 8 := dataSelector tcmBankNum (bankIdCmp w.addr i) w.stbufSetWriteData

end TcmWrite

/-! ## A copy and its read port -/

structure TcmCopy where
  banks : Nat → MemState 8
  addrR : Nat

section Copy

variable (c : TcmCopy)

def tcmCopyReset (mem : Nat → Nat → BitVec 8) (outData : Nat → BitVec 8) : TcmCopy where
  banks := fun i => memReset (mem i) (outData i)
  addrR := 0

def bankInput (readAddr : Nat) (rd : Bool) (w : TcmWrite) (i : Nat) : MemInput 8 where
  readAddr := bankAddr readAddr i
  rd := rd
  writeAddr := bankAddr w.addr i
  writeData := w.stbufBankWriteData i
  we := w.stbufBankWe i

def tcmCopyNext (readAddr : Nat) (rd : Bool) (w : TcmWrite) : TcmCopy where
  banks := fun i => memNext (c.banks i) (bankInput readAddr rd w i)
  addrR := if rd then readAddr else c.addrR

def bankDataReg (i : Nat) : BitVec 8 := memReadData (c.banks i)

def bankDataRecombine : Nat → Nat
  | 0 => (bankDataReg c 0).toNat <<< (bankSetIndex c.addrR 0 <<< 3)
  | i + 1 => bankDataRecombine i ||| (bankDataReg c (i + 1)).toNat <<< (bankSetIndex c.addrR (i + 1) <<< 3)

/-- `tcm_bus_fetch_data` and `tcm_bus_stbuf_data`. -/
def tcmBusData : Nat := bankDataRecombine c (tcmBankNum - 1)

end Copy

/-! ## Both copies -/

structure TcmState where
  fetch : TcmCopy
  stbuf : TcmCopy

structure TcmInput where
  busTcmFetchAddr : Nat
  busTcmFetchRd : Bool
  busTcmStbufReadAddr : Nat
  busTcmStbufRd : Bool
  write : TcmWrite

def tcmNext (s : TcmState) (input : TcmInput) : TcmState where
  fetch := tcmCopyNext s.fetch input.busTcmFetchAddr input.busTcmFetchRd input.write
  stbuf := tcmCopyNext s.stbuf input.busTcmStbufReadAddr input.busTcmStbufRd input.write

/-! ## The bus in front of it (`bus.sv`) -/

def inTcm (addr : Nat) : Bool := decide (tcmAddr ≤ addr) && decide (addr < tcmAddr + tcmSize)

/-- `fetch_bus_addr - TCM_ADDR` in 32 bits. -/
def busTcmAddr (addr : Nat) : Nat := (addr + (2 ^ 32 - tcmAddr)) % 2 ^ 32

/-- The write the bus passes on to the TCM. -/
def busTcmWrite (req : Bool) (addr size data : Nat) : TcmWrite where
  wr := req && inTcm addr
  addr := busTcmAddr addr
  size := size
  data := data

structure BusFetchState where
  busFetchReadAck : Bool
  busTcmFetchRdR : Bool
  deriving DecidableEq

def busFetchReset : BusFetchState := ⟨false, false⟩

def busTcmFetchRd (fetchBusReadReq : Bool) (fetchBusAddr : Nat) : Bool :=
  fetchBusReadReq && inTcm fetchBusAddr

def busFetchNext (fetchBusReadReq : Bool) (fetchBusAddr : Nat) : BusFetchState where
  busFetchReadAck := fetchBusReadReq
  busTcmFetchRdR := busTcmFetchRd fetchBusReadReq fetchBusAddr

def busFetchData (s : BusFetchState) (tcmBusFetchData : Nat) : Nat :=
  if s.busTcmFetchRdR then tcmBusFetchData else 0

end DreamCore.Rtl
