import DreamCore.Model.FrontEnd
import DreamCore.Rtl.Clint

/-!
# The path of a load

Load/store unit, store buffer and commit as before, now with the data side of the bus,
the data copy of the memory and the interruptor in place of the bus inputs.
-/

namespace DreamCore.Model

open DreamCore.Bytes DreamCore.Clocked DreamCore.Rtl

structure LoadPathState where
  loadStore : LoadStoreState
  bus : BusStbufState
  tcm : TcmCopy
  clint : ClintState

def loadPathReset (mem : Nat → Nat → BitVec 8) (outData : Nat → BitVec 8)
    (robBuffer : Nat → RobItem) (buffer : Nat → StoreBufferItem) : LoadPathState where
  loadStore := loadStoreRtlReset robBuffer buffer
  bus := busStbufReset
  tcm := tcmCopyReset mem outData
  clint := clintReset

section Cycle

variable (s : LoadPathState) (input : LoadStoreInput)

/-- The bus answers instead of the inputs. -/
def loadPathInput : LoadStoreInput :=
  { input with
    busStbufData := busStbufData s.bus (tcmBusData s.tcm) s.clint.clintBusData
    busStbufReadAck := s.bus.busStbufReadAck }

def loadPathStbufInput : StoreBufferInput := loadStoreStbufInput s.loadStore (loadPathInput s input)

def loadPathExecuteInput : ExecuteLsuInput :=
  loadStoreExecuteInput s.loadStore (loadPathInput s input)

/-- `stbuf_bus_read_addr`, `stbuf_bus_read_size` and `stbuf_bus_read_req`. -/
def loadPathRead : BusAccess :=
  let x := loadPathStbufInput s input
  ⟨x.issueStbufReadAddr, x.issueStbufReadSize, x.issueStbufRd⟩

def loadPathWrite : BusAccess :=
  let item := stbufCurItem s.loadStore.stbuf
  ⟨item.addr, item.size,
    stbufBusWriteReq s.loadStore.stbuf (loadStoreFeedback s.loadStore (loadPathInput s input))⟩

def loadPathTcmWrite : TcmWrite :=
  let write := loadPathWrite s input
  busTcmWrite write.req write.addr write.size (stbufCurItem s.loadStore.stbuf).data

def loadPathNext : LoadPathState :=
  let read := loadPathRead s input
  let write := loadPathWrite s input
  { loadStore := loadStoreNext s.loadStore (loadPathInput s input)
    bus := busStbufNext read write
    tcm := tcmCopyNext s.tcm (busTcmAddr read.addr) (busTcmStbufRd read) (loadPathTcmWrite s input)
    clint := clintNext s.clint
      (busClintInput read write (stbufCurItem s.loadStore.stbuf).data) }

/-! ## What an outside observer sees -/

def loadPathBusWrites : List StoreWrite := busWrites s.loadStore (loadPathInput s input)

def loadPathRetiredStores : List StoreWrite := retiredStores s.loadStore (loadPathInput s input)

/-- The load in the FIFO hands its result on. -/
def loadCompletes : Bool :=
  let x := loadPathExecuteInput s input
  x.instValid && isLoad x.revPack.subOp && !x.revPack.hasException && x.lsuWbPortWe

/-- What an issued store without a misalignment will write. -/
def olderWrite (e : Entry LsuInFlight) : Option StoreWrite :=
  if isStore e.tag.op then
    e.tag.issued.bind fun p => if p.hasException then none else some (packWrite p)
  else none

/-! ## The assumptions on a cycle -/

/-- What decode leaves of a load or store is one of the eight. -/
def LsuDecoded (op : DecodeRenamePack) : Prop :=
  op.valid = true → op.opUnit = .lsu → op.subOp ≤ LsuOp.sw

structure LoadPathAllowed : Prop where
  loadStore : LoadStoreAllowed s.loadStore (loadPathInput s input)
  decoded : ∀ x ∈ input.renamed, LsuDecoded x.2

end Cycle

/-! ## The value of a load -/

/-- The result of a load whose bytes are `byte 0`, `byte 1`, …: extended as its
operation says. -/
def loadValue (subOp : Nat) (byte : Nat → BitVec 8) : Nat :=
  if subOp = LsuOp.lb then signExtend 8 (ofBytes byte 1)
  else if subOp = LsuOp.lbu then ofBytes byte 1
  else if subOp = LsuOp.lh then signExtend 16 (ofBytes byte 2)
  else if subOp = LsuOp.lhu then ofBytes byte 2
  else ofBytes byte 4

end DreamCore.Model
