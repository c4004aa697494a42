import DreamCore.Rtl.Types
import Mathlib.Data.Nat.Bitwise

/-!
# Store buffer (`store_buffer.sv`)

A ring of executed stores.  Commit marks the entries whose instruction retires, the
head leaves for the bus once it is marked, a flush cuts the ring behind the last
entry that is marked or being marked.  A load's bus data is overlaid with the
buffered stores, oldest first.
-/

namespace DreamCore.Rtl

open DreamCore.Ring

structure StoreBufferItem where
  enable : Bool
  committed : Bool
  robId : Nat
  addr : Nat
  data : Nat
  size : Nat
  deriving DecidableEq

structure StoreBufferState where
  buffer : Nat → StoreBufferItem
  rptr : Nat
  wptr : Nat
  issueStbufReadRegLock : Bool
  issueStbufReadAddrR : Nat
  issueStbufReadSizeR : Nat

structure StoreBufferInput where
  issueStbufReadAddr : Nat
  issueStbufReadSize : Nat
  issueStbufRd : Bool
  exlsuStbufRobId : Nat
  exlsuStbufWriteAddr : Nat
  exlsuStbufWriteSize : Nat
  exlsuStbufWriteData : Nat
  exlsuStbufPush : Bool
  busStbufReadAck : Bool
  commitFeedbackPack : CommitFeedbackPack

def storeBufferReset (buffer : Nat → StoreBufferItem) : StoreBufferState where
  buffer := buffer
  rptr := 0
  wptr := 0
  issueStbufReadRegLock := false
  issueStbufReadAddrR := 0
  issueStbufReadSizeR := 0

/-- Commit flushes the pipeline behind it. -/
def CommitFeedbackPack.flushing (fb : CommitFeedbackPack) : Bool := fb.enable && fb.flush

section StoreBuffer

variable (s : StoreBufferState) (input : StoreBufferInput) (fb : CommitFeedbackPack)

def stbufExlsuFull : Bool :=
  decide (stage storeBufferSize s.rptr ≠ stage storeBufferSize s.wptr) &&
    decide (slot storeBufferSize s.rptr = slot storeBufferSize s.wptr)

def stbufAllEmpty : Bool := decide (s.rptr = s.wptr)

/-! ## Commitment -/

def readyToCommitCmp (i j : Nat) : Bool :=
  ptrInRange storeBufferSize i s.rptr s.wptr && fb.committedRobIdValid j &&
    decide (fb.committedRobId j = (s.buffer i).robId)

def readyToCommit (i : Nat) : Bool := anyBit commitWidth (readyToCommitCmp s fb i)

/-- The slot `i` entries behind the head. -/
def flushCurPtr (i : Nat) : Nat := slot storeBufferSize (s.rptr + i)

def flushCommitCmp (i : Nat) : Bool :=
  ptrInRange storeBufferSize (flushCurPtr s i) s.rptr s.wptr &&
    (!fb.enable || !readyToCommit s fb (flushCurPtr s i)) &&
    !(s.buffer (flushCurPtr s i)).committed

def flushCommitIndex : Nat := priorityFinderFirst storeBufferSize (flushCommitCmp s fb)

def flushNextWptr : Nat :=
  if anyBit storeBufferSize (flushCommitCmp s fb) then
    (s.rptr + flushCommitIndex s fb) % (2 * storeBufferSize)
  else s.wptr

/-! ## Towards the bus -/

def stbufCurItem : StoreBufferItem := s.buffer (slot storeBufferSize s.rptr)

def stbufBusWriteReq : Bool :=
  (stbufCurItem s).enable && (stbufCurItem s).committed && !fb.flushing && !stbufAllEmpty s

/-! ## Registers -/

def stbufRptrNext : Nat :=
  if stbufAllEmpty s then s.rptr
  else if stbufBusWriteReq s fb then (s.rptr + 1) % (2 * storeBufferSize)
  else s.rptr

def stbufWptrNext : Nat :=
  if input.commitFeedbackPack.flushing then flushNextWptr s input.commitFeedbackPack
  else if stbufExlsuFull s then s.wptr
  else if input.exlsuStbufPush then (s.wptr + 1) % (2 * storeBufferSize)
  else s.wptr

def stbufNewItem : StoreBufferItem where
  enable := true
  committed := false
  robId := input.exlsuStbufRobId
  addr := input.exlsuStbufWriteAddr
  data := input.exlsuStbufWriteData
  size := input.exlsuStbufWriteSize

def stbufBufferNext (i : Nat) : StoreBufferItem :=
  if input.exlsuStbufPush && !stbufExlsuFull s && decide (i = slot storeBufferSize s.wptr) then
    stbufNewItem input
  else if input.commitFeedbackPack.enable && readyToCommit s input.commitFeedbackPack i then
    { s.buffer i with committed := true }
  else s.buffer i

/-- A read is registered unless an unanswered one holds the register. -/
def stbufReadRegLoad : Bool :=
  input.issueStbufRd && (!s.issueStbufReadRegLock || input.busStbufReadAck)

def storeBufferNext : StoreBufferState where
  buffer := stbufBufferNext s input
  rptr := stbufRptrNext s input.commitFeedbackPack
  wptr := stbufWptrNext s input
  issueStbufReadRegLock :=
    if stbufReadRegLoad s input then true
    else if input.busStbufReadAck then false
    else s.issueStbufReadRegLock
  issueStbufReadAddrR :=
    if stbufReadRegLoad s input then input.issueStbufReadAddr else s.issueStbufReadAddrR
  issueStbufReadSizeR :=
    if stbufReadRegLoad s input then input.issueStbufReadSize else s.issueStbufReadSizeR

/-! ## Overlay of buffered stores -/

/-- The end of the registered read, in 32 bits. -/
def feedbackReadEnd : Nat := (s.issueStbufReadAddrR + s.issueStbufReadSizeR) % 2 ^ 32

def feedbackBitMask (bitLength : Nat) : BitVec 128 := 1#128 <<< bitLength - 1#128

/-- One link of the chain: the store at distance `i` from the head over `dataIn`. -/
def feedbackOverlay (i : Nat) (dataIn : BitVec 128) : BitVec 128 :=
  let item := s.buffer (flushCurPtr s i)
  let itemEnd := (item.addr + item.size) % 2 ^ 32
  if ptrInRange storeBufferSize (flushCurPtr s i) s.rptr s.wptr then
    if s.issueStbufReadAddrR ≤ item.addr ∧ item.addr < feedbackReadEnd s then
      let bitOffset := 8 * (item.addr - s.issueStbufReadAddrR)
      let bitMask := feedbackBitMask (8 * min item.size (feedbackReadEnd s - item.addr))
      dataIn &&& ~~~(bitMask <<< bitOffset) |||
        (BitVec.ofNat 128 item.data &&& bitMask) <<< bitOffset
    else if item.addr < s.issueStbufReadAddrR ∧ s.issueStbufReadAddrR < itemEnd then
      let bitOffset := 8 * (s.issueStbufReadAddrR - item.addr)
      let bitMask :=
        feedbackBitMask (8 * min s.issueStbufReadSizeR (itemEnd - s.issueStbufReadAddrR))
      dataIn &&& ~~~bitMask ||| BitVec.ofNat 128 item.data >>> bitOffset &&& bitMask
    else dataIn
  else dataIn

def feedbackData (busStbufData : BitVec 32) : Nat → BitVec 128
  | 0 => feedbackOverlay s 0 (busStbufData.setWidth 128)
  | i + 1 => feedbackOverlay s (i + 1) (feedbackData busStbufData i)

def stbufExlsuBusDataFeedback (busStbufData : BitVec 32) : BitVec 128 :=
  feedbackData s busStbufData (storeBufferSize - 1)

end StoreBuffer

end DreamCore.Rtl
