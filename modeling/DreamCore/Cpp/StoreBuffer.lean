import DreamCore.Cpp.Rob
import DreamCore.Rtl.StoreBuffer

/-!
# Store buffer of the C++ model (`store_buffer.h`)

A `fifo` with the id functions of the reorder buffer.  `get_feedback_value` goes over
the buffered stores from the oldest on and lays each over the bus value.
-/

namespace DreamCore.Cpp

open DreamCore.Ring DreamCore.Rtl

structure StoreBuffer extends Rob where
  buffer : Nat → StoreBufferItem

/-- One turn of the loop of `get_feedback_value`; sums wrap as `uint32_t` does. -/
def feedbackItem (curItem : StoreBufferItem) (addr size : Nat) (result : BitVec 32) : BitVec 32 :=
  let readEnd := (addr + size) % 2 ^ 32
  let itemEnd := (curItem.addr + curItem.size) % 2 ^ 32
  if addr ≤ curItem.addr ∧ curItem.addr < readEnd then
    let bitOffset := (curItem.addr - addr) <<< 3
    let bitLength := min curItem.size (readEnd - curItem.addr) <<< 3
    let bitMask := if bitLength = 32 then 0xffffffff#32 else 1#32 <<< bitLength - 1#32
    result &&& ~~~(bitMask <<< bitOffset) |||
      (BitVec.ofNat 32 curItem.data &&& bitMask) <<< bitOffset
  else if curItem.addr < addr ∧ addr < itemEnd then
    let bitOffset := (addr - curItem.addr) <<< 3
    let bitLength := min size (itemEnd - addr) <<< 3
    let bitMask := if bitLength = 32 then 0xffffffff#32 else 1#32 <<< bitLength - 1#32
    result &&& ~~~bitMask ||| BitVec.ofNat 32 curItem.data >>> bitOffset &&& bitMask
  else result

/-- The loop, with the number of turns left; `none` is a failed assertion. -/
def StoreBuffer.feedbackLoop (sb : StoreBuffer) (addr size firstId : Nat) :
    Nat → Nat → BitVec 32 → Option (BitVec 32)
  | 0, _, _ => none
  | turns + 1, curId, result =>
      if sb.checkIdValid curId then
        let result := feedbackItem (sb.buffer curId) addr size result
        (sb.getNextId curId).bind fun next =>
          if next.2 && decide (next.1 ≠ firstId) then
            sb.feedbackLoop addr size firstId turns next.1 result
          else some result
      else none

def StoreBuffer.getFeedbackValue (sb : StoreBuffer) (addr size : Nat) (busValue : BitVec 32) :
    Option (BitVec 32) :=
  match sb.getFrontId with
  | none => some busValue
  | some firstId => sb.feedbackLoop addr size firstId sb.size firstId busValue

/-- The C++ store buffer with the same stores. -/
def storeBufferOfRtl (s : StoreBufferState) : StoreBuffer where
  toRob := ringOf storeBufferSize s.rptr s.wptr
  buffer := s.buffer

end DreamCore.Cpp
