import DreamCore.Rtl.Basic
import Mathlib.Data.Nat.Log

/-!
# Return address stack (`ras.sv`)

A stack of addresses, each with the number of its copies, so that a deep recursion takes
one entry.  A cycle may push, pop, or replace the head by doing both.
-/

namespace DreamCore.Rtl

structure RasState where
  buffer : Nat → Nat
  bufferCnt : Nat → Nat
  topPtr : Nat

structure RasInput where
  bpRasAddr : Nat
  bpRasPush : Bool
  bpRasPop : Bool
  deriving DecidableEq

def rasReset : RasState where
  buffer := fun _ => 0
  bufferCnt := fun _ => 0
  topPtr := 0

/-- What the combinational block decides. -/
structure RasControl where
  topPtrNext : Nat
  needCntAdd : Bool
  needThrow : Bool
  needCntSub : Bool

section Ras

variable (depth : Nat) (s : RasState) (x : RasInput)

def rasControl : RasControl :=
  if x.bpRasPush && !x.bpRasPop then
    if s.topPtr = 0 then ⟨s.topPtr + 1, false, false, false⟩
    else if x.bpRasAddr = s.buffer (s.topPtr - 1) ∧ s.bufferCnt (s.topPtr - 1) < 0xffffffff then
      ⟨s.topPtr, true, false, false⟩
    else if s.topPtr < depth then ⟨s.topPtr + 1, false, false, false⟩
    else ⟨s.topPtr, false, true, false⟩
  else if !x.bpRasPush && x.bpRasPop then
    if s.topPtr = 0 then ⟨s.topPtr, false, false, false⟩
    else if s.bufferCnt (s.topPtr - 1) > 1 then ⟨s.topPtr, false, false, true⟩
    else ⟨s.topPtr - 1, false, false, false⟩
  else if x.bpRasPush && x.bpRasPop then
    if s.topPtr = 0 then ⟨s.topPtr + 1, false, false, false⟩
    else if x.bpRasAddr = s.buffer (s.topPtr - 1) then ⟨s.topPtr, false, false, false⟩
    else if s.bufferCnt (s.topPtr - 1) > 1 then ⟨s.topPtr + 1, false, false, true⟩
    else ⟨s.topPtr, false, false, false⟩
  else ⟨s.topPtr, false, false, false⟩

/-- Entry `i` is the first free one and takes the address. -/
def rasAppend (i : Nat) : Bool :=
  decide (i = s.topPtr) && x.bpRasPush &&
    (!x.bpRasPop || decide (s.topPtr ≠ (rasControl depth s x).topPtrNext))

/-- Entry `i` is the head and the address replaces it. -/
def rasReplace (i : Nat) : Bool :=
  decide (i + 1 = s.topPtr) && x.bpRasPush && x.bpRasPop && decide (x.bpRasAddr ≠ s.buffer i)

def rasBufferCntNext (i : Nat) : Nat :=
  let c := rasControl depth s x
  if i + 1 = s.topPtr ∧ (c.needCntAdd || c.needCntSub) = true then
    if c.needCntAdd then (s.bufferCnt i + 1) % 2 ^ 32 else (s.bufferCnt i + (2 ^ 32 - 1)) % 2 ^ 32
  else if c.needThrow then if i = depth - 1 then 1 else s.bufferCnt (i + 1)
  else if rasAppend depth s x i then 1
  else if rasReplace s x i then 1
  else s.bufferCnt i

def rasBufferNext (i : Nat) : Nat :=
  if (rasControl depth s x).needThrow then
    if i = depth - 1 then x.bpRasAddr else s.buffer (i + 1)
  else if rasAppend depth s x i then x.bpRasAddr
  else if rasReplace s x i && decide (s.bufferCnt i = 1) then x.bpRasAddr
  else s.buffer i

/-- The stack after the cycle; there are no entries from `depth` on. -/
def rasNext : RasState where
  buffer := fun i => if i < depth then rasBufferNext depth s x i else s.buffer i
  bufferCnt := fun i => if i < depth then rasBufferCntNext depth s x i else s.bufferCnt i
  topPtr := (rasControl depth s x).topPtrNext % 2 ^ (Nat.clog 2 depth + 1)

def rasCsrfRasFullAdd : Bool := (rasControl depth s x).needThrow

def rasBpAddr : Nat := if s.topPtr > 0 then s.buffer (s.topPtr - 1) else s.buffer 0

end Ras

end DreamCore.Rtl
