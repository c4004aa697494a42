import DreamCore.Rtl.Ras

/-!
# Return address stack of the C++ model (`ras.h`, `stack.h`)

The branch predictor pops before it pushes.  An empty stack answers with the address that
left it last.
-/

namespace DreamCore.Cpp

open DreamCore.Rtl

structure RasItem where
  addr : Nat
  cnt : Nat
  deriving DecidableEq

structure Ras where
  buffer : Nat → RasItem
  topPtr : Nat
  lastAddr : Nat

/-- After `reset`; the buffer itself is not initialised. -/
def Ras.reset (buffer : Nat → RasItem) : Ras := ⟨buffer, 0, 0⟩

section Ras

variable (size : Nat) (r : Ras) (addr : Nat)

def Ras.isEmpty : Bool := decide (r.topPtr = 0)

def Ras.isFull : Bool := decide (r.topPtr = size)

def Ras.getTop : Option RasItem := if r.isEmpty then none else some (r.buffer (r.topPtr - 1))

def Ras.setItem (id : Nat) (item : RasItem) : Ras :=
  { r with buffer := fun i => if i = id then item else r.buffer i }

/-- `stack::push`, which does nothing on a full stack. -/
def Ras.push (item : RasItem) : Ras :=
  if r.isFull size then r
  else { r.setItem r.topPtr item with topPtr := r.topPtr + 1 }

/-- The loop moves the entries below the top down by one. -/
def Ras.throwPush (item : RasItem) : Ras :=
  { r with
    buffer := fun i =>
      if i = r.topPtr - 1 then item
      else if i + 1 < r.topPtr then r.buffer (i + 1)
      else r.buffer i }

def Ras.pushAddr : Ras :=
  match r.getTop with
  | some top =>
      if top.addr = addr ∧ top.cnt < 0xFFFFFFFF then
        r.setItem (r.topPtr - 1) { top with cnt := top.cnt + 1 }
      else if r.isFull size then r.throwPush ⟨addr, 1⟩
      else r.push size ⟨addr, 1⟩
  | none => if r.isFull size then r.throwPush ⟨addr, 1⟩ else r.push size ⟨addr, 1⟩

def Ras.popAddr : Ras × Nat :=
  match r.getTop with
  | some top =>
      if top.cnt = 1 then ({ r with topPtr := r.topPtr - 1, lastAddr := top.addr }, top.addr)
      else (r.setItem (r.topPtr - 1) { top with cnt := (top.cnt + (2 ^ 32 - 1)) % 2 ^ 32 }, top.addr)
  | none => (r, r.lastAddr)

/-- A cycle of the branch predictor. -/
def rasCycle (x : RasInput) : Ras :=
  let popped := if x.bpRasPop then r.popAddr.1 else r
  if x.bpRasPush then popped.pushAddr size x.bpRasAddr else popped

/-- The address the trace publishes. -/
def Ras.bpAddr : Nat :=
  match r.getTop with
  | some top => top.addr
  | none => r.lastAddr

end Ras

end DreamCore.Cpp
