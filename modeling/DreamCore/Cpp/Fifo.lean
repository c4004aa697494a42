import DreamCore.Cpp.Rob

/-!
# The queue class of the simulator (`fifo.h`)

The class keeps the slot and the stage bit of its two pointers apart and, for the cycle
accurate queries, a saved copy of the read pointer.  `pop_status_save` decides which of the
two the size queries look at.  The constructor leaves the saved copy and the buffer as they
are found.
-/

namespace DreamCore.Cpp

open DreamCore.Ring

structure Fifo (α : Type) extends Rob where
  buffer : Nat → α
  popStatusSave : Bool
  rptrSaved : Nat
  rstageSaved : Bool

inductive FifoCall (α : Type)
  | push (element : α)
  | pop
  | flush
  | reset
  | setPopStatusSave (value : Bool)
  | resetPopStatus
  deriving DecidableEq

/-- What a call returns; `popped none` is a `pop` that returned false. -/
inductive FifoResult (α : Type)
  | pushed (ok : Bool)
  | popped (element : Option α)
  | done
  deriving DecidableEq

section Fifo

variable {α : Type} (f : Fifo α)

/-- The constructor, with what the members it does not set were before. -/
def Fifo.new (size : Nat) (buffer : Nat → α) (rptrSaved : Nat) (rstageSaved : Bool) : Fifo α where
  size := size
  wptr := 0
  wstage := false
  rptr := 0
  rstage := false
  buffer := buffer
  popStatusSave := false
  rptrSaved := rptrSaved
  rstageSaved := rstageSaved

def Fifo.isEmpty : Bool := f.toRob.isEmpty

def Fifo.isFull : Bool :=
  if f.popStatusSave then decide (f.rptrSaved = f.wptr) && decide (f.rstageSaved ≠ f.wstage)
  else decide (f.rptr = f.wptr) && decide (f.rstage ≠ f.wstage)

/-- The sum and the difference are 32-bit words. -/
def Fifo.getSize : Nat :=
  if f.isFull then f.size
  else if f.popStatusSave then ((f.wptr + f.size + 2 ^ 32 - f.rptrSaved) % 2 ^ 32) % f.size
  else ((f.wptr + f.size + 2 ^ 32 - f.rptr) % 2 ^ 32) % f.size

def Fifo.getRemainSpace : Nat := f.size - f.getSize

def Fifo.flush : Fifo α :=
  { f with wptr := 0, wstage := false, rptr := 0, rstage := false }

def Fifo.reset : Fifo α :=
  { f with wptr := 0, wstage := false, rptr := 0, rstage := false }

def Fifo.push (element : α) : Fifo α × Bool :=
  if f.isFull then (f, false)
  else
    ({ f with
        buffer := fun i => if i = f.wptr then element else f.buffer i
        wptr := if f.wptr + 1 ≥ f.size then 0 else f.wptr + 1
        wstage := if f.wptr + 1 ≥ f.size then !f.wstage else f.wstage }, true)

def Fifo.pop : Fifo α × Option α :=
  if f.isEmpty then (f, none)
  else
    ({ f with
        rptr := if f.rptr + 1 ≥ f.size then 0 else f.rptr + 1
        rstage := if f.rptr + 1 ≥ f.size then !f.rstage else f.rstage }, some (f.buffer f.rptr))

def Fifo.resetPopStatus : Fifo α :=
  { f with rptrSaved := f.rptr, rstageSaved := f.rstage }

def Fifo.setPopStatusSave (value : Bool) : Fifo α :=
  Fifo.resetPopStatus { f with popStatusSave := value }

def Fifo.call : FifoCall α → Fifo α × FifoResult α
  | .push element => ((f.push element).1, .pushed (f.push element).2)
  | .pop => (f.pop.1, .popped f.pop.2)
  | .flush => (f.flush, .done)
  | .reset => (f.reset, .done)
  | .setPopStatusSave value => (f.setPopStatusSave value, .done)
  | .resetPopStatus => (f.resetPopStatus, .done)

end Fifo

end DreamCore.Cpp
