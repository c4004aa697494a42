import DreamCore.Cpp.Fifo

/-!
# A bounded queue whose popped elements may still count

The purpose of the simulator's queue class: elements leave in the order they came, and at
most `size` of them count as present.  While `saving` is on, an element that was popped goes
on counting until the pop status is reset, as it would in hardware until the clock edge.
-/

namespace DreamCore.Model

open DreamCore.Cpp

structure BoundedQueue (α : Type) where
  size : Nat
  unread : List α
  /-- Popped elements that still count. -/
  kept : List α
  saving : Bool

section BoundedQueue

variable {α : Type} (q : BoundedQueue α)

def BoundedQueue.empty (size : Nat) : BoundedQueue α := ⟨size, [], [], false⟩

def BoundedQueue.counted : Nat := q.kept.length + q.unread.length

def BoundedQueue.push (element : α) : BoundedQueue α × Bool :=
  if q.counted = q.size then (q, false)
  else ({ q with unread := q.unread ++ [element] }, true)

def BoundedQueue.pop : BoundedQueue α × Option α :=
  match q.unread with
  | [] => (q, none)
  | x :: xs => ({ q with unread := xs, kept := if q.saving then q.kept ++ [x] else [] }, some x)

def BoundedQueue.call : FifoCall α → BoundedQueue α × FifoResult α
  | .push element => ((q.push element).1, .pushed (q.push element).2)
  | .pop => (q.pop.1, .popped q.pop.2)
  | .flush | .reset => ({ q with unread := [], kept := [] }, .done)
  | .setPopStatusSave value => ({ q with saving := value, kept := [] }, .done)
  | .resetPopStatus => ({ q with kept := [] }, .done)

end BoundedQueue

end DreamCore.Model
