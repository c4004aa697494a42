import DreamCore.Rtl.Commit

/-!
# The reorder buffer as an in-order list

The entries in flight, oldest first, each with whatever a development wants to
remember about its instruction.  Ids count up from the head around the ring; an
id that is not in flight reads as anything.
-/

namespace DreamCore.Model

open DreamCore.Rtl

structure Entry (γ : Type) where
  item : RobItem
  tag : γ

structure IdealRob (γ : Type) where
  headId : Nat
  entries : List (Entry γ)

variable {γ : Type}

namespace IdealRob

variable (r : IdealRob γ)

/-- The id of the entry at position `k`. -/
def idAt (k : Nat) : Nat := (r.headId + k) % robSize

/-- The position an id would have. -/
def indexOf (id : Nat) : Nat := (id + robSize - r.headId) % robSize

def inRange (id : Nat) : Bool := decide (r.indexOf id < r.entries.length)

def flushTailId : Nat := (r.headId + r.entries.length + robSize - 1) % robSize

/-- What commit sees; `stale` is the content of entries that are not in flight. -/
def view (stale : Nat → RobItem) : RobView where
  data := fun id => ((r.entries[r.indexOf id]?).map (·.item)).getD (stale id)
  retireIdValid := r.inRange
  retireHeadId := r.headId
  nextIdValid := fun id => r.inRange id && decide (id ≠ r.headId)
  flushTailId := r.flushTailId
  flushNextIdValid := fun id =>
    r.inRange (robCommitFlushNextId id) && decide (robCommitFlushNextId id ≠ r.flushTailId)
  empty := r.entries.isEmpty

/-- Grants are exact: channel `i` is granted while an entry is free for it. -/
def newIdValid (i : Nat) : Bool := decide (r.entries.length + i < robSize)

def newId (i : Nat) : Nat := r.idAt (r.entries.length + i)

/-- One cycle: rewrite the entries in place, pop from the front, push at the back. -/
def next (update : Nat → Entry γ → Entry γ) (pops : Nat) (pushed : List (Entry γ))
    (flush : Bool) : IdealRob γ where
  headId := if flush then 0 else (r.headId + pops) % robSize
  entries := if flush then [] else (r.entries.mapIdx update).drop pops ++ pushed

def WellFormed : Prop := r.headId < robSize ∧ r.entries.length ≤ robSize

end IdealRob

/-- What write-back stores into the entry with this id, if it writes it. -/
def robItemWritten (s : CommitState) (c : CommitInput) (id : Nat) (item : RobItem) : RobItem :=
  let cmp := fun j => decide ((c.wbCommitPortDataOut j).robId = id) && commitRobInputDataWe s c j
  if anyBit wbWidth cmp then dataSelector wbWidth cmp (inputRobItem c) else item

/-- The number of entries popped in this cycle. -/
def popCount (s : CommitState) (c : CommitInput) : Nat :=
  countOne commitWidth (commitRobRetirePop s c)

end DreamCore.Model
