import DreamCore.Cpp.Fifo

/-!
# Compaction of the issue queue (`issue_queue.h`)

`compress` walks the queue from the front.  From the first listed item on it copies every
item that is not listed to the next free place, and it leaves the write pointer behind the
last copy.  A failed assertion ends the call without a result.
-/

namespace DreamCore.Cpp

section Compress

variable {α : Type} (f : Fifo α)

/-- The `get_size` of the issue queue, which hides that of `fifo`. -/
def Fifo.getQueueSize : Nat :=
  if f.isFull then f.size else ((f.wptr + f.size + 2 ^ 32 - f.rptr) % 2 ^ 32) % f.size

def Fifo.getItem (id : Nat) : Option α := if f.checkIdValid id then some (f.buffer id) else none

def Fifo.setItem (id : Nat) (value : α) : Option (Fifo α) :=
  if f.checkIdValid id then
    some { f with buffer := fun i => if i = id then value else f.buffer i }
  else none

/-- The next id, its stage, and whether it is in use. -/
def Fifo.getNextIdStage (id : Nat) (stage : Bool) : Option (Nat × Bool × Bool) :=
  if f.checkIdValid id then
    some ((id + 1) % f.size, decide (id + 1 ≥ f.size) != stage, f.checkIdValid ((id + 1) % f.size))
  else none

/-- The variables of the loop, without `cur_id` and `cur_stage`. -/
structure CompressVars where
  newWptr : Nat
  newWstage : Bool
  nextId : Nat
  invalidItemFound : Bool
  i : Nat

/-- One turn of the loop at `cur_id`. -/
def compressTurn (itemIdList : List Nat) (f : Fifo α) (v : CompressVars) (curId : Nat)
    (curStage : Bool) : Option (Fifo α × CompressVars) :=
  let listed := decide (itemIdList[v.i]? = some curId)
  if !v.invalidItemFound then
    if listed then
      some (f, { v with
        invalidItemFound := true, i := v.i + 1, nextId := curId, newWptr := curId,
        newWstage := curStage })
    else some (f, v)
  else if listed then some (f, { v with i := v.i + 1 })
  else do
    let item ← f.getItem curId
    let f ← f.setItem v.nextId item
    let (newWptr, newWstage, _) ← f.getNextIdStage v.nextId v.newWstage
    return (f, { v with newWptr := newWptr, newWstage := newWstage, nextId := newWptr })

/-- The loop, with the number of turns left. -/
def compressLoop (itemIdList : List Nat) (firstId : Nat) :
    Nat → Fifo α → CompressVars → Nat → Bool → Option (Fifo α × CompressVars)
  | 0, _, _, _, _ => none
  | turns + 1, f, v, curId, curStage => do
      let (f, v) ← compressTurn itemIdList f v curId curStage
      let (nextId, nextStage, inUse) ← f.getNextIdStage curId curStage
      if inUse && decide (nextId ≠ firstId) then
        compressLoop itemIdList firstId turns f v nextId nextStage
      else return (f, v)

def Fifo.compress (itemIdList : List Nat) : Option (Fifo α) :=
  match f.getFrontId with
  | some firstId =>
      if itemIdList.length > 0 then do
        let v : CompressVars := ⟨firstId, f.rstage, firstId, false, 0⟩
        let (f, v) ← compressLoop itemIdList firstId f.size f v firstId f.rstage
        return { f with wptr := v.newWptr, wstage := v.newWstage }
      else some f
  | none => some f

end Compress

end DreamCore.Cpp
