import DreamCore.Cpp.Rob
import DreamCore.Rtl.IssueQueue

/-!
# Selection of operations in the C++ model (`issue.cpp`, `issue_queue.h`)

`issue::run` walks its queue from the front on with an id in a loop and lists the ids of
the operations it takes.  The queue is a `fifo` with the id functions of the reorder
buffer.  A failed assertion ends the run without a result.
-/

namespace DreamCore.Cpp

open DreamCore.Rtl

structure IssueQueue extends Rob where
  buffer : Nat → IssueQueueItem

/-- The members of `issue` that the selection looks at. -/
structure IssueState where
  issueQ : IssueQueue
  isInstWaiting : Bool
  instWaitingRobId : Nat

/-- The variables of the loop; `i` is the length of `item_id_list`. -/
structure Selection where
  itemIdList : List Nat
  hasLsuOp : Bool
  hasCsrOp : Bool
  hasMretOp : Bool
  unitAvailable : OpUnit → Nat → Bool

section Select

variable (input : IssueQueueInput)

/-- The loop over the execute channels with `channels` left; it ends with the second
source. -/
def readyLoop (e : IssueQueueItem) : Nat → Bool → Bool → Bool × Bool
  | 0, src1Ready, src2Ready => (src1Ready, src2Ready)
  | channels + 1, src1Ready, src2Ready =>
      let channel := input.executeFeedbackPack (executeUnitNum - (channels + 1))
      if channel.enable then
        let src1Ready := src1Ready || decide (e.rs1Phy = channel.phyId)
        let src2Ready := src2Ready || decide (e.rs2Phy = channel.phyId)
        if src1Ready && src2Ready then (src1Ready, src2Ready)
        else readyLoop e channels src1Ready src2Ready
      else readyLoop e channels src1Ready src2Ready

def sourcesReady (e : IssueQueueItem) : Bool × Bool :=
  if !e.src1Loaded || !e.src2Loaded then
    readyLoop input e executeUnitNum e.src1Loaded e.src2Loaded
  else (e.src1Loaded, e.src2Loaded)

/-- `unit_index` if `unit_found`. -/
def unitFound (available : OpUnit → Nat → Bool) (u : OpUnit) : Option Nat :=
  (List.range (unitNum u)).find? (available u)

def takeUnit (available : OpUnit → Nat → Bool) (u : OpUnit) (index : Nat) : OpUnit → Nat → Bool :=
  fun v i => if v = u ∧ i = index then false else available v i

def selectFence (st : Selection) (e : IssueQueueItem) : Bool :=
  decide (e.op = .fence) &&
    (!input.stbufAllEmpty || !st.itemIdList.isEmpty ||
      decide (input.commitFeedbackPack.nextHandleRobId ≠ e.robId))

/-- The condition under which an operation is listed. -/
def selectTakes (st : Selection) (e : IssueQueueItem) : Bool :=
  (sourcesReady input e).1 && (sourcesReady input e).2 &&
    (unitFound st.unitAvailable e.opUnit).isSome &&
    (!st.hasLsuOp || decide (e.opUnit ≠ .lsu)) && (!st.hasCsrOp || decide (e.opUnit ≠ .csr)) &&
    (!st.hasMretOp || decide (e.op ≠ .mret)) && !selectFence input st e

/-- The variables after an operation that is looked at. -/
def selectNext (st : Selection) (id : Nat) (e : IssueQueueItem) : Selection where
  itemIdList := if selectTakes input st e then st.itemIdList ++ [id] else st.itemIdList
  hasLsuOp := st.hasLsuOp || decide (e.opUnit = .lsu)
  hasCsrOp := st.hasCsrOp || decide (e.opUnit = .csr)
  hasMretOp := st.hasMretOp || decide (e.op = .mret)
  unitAvailable :=
    if selectTakes input st e then
      takeUnit st.unitAvailable e.opUnit ((unitFound st.unitAvailable e.opUnit).getD 0)
    else st.unitAvailable

/-- One turn of the loop, and whether it goes on to the next id. -/
def selectTurn (q : IssueQueue) (st : Selection) (id : Nat) : Option (Selection × Bool) :=
  let e := q.buffer id
  if !q.checkIdValid id then none
  else if isSerialising e && !st.itemIdList.isEmpty then some (st, false)
  else if !input.commitFeedbackPack.enable then none
  else if isSerialising e && decide (input.commitFeedbackPack.nextHandleRobId ≠ e.robId) then
    some (st, false)
  else some (selectNext input st id e, !(isSerialising e || selectFence input st e))

/-- The loop, with the number of turns left. -/
def selectLoop (q : IssueQueue) (firstId : Nat) : Nat → Nat → Selection → Option Selection
  | 0, _, _ => none
  | turns + 1, id, st =>
      match selectTurn input q st id with
      | none => none
      | some (st, false) => some st
      | some (st, true) =>
          match q.getNextId id with
          | none => none
          | some (nextId, inUse) =>
              if inUse && decide (nextId ≠ firstId) && decide (st.itemIdList.length < issueWidth) then
                selectLoop q firstId turns nextId st
              else some st

def selectStart : Selection where
  itemIdList := []
  hasLsuOp := false
  hasCsrOp := false
  hasMretOp := false
  unitAvailable := fun u i => !input.issueFifoFull u i

def issueInstWaitingOk (c : IssueState) : Bool :=
  anyBit commitWidth fun i =>
    input.commitFeedbackPack.enable && input.commitFeedbackPack.committedRobIdValid i &&
      decide (input.commitFeedbackPack.committedRobId i = c.instWaitingRobId)

/-- `item_id_list` of a cycle. -/
def itemIdList (c : IssueState) : Option (List Nat) :=
  if input.commitFeedbackPack.enable && input.commitFeedbackPack.flush then some []
  else if !c.isInstWaiting || issueInstWaitingOk input c then
    match c.issueQ.getFrontId with
    | none => some []
    | some firstId =>
        (selectLoop input c.issueQ firstId c.issueQ.size firstId (selectStart input)).map
          Selection.itemIdList
  else some []

end Select

/-- The C++ members with the same content; the front never leaves slot 0, as the queue is
compressed towards it. -/
def issueOfRtl (s : IssueQueueState) : IssueState where
  issueQ := { toRob := ringOf issueQueueSize 0 s.wptr, buffer := s.buffer }
  isInstWaiting := s.isInstWaiting
  instWaitingRobId := s.instWaitingRobId

end DreamCore.Cpp
