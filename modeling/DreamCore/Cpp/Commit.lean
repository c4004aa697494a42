import DreamCore.Cpp.Rob
import DreamCore.Model.Retirement

/-!
# The commit stage of the C++ model (`commit.cpp`)

`commit::run` walks the reorder buffer with an id in a loop and queues its effects on
the other components.  A failed assertion ends the run without a result.  The contents
of the checkpoint that a misprediction restores are not looked at.
-/

namespace DreamCore.Cpp

open DreamCore.Model DreamCore.Rtl

/-- The members of `commit`. -/
structure CommitState where
  curState : CommitFsm
  robItem : RobItem
  robItemId : Nat
  restoreRobItemId : Nat
  interruptPc : Nat
  interruptId : Nat

/-- What `run` reads; `cause` is the answer of `interrupt_interface->get_cause`. -/
structure CommitInput where
  rob : Rob
  buffer : Nat → RobItem
  cause : Option Nat
  mstatus : Nat
  mtvec : Nat

/-- The members, the queued effects and the instructions counted so far. -/
structure CommitRun where
  state : CommitState
  effects : CommitEffects
  commitNum : Nat

/-! ## The register `mstatus` -/

/-- `setbit` of `csr_base` on a 32-bit value, with the filter of `mstatus`. -/
def setBit (value bit : Nat) (b : Bool) : Nat :=
  ((value &&& (2 ^ 32 - 1 - 2 ^ bit)) ||| b.toNat <<< bit) &&& 0x88

def mretMstatus (mstatus : Nat) : Nat := setBit mstatus 3 (mstatus.testBit 7)

def interruptMstatus (mstatus : Nat) : Nat :=
  setBit (setBit mstatus 7 (mstatus.testBit 3)) 3 false

/-! ## The normal state -/

section Normal

variable (c : CommitInput)

/-- A finished instruction without exception: pop it and hand its registers back. -/
def retireItem (r : CommitRun) (id : Nat) (e : RobItem) : CommitRun :=
  let released := if e.oldPhyRegIdValid then [e.oldPhyRegId] else []
  let written := if e.csrNewvalueValid then [(e.csrAddr, e.csrNewvalue)] else []
  { r with
    effects :=
      { r.effects with
        popped := r.effects.popped ++ [id]
        released := r.effects.released ++ released
        invalidated := r.effects.invalidated ++ released
        csrWrites := r.effects.csrWrites ++ written }
    commitNum := r.commitNum + 1 }

/-- The branch handling; `none` is the assertion that a predicted branch has a checkpoint. -/
def handleBranch (r : CommitRun) (e : RobItem) : Option CommitRun :=
  let nextPc := if e.bruJump then e.bruNextPc else (e.pc + 4) % 2 ^ 32
  let mret := if e.isMret then [(Csr.mstatus, mretMstatus c.mstatus)] else []
  let effects := { r.effects with csrWrites := r.effects.csrWrites ++ mret }
  if e.predicted then
    if e.bruJump = e.predictedJump ∧ (e.bruNextPc = e.predictedNextPc ∨ !e.predictedJump) then
      some { r with effects :=
        { effects with
          cpbufPops := effects.cpbufPops + 1
          predictorUpdates := effects.predictorUpdates ++ [predictorUpdate e true] } }
    else if e.checkpointIdValid then
      some { r with effects :=
        { effects with
          cpbufFlush := true
          predictorUpdates := effects.predictorUpdates ++ [predictorUpdate e false]
          restored := some e.checkpointId
          robFlush := true
          flush := true
          jump := some (e.bruJump, nextPc) } }
    else none
  else some { r with effects := { effects with jump := some (e.bruJump, nextPc) } }

/-- An exception leaves the normal state; the walk starts at the tail. -/
def handleException (r : CommitRun) : Option CommitRun :=
  c.rob.getTailId.map fun tail =>
    { r with
      state := { r.state with restoreRobItemId := tail, curState := .flush }
      effects := { r.effects with flush := true, nextState := .flush } }

/-- The loop over at most `n` entries, from the one `rob_item_id` names. -/
def retireLoop (firstId : Nat) : Nat → CommitRun → Option CommitRun
  | 0, r => some r
  | n + 1, r =>
      let id := r.state.robItemId
      let e := c.buffer id
      let r := { r with state := { r.state with robItem := e } }
      if e.finish then
        match c.rob.getNextId id with
        | none => none
        | some (nextId, inUse) =>
            let r :=
              { r with effects := { r.effects with committed := r.effects.committed ++ [id] } }
            if e.hasException then handleException c r
            else
              let r := retireItem r id e
              if e.bruOp then handleBranch c r e
              else
                let r := { r with state := { r.state with robItemId := nextId } }
                if !inUse || decide (nextId = firstId) then some r
                else retireLoop firstId n r
      else some r

def runNormal (s : CommitState) : Option CommitRun :=
  let start : CommitRun := ⟨s, CommitEffects.none, 0⟩
  match c.rob.getFrontId with
  | none => some start
  | some firstId =>
      match c.cause with
      | some cause =>
          c.rob.getTailId.map fun tail =>
            { start with
              state :=
                { s with
                  robItemId := firstId
                  robItem := c.buffer firstId
                  interruptId := cause
                  interruptPc := (c.buffer firstId).pc
                  restoreRobItemId := tail
                  curState := .interruptFlush }
              effects :=
                { CommitEffects.none with flush := true, nextState := .interruptFlush } }
      | none =>
          retireLoop c firstId commitWidth { start with state := { s with robItemId := firstId } }

end Normal

/-! ## The walk back -/

section Walk

variable (c : CommitInput) (s : CommitState)

/-- The writes that end a trap. -/
def trapCsrWrites : List (Nat × Nat) :=
  match s.curState with
  | .interruptFlush =>
      [(Csr.mepc, s.interruptPc), (Csr.mtval, 0), (Csr.mcause, 0x80000000 ||| s.interruptId),
        (Csr.mstatus, interruptMstatus c.mstatus)]
  | _ =>
      [(Csr.mepc, s.robItem.pc), (Csr.mtval, s.robItem.exceptionValue),
        (Csr.mcause, s.robItem.exceptionId)]

/-- One step of the walk in `flush` and `interrupt_flush`, which differ in the trap's
registers only. -/
def runFlush : Option CommitRun :=
  let e := c.buffer s.restoreRobItemId
  let undone := if e.oldPhyRegIdValid then [(e.newPhyRegId, e.oldPhyRegId)] else []
  let walking : CommitEffects :=
    { CommitEffects.none with undone := undone, flush := true, nextState := s.curState }
  let done : CommitRun :=
    { state := { s with curState := .normal }
      effects :=
        { walking with
          robFlush := true
          csrWrites := trapCsrWrites c s
          exceptionPc := some c.mtvec
          nextState := .normal }
      commitNum := 1 }
  match c.rob.getPrevId s.restoreRobItemId with
  | none => none
  | some (prevId, inUse) =>
      if s.restoreRobItemId = s.robItemId then some done
      else if inUse then some ⟨{ s with restoreRobItemId := prevId }, walking, 0⟩
      else some { done with state := { done.state with restoreRobItemId := prevId } }

def commitRun : Option CommitRun :=
  match s.curState with
  | .normal => runNormal c s
  | .flush => runFlush c s
  | .interruptFlush => runFlush c s

end Walk

end DreamCore.Cpp
