import DreamCore.Rtl.Commit

/-!
# What a commit cycle does to the rest of the core

The effects of one cycle as lists, oldest instruction first: what the hardware drives
on its output channels, and what retiring the finished instructions one by one from
the head of the reorder buffer would do.
-/

namespace DreamCore.Model

open DreamCore.Ring DreamCore.Rtl

structure PredictorUpdate where
  pc : Nat
  instruction : Nat
  jump : Bool
  nextPc : Nat
  hit : Bool
  deriving DecidableEq

/-- `released` goes to the alias table and `invalidated` to the register file; `restored`
is the checkpoint the register map goes back to, `undone` the new and old register of a
walk step, `jump` the direction and the target reported to fetch. -/
@[ext] structure CommitEffects where
  popped : List Nat
  released : List Nat
  invalidated : List Nat
  csrWrites : List (Nat × Nat)
  committed : List Nat
  cpbufPops : Nat
  cpbufFlush : Bool
  predictorUpdates : List PredictorUpdate
  restored : Option Nat
  undone : List (Nat × Nat)
  robFlush : Bool
  flush : Bool
  exceptionPc : Option Nat
  jump : Option (Bool × Nat)
  nextState : CommitFsm
  deriving DecidableEq

def CommitEffects.none : CommitEffects where
  popped := []
  released := []
  invalidated := []
  csrWrites := []
  committed := []
  cpbufPops := 0
  cpbufFlush := false
  predictorUpdates := []
  restored := Option.none
  undone := []
  robFlush := false
  flush := false
  exceptionPc := Option.none
  jump := Option.none
  nextState := .normal

/-! ## The hardware -/

section Hardware

variable (s : CommitState) (c : CommitInput)

/-- The slots of a retire bundle that satisfy a condition. -/
def slots (v : Nat → Bool) : List Nat := (List.range commitWidth).filter v

def commitBpValid (i : Nat) : Bool :=
  retireGate s c && commitRobRetireValid s c i && !(retireData c i).hasException &&
    retireIsPredictedCmp s c i

def predictorUpdate (e : RobItem) (hit : Bool) : PredictorUpdate :=
  ⟨e.pc, e.instValue, e.bruJump, e.bruNextPc, hit⟩

def hardwareEffects : CommitEffects :=
  let fb := commitFeedbackPack s c
  { popped := (slots (commitRobRetirePop s c)).map (retireId c)
    released := (slots fun i =>
      commitRatReleaseMap s c && commitRatReleasePhyIdValid s c i).map (commitRatReleasePhyId c)
    invalidated := (slots (commitPhyfInvalid s c)).map (commitRatReleasePhyId c)
    csrWrites := (slots fun i => (commitCsrfWrite s c i).we).map fun i =>
      ((commitCsrfWrite s c i).addr, (commitCsrfWrite s c i).data)
    committed := (slots fun i => fb.enable && fb.committedRobIdValid i).map fb.committedRobId
    cpbufPops := (slots (commitCpbufPop s c)).length
    cpbufFlush := commitCpbufFlush s c
    predictorUpdates := (slots (commitBpValid s c)).map fun i =>
      predictorUpdate (retireData c i) (bruOpIsHit c i)
    restored :=
      if commitRatMapTableRestore s c then some (commitCpbufId c (retireHasBruOpIndex s c))
      else none
    undone :=
      if commitRatRestoreMap s c then
        [((commitRobFlushData s c).newPhyRegId, (commitRobFlushData s c).oldPhyRegId)]
      else []
    robFlush := commitRobFlush s c
    flush := fb.enable && fb.flush
    exceptionPc := if fb.hasException then some fb.exceptionPc else none
    jump := if fb.jumpEnable then some (fb.jump, fb.nextPc) else none
    nextState := commitNextState s c }

end Hardware

/-! ## One instruction at a time -/

/-- The entries in flight with their ids, oldest first. -/
def robContents (rob : RobState) : List (Nat × RobItem) :=
  contents robSize (fun id => (id, rob.buffer id)) rob.rptr rob.wptr

section Sequential

variable (mstatus : Nat) (e : RobItem)

/-- A prediction was right if the direction was, and the target of a predicted jump. -/
def predictionHit : Bool :=
  decide (e.bruJump = e.predictedJump) &&
    (decide (e.bruNextPc = e.predictedNextPc) || !e.predictedJump)

def jumpTarget : Nat := if e.bruJump then e.bruNextPc else (e.pc + 4) % 2 ^ 32

/-- `mret` moves `MPIE` (bit 7) into `MIE` (bit 3) and leaves the other bits alone. -/
def mretValue : Nat :=
  mstatus >>> 4 <<< 4 ||| ((mstatus >>> 7) % 2) <<< 3 ||| mstatus % 2 ^ 3

def retiredCsrWrites : List (Nat × Nat) :=
  if e.isMret then [(Csr.mstatus, mretValue mstatus)]
  else if e.csrNewvalueValid then [(e.csrAddr, e.csrNewvalue)]
  else []

def releasedRegisters : List Nat := if e.oldPhyRegIdValid then [e.oldPhyRegId] else []

/-- Retiring one instruction, before what follows it. -/
def retireOne (id : Nat) (rest : CommitEffects) : CommitEffects :=
  { rest with
    popped := id :: rest.popped
    released := releasedRegisters e ++ rest.released
    invalidated := releasedRegisters e ++ rest.invalidated
    csrWrites := retiredCsrWrites mstatus e ++ rest.csrWrites
    committed := id :: rest.committed }

/-- What a retired branch reports; retirement stops behind it. -/
def branchEffects : CommitEffects :=
  if e.predicted then
    if predictionHit e then
      { CommitEffects.none with
        cpbufPops := 1
        predictorUpdates := [predictorUpdate e true] }
    else
      { CommitEffects.none with
        cpbufFlush := true
        predictorUpdates := [predictorUpdate e false]
        restored := some e.checkpointId
        robFlush := true
        flush := true
        jump := some (e.bruJump, jumpTarget e) }
  else { CommitEffects.none with jump := some (e.bruJump, jumpTarget e) }

/-- The trapping instruction does not retire; its id is still reported, so that nothing
waits for it. -/
def trapEffects (id : Nat) : CommitEffects :=
  { CommitEffects.none with committed := [id], flush := true, nextState := .flush }

/-- Retire finished instructions one by one, at most `n`. -/
def retireInOrder : Nat → List (Nat × RobItem) → CommitEffects
  | 0, _ => CommitEffects.none
  | _ + 1, [] => CommitEffects.none
  | n + 1, (id, e) :: rest =>
      if !e.finish then CommitEffects.none
      else if e.hasException then trapEffects id
      else if e.bruOp then retireOne mstatus e id (branchEffects e)
      else retireOne mstatus e id (retireInOrder n rest)

/-- An interrupt is taken at once, before anything retires, unless nothing is in flight. -/
def retireSequentially (hasInterrupt : Bool) (entries : List (Nat × RobItem)) : CommitEffects :=
  if entries.isEmpty then CommitEffects.none
  else if hasInterrupt then { CommitEffects.none with flush := true, nextState := .interruptFlush }
  else retireInOrder mstatus commitWidth entries

end Sequential

end DreamCore.Model
