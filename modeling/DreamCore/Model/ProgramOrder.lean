import DreamCore.Model.Speculation

/-!
# What becomes of the fetched instructions

A fetched instruction retires, is discarded by a flush, or is still awaited.  What retires
and the handlers that commit enters are the path of the program: each retired instruction
names the next one.
-/

namespace DreamCore.Model

open DreamCore.Rtl

/-! ## Fates -/

inductive Fate where
  | retired
  | discarded
  deriving DecidableEq, Repr

def retiredOf (l : List (FetchDecodePack × Fate)) : List FetchDecodePack :=
  l.filterMap fun f => if f.2 = .retired then some f.1 else none

section Cycle

variable (s : FrontEndState) (input : FrontEndInput)

/-- What may still retire; while commit walks back that is nothing. -/
def awaiting : List FetchDecodePack :=
  if s.loadStore.commit.curState = .normal then inFlight s else []

/-- What a flush that begins in this cycle discards. -/
def discarded : List FetchDecodePack :=
  if (frontEndFeedback s input).flushing then
    (awaiting s).drop
      (popCount s.loadStore.commit (loadStoreCommitInput s.loadStore input.loadStore))
  else []

/-- The instructions whose fate this cycle decides. -/
def fates : List (FetchDecodePack × Fate) :=
  (frontEndRetired s input).map (·, .retired) ++ (discarded s input).map (·, .discarded)

end Cycle

/-! ## The path of the program -/

/-- A retiring instruction as it was fetched and as the reorder buffer holds it, or a trap. -/
inductive PathEvent where
  | retired (p : FetchDecodePack) (item : RobItem)
  | trapped (handler : Nat)

/-- The branch unit names the next pc of its operations. -/
def itemNextPc (item : RobItem) : Nat :=
  if item.bruOp && item.bruJump then item.bruNextPc else (item.pc + 4) % 2 ^ 32

/-- Where the program can go on behind an instruction; a register names the target of `jalr`,
`mepc` that of `mret`. -/
def goesOnAt (op : DecodeRenamePack) (pc : Nat) : Bool :=
  if op.opUnit = .bru then
    if op.subOp = BruOp.jalr then decide (pc % 2 = 0)
    else if op.subOp = BruOp.mret then true
    else if op.subOp = BruOp.jal then decide (pc = (op.pc + op.imm) % 2 ^ 32)
    else decide (pc = (op.pc + 4) % 2 ^ 32) || decide (pc = (op.pc + op.imm) % 2 ^ 32)
  else decide (pc = (op.pc + 4) % 2 ^ 32)

/-- Every retired instruction is at the pc that its predecessor or a trap names, and names
one that its word allows; addresses are 32 bits wide. -/
def walkPath : Nat → List PathEvent → Option Nat
  | pc, [] => some pc
  | pc, .retired p item :: events =>
      if item.pc = pc % 2 ^ 32 && goesOnAt (decode p) (itemNextPc item) then
        walkPath (itemNextPc item) events
      else none
  | _, .trapped handler :: events => walkPath handler events

section Path

variable (s : SpeculationState) (x : SpeculationInput)

/-- The instructions that retire in this cycle, with the entries as `rob.sv` shows them. -/
def retiredEvents : List PathEvent :=
  (s.front.loadStore.rob.entries.take (speculationRetired s x)).mapIdx
    fun i e => .retired e.tag.op.toFetchDecodePack (retireData (speculationCommitInput s x) i)

/-- A walk that ends in this cycle enters the handler. -/
def trapEvents : List PathEvent :=
  let fb := speculationFeedback s x
  if fb.flushing && fb.hasException then [.trapped fb.exceptionPc] else []

def pathEvents : List PathEvent := retiredEvents s x ++ trapEvents s x

/-- The other units answer for no operation of the branch unit. -/
def BranchesAnswered : Prop :=
  ∀ j, j < wbWidth → j ≠ lsuWbIndex → j ≠ bruWbIndex →
    (x.front.loadStore.executeWb j).enable = true →
    ∀ k, ∀ hk : k < s.front.loadStore.rob.entries.length,
      (x.front.loadStore.executeWb j).robId = s.front.loadStore.rob.idAt k →
      s.front.loadStore.rob.entries[k].tag.op.opUnit ≠ .bru

end Path

end DreamCore.Model
