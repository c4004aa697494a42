import DreamCore.Cpp.Decode
import DreamCore.Cpp.Ras

/-!
# Branch predictor of the C++ model (`branch_predictor.h`)

Commit, the branch unit and fetch call it one after another in a cycle, and each call changes
the tables at once.  `get_prediction` also works the return stack.
-/

namespace DreamCore.Cpp

open DreamCore.Rtl

def gsharePcP1AddrWidth : Nat := 12
def gsharePcP2AddrWidth : Nat := 0
def localPcP1AddrWidth : Nat := 12
def localPcP2AddrWidth : Nat := 0
def callPcP1AddrWidth : Nat := 12
def callPcP2AddrWidth : Nat := 0
def normalPcP1AddrWidth : Nat := 12
def normalPcP2AddrWidth : Nat := 0
def rasSize : Nat := 256

structure BranchPredictor where
  gshareGlobalHistory : Nat
  gshareGlobalHistoryRetired : Nat
  gsharePht : Nat → Nat
  localBht : Nat → Nat
  localBhtRetired : Nat → Nat
  localPht : Nat → Nat
  cpht : Nat → Nat
  mainRas : Ras
  callGlobalHistory : Nat
  callTargetCache : Nat → Nat
  normalGlobalHistory : Nat
  normalTargetCache : Nat → Nat

/-- The members of `checkpoint_t` the predictor saves. -/
structure SavedHistories where
  globalHistory : Nat
  localHistory : Nat
  deriving DecidableEq

/-- `(pc >> (2 + p2_width)) & mask`. -/
def pcP1 (p1Width p2Width pc : Nat) : Nat := (pc >>> (2 + p2Width)) &&& ((1 <<< p1Width) - 1)

/-- `((history << 1) & mask) | (jump ? 1 : 0)`; the histories have the width of the first part. -/
def shiftHistory (width history : Nat) (jump : Bool) : Nat :=
  ((history <<< 1) &&& ((1 <<< width) - 1)) ||| (if jump then 1 else 0)

def setEntry (table : Nat → Nat) (addr value : Nat) : Nat → Nat :=
  fun i => if i = addr then value else table i

/-- A counter goes up to 3 with each jump and down to 0. -/
def countJump (jump : Bool) (counter : Nat) : Nat :=
  if jump then if counter < 3 then counter + 1 else counter
  else if counter > 0 then counter - 1 else counter

namespace BranchPredictor

variable (p : BranchPredictor)

/-- `local_bht_retired` is not among the members `reset` clears. -/
def reset : BranchPredictor where
  gshareGlobalHistory := 0
  gshareGlobalHistoryRetired := 0
  gsharePht := fun _ => 0
  localBht := fun _ => 0
  localBhtRetired := p.localBhtRetired
  localPht := fun _ => 0
  cpht := fun _ => 0
  mainRas := Ras.reset p.mainRas.buffer
  callGlobalHistory := 0
  callTargetCache := fun _ => 0
  normalGlobalHistory := 0
  normalTargetCache := fun _ => 0

/-! ## Global history -/

def gsharePc (pc : Nat) : Nat := pcP1 gsharePcP1AddrWidth gsharePcP2AddrWidth pc

def gshareGlobalHistoryUpdate (jump hit : Bool) : BranchPredictor :=
  let retired := shiftHistory gsharePcP1AddrWidth p.gshareGlobalHistoryRetired jump
  { p with
    gshareGlobalHistoryRetired := retired
    gshareGlobalHistory := if !hit then retired else p.gshareGlobalHistory }

def gshareGlobalHistoryUpdateBruFix (cp : SavedHistories) (jump hit : Bool) : BranchPredictor :=
  if !hit then
    { p with gshareGlobalHistory := shiftHistory gsharePcP1AddrWidth cp.globalHistory jump }
  else p

def gshareGlobalHistoryUpdateGuess (jump : Bool) : BranchPredictor :=
  { p with gshareGlobalHistory := shiftHistory gsharePcP1AddrWidth p.gshareGlobalHistory jump }

def gshareGetPrediction (pc : Nat) : Bool :=
  decide (p.gsharePht (p.gshareGlobalHistory ^^^ gsharePc pc) ≥ 2)

def gshareUpdatePrediction (pc : Nat) (jump hit : Bool) : BranchPredictor :=
  let phtAddr := p.gshareGlobalHistoryRetired ^^^ gsharePc pc
  gshareGlobalHistoryUpdate
    { p with gsharePht := setEntry p.gsharePht phtAddr (countJump jump (p.gsharePht phtAddr)) }
    jump hit

/-! ## Local histories -/

def localPc (pc : Nat) : Nat := pcP1 localPcP1AddrWidth localPcP2AddrWidth pc

def localUpdatePrediction (pc : Nat) (jump hit : Bool) : BranchPredictor :=
  let bhtValue := p.localBhtRetired (localPc pc)
  let phtAddr := bhtValue ^^^ localPc pc
  let retired := shiftHistory localPcP1AddrWidth bhtValue jump
  { p with
    localBhtRetired := setEntry p.localBhtRetired (localPc pc) retired
    localPht := setEntry p.localPht phtAddr (countJump jump (p.localPht phtAddr))
    localBht := if !hit then setEntry p.localBht (localPc pc) retired else p.localBht }

def localGetBhtValue (pc : Nat) : Nat := p.localBht (localPc pc)

def localUpdatePredictionBruFix (cp : SavedHistories) (pc : Nat) (jump hit : Bool) :
    BranchPredictor :=
  if !hit then
    { p with
      localBht :=
        setEntry p.localBht (localPc pc) (shiftHistory localPcP1AddrWidth cp.localHistory jump) }
  else p

def localUpdatePredictionGuess (pc : Nat) (jump : Bool) : BranchPredictor :=
  { p with
    localBht :=
      setEntry p.localBht (localPc pc)
        (shiftHistory localPcP1AddrWidth (p.localBht (localPc pc)) jump) }

def localGetPrediction (pc : Nat) : Bool :=
  decide (p.localPht (p.localBht (localPc pc) ^^^ localPc pc) ≥ 2)

/-! ## Choice between them -/

def cphtCount (hit : Bool) (counter : Nat) : Nat :=
  if counter ≤ 1 then
    if hit && decide (counter > 0) then counter - 1
    else if !hit then counter + 1
    else counter
  else if hit && decide (counter < 3) then counter + 1
  else if !hit then counter - 1
  else counter

def cphtUpdatePrediction (pc : Nat) (hit : Bool) : BranchPredictor :=
  let cphtAddr := p.gshareGlobalHistory ^^^ gsharePc pc
  { p with cpht := setEntry p.cpht cphtAddr (cphtCount hit (p.cpht cphtAddr)) }

/-- The global history predicts. -/
def cphtGetPrediction (pc : Nat) : Bool :=
  decide (p.cpht (p.gshareGlobalHistory ^^^ gsharePc pc) ≤ 1)

/-! ## Target caches -/

def callPc (pc : Nat) : Nat := pcP1 callPcP1AddrWidth callPcP2AddrWidth pc

def callUpdatePrediction (pc : Nat) (jump : Bool) (target : Nat) : BranchPredictor :=
  { p with
    callTargetCache := setEntry p.callTargetCache (p.callGlobalHistory ^^^ callPc pc) target
    callGlobalHistory := shiftHistory callPcP1AddrWidth p.callGlobalHistory jump }

def callGetPrediction (pc : Nat) : Nat := p.callTargetCache (p.callGlobalHistory ^^^ callPc pc)

def normalPc (pc : Nat) : Nat := pcP1 normalPcP1AddrWidth normalPcP2AddrWidth pc

def normalUpdatePrediction (pc : Nat) (jump : Bool) (target : Nat) : BranchPredictor :=
  { p with
    normalTargetCache := setEntry p.normalTargetCache (p.normalGlobalHistory ^^^ normalPc pc) target
    normalGlobalHistory := shiftHistory normalPcP1AddrWidth p.normalGlobalHistory jump }

def normalGetPrediction (pc : Nat) : Nat :=
  p.normalTargetCache (p.normalGlobalHistory ^^^ normalPc pc)

/-! ## Calls from outside -/

def save (pc : Nat) : SavedHistories := ⟨p.gshareGlobalHistory, p.localGetBhtValue pc⟩

def pushAddr (pc : Nat) : BranchPredictor :=
  { p with mainRas := p.mainRas.pushAddr rasSize ((pc + 4) % 2 ^ 32) }

def popAddr : BranchPredictor × Nat := ({ p with mainRas := p.mainRas.popAddr.1 }, p.mainRas.popAddr.2)

def linkReg (r : Nat) : Bool := decide (r = 1) || decide (r = 5)

/-- `jalr` by the registers it links and reads. -/
def getJalrPrediction (pc opData : Nat) : BranchPredictor × Option (Bool × Nat) :=
  let rd := decRd opData
  let rs1 := decRs1 opData
  if linkReg rd then
    if linkReg rs1 then
      if rs1 = rd then (p.pushAddr pc, some (true, p.callGetPrediction pc))
      else (p.popAddr.1.pushAddr pc, some (true, p.popAddr.2))
    else (p.pushAddr pc, some (true, p.callGetPrediction pc))
  else if linkReg rs1 then (p.popAddr.1, some (true, p.popAddr.2))
  else (p, some (true, p.normalGetPrediction pc))

def getBranchPrediction (pc opData : Nat) : Option (Bool × Nat) :=
  let jump := if !p.cphtGetPrediction pc then p.localGetPrediction pc else p.gshareGetPrediction pc
  let nextPc :=
    if jump then (pc + signExtend (decImmB opData) 13) % 2 ^ 32 else (pc + 4) % 2 ^ 32
  if decFunct3 opData = 0 ∨ decFunct3 opData = 1 ∨ decFunct3 opData = 4 ∨ decFunct3 opData = 5 ∨
      decFunct3 opData = 6 ∨ decFunct3 opData = 7 then some (jump, nextPc)
  else none

/-- `jump` and `next_pc` when the result is `true`. -/
def getPrediction (pc opData : Nat) : BranchPredictor × Option (Bool × Nat) :=
  if decOpcode opData = 0x6f then
    (if linkReg (decRd opData) then p.pushAddr pc else p,
      some (true, (pc + signExtend (decImmJ opData) 21) % 2 ^ 32))
  else if decOpcode opData = 0x67 then p.getJalrPrediction pc opData
  else if decOpcode opData = 0x63 then (p, p.getBranchPrediction pc opData)
  else (p, none)

def updatePredictionGuess (pc opData : Nat) (jump : Bool) : BranchPredictor :=
  if decOpcode opData = 0x63 then
    (p.gshareGlobalHistoryUpdateGuess jump).localUpdatePredictionGuess pc jump
  else p

def updatePredictionBruGuess (cp : SavedHistories) (pc opData : Nat) (jump hit : Bool) :
    BranchPredictor :=
  if decOpcode opData = 0x63 then
    (p.gshareGlobalHistoryUpdateBruFix cp jump hit).localUpdatePredictionBruFix cp pc jump hit
  else p

def updatePrediction (pc opData : Nat) (jump : Bool) (nextPc : Nat) (hit : Bool) :
    BranchPredictor :=
  let rd := decRd opData
  let rs1 := decRs1 opData
  if decOpcode opData = 0x63 then
    ((p.gshareUpdatePrediction pc jump hit).localUpdatePrediction pc jump hit).cphtUpdatePrediction
      pc hit
  else if decOpcode opData = 0x67 then
    if linkReg rd then
      if linkReg rs1 then
        if rs1 = rd then p.callUpdatePrediction pc jump nextPc else p
      else p.callUpdatePrediction pc jump nextPc
    else if linkReg rs1 then p
    else p.normalUpdatePrediction pc jump nextPc
  else p

end BranchPredictor

end DreamCore.Cpp
