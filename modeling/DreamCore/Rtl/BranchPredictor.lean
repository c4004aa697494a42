import DreamCore.Rtl.Decode

/-!
# Branch predictor (`branch_predictor.sv`)

Two predictors for branches, by global and by local history, with a table that chooses
between them, and two target caches for `jalr`.  Fetch shifts predicted outcomes into the
speculative histories, execute and commit put them right, and commit trains the tables.  A
prediction sees the writes of its own cycle through bypasses.
-/

namespace DreamCore.Rtl

def gsharePcP1AddrWidth : Nat := 12

def localPcP1AddrWidth : Nat := 12

def callPcP1AddrWidth : Nat := 12

def normalPcP1AddrWidth : Nat := 12

structure BranchPredictorState where
  gshareGlobalHistory : Nat
  gshareGlobalHistoryRetired : Nat
  gsharePht : Nat → Nat
  localBht : Nat → Nat
  localBhtRetired : Nat → Nat
  localPht : Nat → Nat
  cpht : Nat → Nat
  callGlobalHistory : Nat
  callTargetCache : Nat → Nat
  normalGlobalHistory : Nat
  normalTargetCache : Nat → Nat

/-- The ports of execute, commit and fetch's request; the updates of fetch and the return
address are `BranchPredictorInput`. -/
structure PredictorEvents where
  fetchBpPc : Nat
  fetchBpInstruction : Nat
  fetchBpValid : Bool
  exbruBpCp : Checkpoint
  exbruBpPc : Nat
  exbruBpInstruction : Nat
  exbruBpJump : Bool
  exbruBpHit : Bool
  exbruBpValid : Bool
  commitBpPc : Nat → Nat
  commitBpInstruction : Nat → Nat
  commitBpJump : Nat → Bool
  commitBpNextPc : Nat → Nat
  commitBpHit : Nat → Bool
  commitBpValid : Nat → Bool

structure BranchPredictorInput extends PredictorEvents where
  fetchBpUpdateJump : Bool
  fetchBpUpdateValid : Bool
  rasBpAddr : Nat

def branchPredictorReset : BranchPredictorState where
  gshareGlobalHistory := 0
  gshareGlobalHistoryRetired := 0
  gsharePht := fun _ => 0
  localBht := fun _ => 0
  localBhtRetired := fun _ => 0
  localPht := fun _ => 0
  cpht := fun _ => 0
  callGlobalHistory := 0
  callTargetCache := fun _ => 0
  normalGlobalHistory := 0
  normalTargetCache := fun _ => 0

/-! ## Histories and addresses -/

def widthMask (width : Nat) : Nat := 2 ^ width - 1

/-- `((history << 1) & mask) | (jump ? 'b1 : 'b0)`. -/
def historyShift (width history : Nat) (jump : Bool) : Nat :=
  ((history <<< 1) &&& widthMask width) ||| (if jump then 1 else 0)

def getPcP1 (width pc : Nat) : Nat := (pc >>> 2) &&& widthMask width

def gshareGetPcP1 (pc : Nat) : Nat := getPcP1 gsharePcP1AddrWidth pc

def gshareGetPhtAddr (globalHistory pc : Nat) : Nat := globalHistory ^^^ gshareGetPcP1 pc

def localGetPcP1 (pc : Nat) : Nat := getPcP1 localPcP1AddrWidth pc

def localGetPhtAddr (bhtValue pc : Nat) : Nat := bhtValue ^^^ localGetPcP1 pc

def cphtGetPcP1 (pc : Nat) : Nat := getPcP1 gsharePcP1AddrWidth pc

def cphtGetPhtAddr (globalHistory pc : Nat) : Nat := globalHistory ^^^ cphtGetPcP1 pc

def callGetPcP1 (pc : Nat) : Nat := getPcP1 callPcP1AddrWidth pc

def callGetTargetCacheAddr (globalHistory pc : Nat) : Nat := globalHistory ^^^ callGetPcP1 pc

def normalGetPcP1 (pc : Nat) : Nat := getPcP1 normalPcP1AddrWidth pc

def normalGetTargetCacheAddr (globalHistory pc : Nat) : Nat := globalHistory ^^^ normalGetPcP1 pc

/-- A table with one write port. -/
def tableNext (table : Nat → Nat) (we : Bool) (addr data : Nat) (i : Nat) : Nat :=
  if we && decide (addr = i) then data else table i

/-- A read of a table past the write of the same cycle. -/
def dataFix (table : Nat → Nat) (feedbackValid : Bool) (feedbackAddr feedback : Nat)
    (addr : Nat) : Nat :=
  if feedbackValid && decide (addr = feedbackAddr) then feedback else table addr

/-- A two-bit counter counts taken branches. -/
def phtWriteData (jump : Bool) (counter : Nat) : Nat :=
  if jump then (counter + 1) % 4 else (counter + 3) % 4

def phtWe (jump : Bool) (counter : Nat) : Bool :=
  (jump && decide (counter < 3)) || (!jump && decide (counter > 0))

/-! ## Kinds of instructions -/

def isLink (r : Nat) : Bool := decide (r = 1) || decide (r = 5)

def isBranchWord (instruction : Nat) : Bool := decide (wordOpcode instruction = 0x63)

def isJalWord (instruction : Nat) : Bool := decide (wordOpcode instruction = 0x6f)

def isJalrWord (instruction : Nat) : Bool := decide (wordOpcode instruction = 0x67)

def isCallWord (instruction : Nat) : Bool :=
  isJalrWord instruction && isLink (wordRd instruction) &&
    (!isLink (wordRs1 instruction) || decide (wordRs1 instruction = wordRd instruction))

def isNormalJumpWord (instruction : Nat) : Bool :=
  isJalrWord instruction && !isLink (wordRd instruction) && !isLink (wordRs1 instruction)

section Events

variable (e : PredictorEvents)

def commitIndex : Nat := priorityFinderFirst commitWidth e.commitBpValid

def commitPc : Nat := e.commitBpPc (commitIndex e)

def commitInstruction : Nat := e.commitBpInstruction (commitIndex e)

def commitJump : Bool := e.commitBpJump (commitIndex e)

def commitNextPc : Nat := e.commitBpNextPc (commitIndex e)

def commitHit : Bool := e.commitBpHit (commitIndex e)

def commitValid : Bool := e.commitBpValid (commitIndex e)

def commitIsBranch : Bool := isBranchWord (commitInstruction e)

def commitIsCall : Bool := isCallWord (commitInstruction e)

def commitIsNormalJump : Bool := isNormalJumpWord (commitInstruction e)

/-- A mispredicted branch retires. -/
def commitMiss : Bool := commitValid e && !commitHit e && commitIsBranch e

/-- A mispredicted branch executes. -/
def exbruMiss : Bool := e.exbruBpValid && !e.exbruBpHit && isBranchWord e.exbruBpInstruction

def bpRasAddr : Nat := (e.fetchBpPc + 4) % 2 ^ 32

def bpRasPush : Bool :=
  e.fetchBpValid && ((isJalWord e.fetchBpInstruction || isJalrWord e.fetchBpInstruction) &&
    isLink (wordRd e.fetchBpInstruction))

def bpRasPop : Bool :=
  let rd := wordRd e.fetchBpInstruction
  let rs1 := wordRs1 e.fetchBpInstruction
  e.fetchBpValid && isJalrWord e.fetchBpInstruction &&
    ((isLink rd && isLink rs1 && decide (rs1 ≠ rd)) || (!isLink rd && isLink rs1))

def bpFetchValid : Bool :=
  e.fetchBpValid && (isJalWord e.fetchBpInstruction || isJalrWord e.fetchBpInstruction ||
    isBranchWord e.fetchBpInstruction)

variable {e} in
/-- With no channel valid the index points at a channel that is not valid either. -/
theorem commitValid_iff : commitValid e = true ↔ anyBit commitWidth e.commitBpValid = true := by
  constructor
  · intro h
    refine anyBit_iff.mpr ⟨commitIndex e, ?_, h⟩
    exact Nat.lt_of_le_of_lt (firstIndexTemp_le _ _) (by decide)
  · intro h
    obtain ⟨k, hk, hvalid, hbefore⟩ := anyBit_first h
    rw [commitValid, commitIndex, priorityFinderFirst_eq hk hvalid hbefore]
    exact hvalid

variable {e} in
theorem commitMiss_iff : commitMiss e = true ↔
    (commitValid e && commitIsBranch e) = true ∧ commitHit e = false := by
  rw [commitMiss, Bool.and_eq_true, Bool.and_eq_true, Bool.and_eq_true, Bool.not_eq_true']
  exact ⟨fun h => ⟨⟨h.1.1, h.2⟩, h.1.2⟩, fun h => ⟨⟨h.1.1, h.2⟩, h.1.2⟩⟩

end Events

section Cycle

variable (s : BranchPredictorState) (e : PredictorEvents)

/-! ## Histories -/

/-- The checkpoint's history with the outcome execute found. -/
def exbruGlobalHistory : Nat :=
  historyShift gsharePcP1AddrWidth e.exbruBpCp.globalHistory e.exbruBpJump

def exbruLocalHistory : Nat :=
  historyShift localPcP1AddrWidth e.exbruBpCp.localHistory e.exbruBpJump

def commitGlobalHistory : Nat :=
  historyShift gsharePcP1AddrWidth s.gshareGlobalHistoryRetired (commitJump e)

def gshareGlobalHistoryFeedback : Nat :=
  if exbruMiss e then exbruGlobalHistory e
  else if commitMiss e then commitGlobalHistory s e
  else s.gshareGlobalHistory

def gshareGlobalHistoryRetiredNext : Nat :=
  if commitValid e && commitIsBranch e then commitGlobalHistory s e
  else s.gshareGlobalHistoryRetired

def bpFetchGlobalHistory : Nat := gshareGlobalHistoryFeedback s e

def localBhtWriteAddr : Nat := localGetPcP1 (commitPc e)

def commitLocalHistory (i : Nat) : Nat :=
  historyShift localPcP1AddrWidth (s.localBhtRetired i) (commitJump e)

def bpFetchLocalHistory : Nat :=
  if exbruMiss e && decide (localGetPcP1 e.exbruBpPc = localGetPcP1 e.fetchBpPc) then
    exbruLocalHistory e
  else if commitMiss e && decide (localBhtWriteAddr e = localGetPcP1 e.fetchBpPc) then
    commitLocalHistory s e (localBhtWriteAddr e)
  else s.localBht (localGetPcP1 e.fetchBpPc)

def localBhtRetiredNext (i : Nat) : Nat :=
  if commitValid e && commitIsBranch e && decide (localBhtWriteAddr e = i) then
    commitLocalHistory s e i
  else s.localBhtRetired i

/-! ## Counters -/

def gsharePhtWriteAddr : Nat := gshareGetPhtAddr s.gshareGlobalHistoryRetired (commitPc e)

def gsharePhtWriteData : Nat :=
  phtWriteData (commitJump e) (s.gsharePht (gsharePhtWriteAddr s e))

def gsharePhtWe : Bool :=
  commitValid e && commitIsBranch e &&
    phtWe (commitJump e) (s.gsharePht (gsharePhtWriteAddr s e))

def localPhtWriteAddr : Nat :=
  localGetPhtAddr (s.localBhtRetired (localBhtWriteAddr e)) (commitPc e)

def localPhtWriteData : Nat := phtWriteData (commitJump e) (s.localPht (localPhtWriteAddr s e))

def localPhtWe : Bool :=
  commitValid e && commitIsBranch e &&
    phtWe (commitJump e) (s.localPht (localPhtWriteAddr s e))

def cphtWriteAddr : Nat :=
  cphtGetPhtAddr (if commitMiss e then commitGlobalHistory s e else s.gshareGlobalHistory)
    (commitPc e)

/-- Up to 1 the table chooses the global history, from 2 on the local one. -/
def cphtWriteData : Nat :=
  let counter := s.cpht (cphtWriteAddr s e)
  if (decide (counter ≤ 1) && !commitHit e) ||
      (decide (counter > 1) && commitHit e && decide (counter < 3)) then (counter + 1) % 4
  else (counter + 3) % 4

def cphtWe : Bool :=
  let counter := s.cpht (cphtWriteAddr s e)
  commitValid e && commitIsBranch e &&
    ((decide (counter ≤ 1) && ((commitHit e && decide (counter > 0)) || !commitHit e)) ||
      (decide (counter > 1) && ((commitHit e && decide (counter < 3)) || !commitHit e)))

/-! ## Target caches -/

def callGlobalHistoryNext : Nat :=
  if anyBit commitWidth e.commitBpValid && commitIsCall e then
    historyShift callPcP1AddrWidth s.callGlobalHistory (commitJump e)
  else s.callGlobalHistory

def callTargetCacheWriteAddr : Nat := callGetTargetCacheAddr s.callGlobalHistory (commitPc e)

def callTargetCacheWe : Bool := commitValid e && commitIsCall e

def normalGlobalHistoryNext : Nat :=
  if commitValid e && commitIsNormalJump e then
    historyShift normalPcP1AddrWidth s.normalGlobalHistory (commitJump e)
  else s.normalGlobalHistory

def normalTargetCacheWriteAddr : Nat :=
  normalGetTargetCacheAddr s.normalGlobalHistory (commitPc e)

def normalTargetCacheWe : Bool := commitValid e && commitIsNormalJump e

/-! ## Prediction -/

def gshareJump : Bool :=
  decide (dataFix s.gsharePht (gsharePhtWe s e) (gsharePhtWriteAddr s e) (gsharePhtWriteData s e)
    (gshareGetPhtAddr (bpFetchGlobalHistory s e) e.fetchBpPc) ≥ 2)

def localJump : Bool :=
  decide (dataFix s.localPht (localPhtWe s e) (localPhtWriteAddr s e) (localPhtWriteData s e)
    (localGetPhtAddr (bpFetchLocalHistory s e) e.fetchBpPc) ≥ 2)

def cphtDataFix : Nat :=
  dataFix s.cpht (cphtWe s e) (cphtWriteAddr s e) (cphtWriteData s e)
    (cphtGetPhtAddr (bpFetchGlobalHistory s e) e.fetchBpPc)

/-- `gshare_next_pc` and `local_next_pc`. -/
def branchNextPc (jump : Bool) : Nat :=
  if jump then (e.fetchBpPc + signExtend 13 (immB e.fetchBpInstruction)) % 2 ^ 32
  else (e.fetchBpPc + 4) % 2 ^ 32

def callNextPc : Nat :=
  dataFix s.callTargetCache (callTargetCacheWe e) (callTargetCacheWriteAddr s e) (commitNextPc e)
    (callGetTargetCacheAddr (callGlobalHistoryNext s e) e.fetchBpPc)

def normalNextPc : Nat :=
  dataFix s.normalTargetCache (normalTargetCacheWe e) (normalTargetCacheWriteAddr s e)
    (commitNextPc e) (normalGetTargetCacheAddr (normalGlobalHistoryNext s e) e.fetchBpPc)

def bpFetchJump : Bool :=
  if isBranchWord e.fetchBpInstruction then
    if cphtDataFix s e ≤ 1 then gshareJump s e else localJump s e
  else true

def bpFetchNextPc (rasBpAddr : Nat) : Nat :=
  if isBranchWord e.fetchBpInstruction then
    if cphtDataFix s e ≤ 1 then branchNextPc e (gshareJump s e)
    else branchNextPc e (localJump s e)
  else if isJalWord e.fetchBpInstruction then
    (e.fetchBpPc + signExtend 21 (immJ e.fetchBpInstruction)) % 2 ^ 32
  else if isJalrWord e.fetchBpInstruction then
    if isCallWord e.fetchBpInstruction then callNextPc s e
    else if isNormalJumpWord e.fetchBpInstruction then normalNextPc s e
    else rasBpAddr
  else rasBpAddr

end Cycle

/-! ## Next state -/

section Next

variable (s : BranchPredictorState) (x : BranchPredictorInput)

/-- Fetch shifts the outcome of a branch into the histories. -/
def fetchUpdates : Bool := x.fetchBpUpdateValid && isBranchWord x.fetchBpInstruction

def gshareGlobalHistoryNext : Nat :=
  let e := x.toPredictorEvents
  if fetchUpdates x then
    if exbruMiss e then
      historyShift gsharePcP1AddrWidth (exbruGlobalHistory e) x.fetchBpUpdateJump
    else historyShift gsharePcP1AddrWidth s.gshareGlobalHistory x.fetchBpUpdateJump
  else if exbruMiss e then exbruGlobalHistory e
  else if commitMiss e then commitGlobalHistory s e
  else s.gshareGlobalHistory

def localBhtNext (i : Nat) : Nat :=
  let e := x.toPredictorEvents
  if fetchUpdates x && decide (localGetPcP1 e.fetchBpPc = i) then
    if exbruMiss e && decide (localGetPcP1 e.exbruBpPc = i) then
      historyShift localPcP1AddrWidth (exbruLocalHistory e) x.fetchBpUpdateJump
    else historyShift localPcP1AddrWidth (s.localBht i) x.fetchBpUpdateJump
  else if exbruMiss e && decide (localGetPcP1 e.exbruBpPc = i) then exbruLocalHistory e
  else if commitMiss e && decide (localBhtWriteAddr e = i) then commitLocalHistory s e i
  else s.localBht i

def branchPredictorNext : BranchPredictorState :=
  let e := x.toPredictorEvents
  { gshareGlobalHistory := gshareGlobalHistoryNext s x
    gshareGlobalHistoryRetired := gshareGlobalHistoryRetiredNext s e
    gsharePht :=
      tableNext s.gsharePht (gsharePhtWe s e) (gsharePhtWriteAddr s e) (gsharePhtWriteData s e)
    localBht := localBhtNext s x
    localBhtRetired := localBhtRetiredNext s e
    localPht :=
      tableNext s.localPht (localPhtWe s e) (localPhtWriteAddr s e) (localPhtWriteData s e)
    cpht := tableNext s.cpht (cphtWe s e) (cphtWriteAddr s e) (cphtWriteData s e)
    callGlobalHistory := callGlobalHistoryNext s e
    callTargetCache :=
      tableNext s.callTargetCache (callTargetCacheWe e) (callTargetCacheWriteAddr s e)
        (commitNextPc e)
    normalGlobalHistory := normalGlobalHistoryNext s e
    normalTargetCache :=
      tableNext s.normalTargetCache (normalTargetCacheWe e) (normalTargetCacheWriteAddr s e)
        (commitNextPc e) }

end Next

end DreamCore.Rtl
