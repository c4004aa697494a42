import DreamCore.Rtl.CheckpointBuffer

/-!
# Instruction fetch (`fetch.sv`)

Four words arrive from the bus a cycle.  A bundle ends at its first jump; the
predictor's answer and a free checkpoint decide whether fetch follows the
prediction or waits for the branch to retire.
-/

namespace DreamCore.Rtl

def initPc : Nat := 0x80000000

structure FetchState where
  pc : Nat
  jumpWait : Bool
  deriving DecidableEq

def fetchReset : FetchState := ⟨initPc, false⟩

structure FetchInput where
  bpFetchJump : Bool
  bpFetchNextPc : Nat
  bpFetchValid : Bool
  bpFetchGlobalHistory : Nat
  bpFetchLocalHistory : Nat
  busFetchData : Nat
  busFetchReadAck : Bool
  cpbufFetchNewId : Nat
  cpbufFetchNewIdValid : Bool
  stbufAllEmpty : Bool
  fetchDecodeFifoDataInEnable : Nat → Bool
  decodeFeedbackIdle : Bool
  renameFeedbackIdle : Bool
  commitFeedbackPack : CommitFeedbackPack

def fetchDecodeFifoFlush (input : FetchInput) : Bool :=
  input.commitFeedbackPack.enable && input.commitFeedbackPack.flush

section Bundle

variable (s : FetchState) (input : FetchInput)

def fetchCurPc (i : Nat) : Nat := (s.pc + (i <<< 2)) % 2 ^ 32

def fetchHasException (i : Nat) : Bool := !checkAlign (fetchCurPc s i) 4

/-- A misaligned slot carries an exception and the word zero. -/
def fetchOpcode (i : Nat) : Nat :=
  if fetchHasException s i then 0 else (input.busFetchData >>> (32 * i)) % 2 ^ 32

/-- The words fetch treats as a jump: `jal`, `jalr`, a branch or `mret`. -/
def isJumpWord (opcode : Nat) : Bool :=
  decide (opcode &&& 0x7f = 0x6f) || decide (opcode &&& 0x7f = 0x67) ||
    decide (opcode &&& 0x7f = 0x63) || decide (opcode = 0x30200073)

def fetchJump (i : Nat) : Bool := isJumpWord (fetchOpcode s input i) && input.busFetchReadAck

def fetchFenceI (i : Nat) : Bool :=
  decide (fetchOpcode s input i &&& 0x7f = 0x0f) &&
    decide ((fetchOpcode s input i >>> 12) &&& 0x07 = 0x01) && input.busFetchReadAck

def pushForbiddenFenceI : Nat → Bool
  | 0 =>
      fetchFenceI s input 0 &&
        (!input.decodeFeedbackIdle || !input.renameFeedbackIdle ||
          input.commitFeedbackPack.enable || !input.stbufAllEmpty)
  | i + 1 => pushForbiddenFenceI i || fetchFenceI s input (i + 1)

def pushForbiddenJump : Nat → Bool
  | 0 => false
  | i + 1 => fetchJump s input i || pushForbiddenJump i

def fetchEnable (i : Nat) : Bool :=
  input.fetchDecodeFifoDataInEnable i && !pushForbiddenFenceI s input i &&
    !pushForbiddenJump s input i && input.busFetchReadAck

def jumpIndexCmp (i : Nat) : Bool :=
  input.busFetchReadAck && fetchJump s input i && fetchEnable s input i

def jumpIndex : Nat := priorityFinderFirst fetchWidth (jumpIndexCmp s input)

def jumpIndexValid : Bool := anyBit fetchWidth (jumpIndexCmp s input)

def enableIndexCmp (i : Nat) : Bool := input.busFetchReadAck && fetchEnable s input i

def enableIndex : Nat := priorityFinderLast fetchWidth (enableIndexCmp s input)

def enableIndexValid : Bool := anyBit fetchWidth (enableIndexCmp s input)

def fetchPredicted (i : Nat) : Bool :=
  decide (jumpIndex s input = i) && jumpIndexValid s input && input.bpFetchValid &&
    input.cpbufFetchNewIdValid

def fetchDecodePack (i : Nat) : FetchDecodePack where
  enable := fetchEnable s input i
  value := fetchOpcode s input i
  pc := fetchCurPc s i
  hasException := fetchHasException s i
  exceptionId := 0
  exceptionValue := fetchCurPc s i
  predicted := fetchPredicted s input i
  predictedJump := input.bpFetchJump
  predictedNextPc :=
    if input.bpFetchJump then input.bpFetchNextPc else (fetchCurPc s i + 4) % 2 ^ 32
  checkpointIdValid := fetchPredicted s input i
  checkpointId := input.cpbufFetchNewId

end Bundle

/-! ## Next state and outputs -/

def jumpWaitNext (s : FetchState) (input : FetchInput) : Bool :=
  if input.commitFeedbackPack.enable && input.commitFeedbackPack.flush then false
  else if s.jumpWait then !input.commitFeedbackPack.jumpEnable
  else if !input.busFetchReadAck then s.jumpWait
  else jumpIndexValid s input && !(input.bpFetchValid && input.cpbufFetchNewIdValid)

def pcNext (s : FetchState) (input : FetchInput) : Nat :=
  if input.commitFeedbackPack.enable && input.commitFeedbackPack.flush then
    if input.commitFeedbackPack.hasException then input.commitFeedbackPack.exceptionPc
    else if input.commitFeedbackPack.jumpEnable then input.commitFeedbackPack.nextPc
    else s.pc
  else if s.jumpWait then
    if input.commitFeedbackPack.jumpEnable && input.commitFeedbackPack.jump then
      input.commitFeedbackPack.nextPc
    else s.pc
  else if jumpIndexValid s input then
    if input.bpFetchValid then
      if !input.cpbufFetchNewIdValid then (fetchCurPc s (jumpIndex s input) + 4) % 2 ^ 32
      else if input.bpFetchJump then input.bpFetchNextPc
      else (fetchCurPc s (jumpIndex s input) + 4) % 2 ^ 32
    else (fetchCurPc s (jumpIndex s input) + 4) % 2 ^ 32
  else if enableIndexValid s input then (fetchCurPc s (enableIndex s input) + 4) % 2 ^ 32
  else s.pc

def fetchNext (s : FetchState) (input : FetchInput) : FetchState where
  pc := pcNext s input
  jumpWait := jumpWaitNext s input

def fetchDecodeFifoPush (s : FetchState) (input : FetchInput) : Bool :=
  input.busFetchReadAck && !s.jumpWait && !fetchDecodeFifoFlush input

def fetchCpbufData (input : FetchInput) : Checkpoint where
  globalHistory := input.bpFetchGlobalHistory
  localHistory := input.bpFetchLocalHistory
  ratPhyMapTableValid := fun _ => false
  ratPhyMapTableVisible := fun _ => false

/-- The push does not look at `cpbuf_fetch_new_id_valid`. -/
def fetchCpbufPush (s : FetchState) (input : FetchInput) : Bool :=
  jumpIndexValid s input && input.bpFetchValid && fetchDecodeFifoPush s input

/-! ## Towards the predictor -/

def fetchBpPc (s : FetchState) (input : FetchInput) : Nat := fetchCurPc s (jumpIndex s input)

def fetchBpInstruction (s : FetchState) (input : FetchInput) : Nat :=
  fetchOpcode s input (jumpIndex s input)

def fetchBpValid (s : FetchState) (input : FetchInput) : Bool :=
  fetchDecodeFifoPush s input && jumpIndexValid s input &&
    fetchEnable s input (jumpIndex s input)

def fetchBpUpdateJump (input : FetchInput) : Bool := input.bpFetchJump

/-- The update does not look at `cpbuf_fetch_new_id_valid` either. -/
def fetchBpUpdateValid (s : FetchState) (input : FetchInput) : Bool :=
  input.bpFetchValid && jumpIndexValid s input

end DreamCore.Rtl
