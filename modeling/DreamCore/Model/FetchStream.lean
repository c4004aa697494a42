import DreamCore.Rtl.Fetch
import DreamCore.Rtl.MultiFifo
import DreamCore.Lib.Clocked

/-!
# The instruction stream of fetch

Fetch requests the bundle at its next pc in every cycle it does not wait; the bus
answers in the next cycle or not at all.  `Expected` is what the pushed instructions
and the feedback of commit say about the next pc.
-/

namespace DreamCore.Model

open DreamCore.Clocked DreamCore.Rtl

/-- Fetch, and what the memory holds at the address requested in the cycle before. -/
structure FetchPathState where
  fetch : FetchState
  request : Option (Nat × Nat)
  deriving DecidableEq

/-- `memory` is what a read of four words launched in this cycle finds at an address. -/
structure FetchPathInput where
  toFetchInput : FetchInput
  memory : Nat → Nat

def fetchPathReset : FetchPathState := ⟨fetchReset, none⟩

/-! ## Towards the bus -/

def fetchBusAddr (s : FetchState) (input : FetchInput) : Nat := pcNext s input

def fetchBusReadReq (s : FetchState) (input : FetchInput) : Bool := !jumpWaitNext s input

def fetchPathNext (s : FetchPathState) (input : FetchPathInput) : FetchPathState where
  fetch := fetchNext s.fetch input.toFetchInput
  request :=
    if fetchBusReadReq s.fetch input.toFetchInput then
      some (fetchBusAddr s.fetch input.toFetchInput,
        input.memory (fetchBusAddr s.fetch input.toFetchInput))
    else none

/-- The instructions that enter the FIFO towards decode. -/
def fetchPushed (s : FetchState) (input : FetchInput) : List FetchDecodePack :=
  fifoWritten input.fetchDecodeFifoDataInEnable (fetchDecodePack s input)
    (fetchEnable s input) (fetchDecodeFifoPush s input)

/-- The FIFO has space for the first slots, and an acknowledged read carries the words
at the address requested in the cycle before. -/
structure FetchAnswered (s : FetchPathState) (input : FetchPathInput) : Prop where
  space : ∃ n, ∀ i, i < fetchWidth →
    input.toFetchInput.fetchDecodeFifoDataInEnable i = expandOne n i
  answer : input.toFetchInput.busFetchReadAck = true →
    ∃ addr, s.request = some (addr, input.toFetchInput.busFetchData)

/-! ## The stream -/

/-- The pc that has to be pushed next, or the pc behind an unpredicted jump that commit
has not reported. -/
inductive Expected where
  | next (pc : Nat)
  | waiting (fallThrough : Nat)
  deriving DecidableEq

namespace Expected

def position : Expected → Nat
  | next pc => pc
  | waiting fallThrough => fallThrough

/-- What commit's feedback says: a flush names a pc, unless commit is still walking
back; otherwise only a waiting fetch listens. -/
def feedback (fb : CommitFeedbackPack) (e : Expected) : Expected :=
  if fb.enable && fb.flush then
    if fb.hasException then next fb.exceptionPc
    else if fb.jumpEnable then next fb.nextPc
    else next e.position
  else match e with
    | next pc => next pc
    | waiting fallThrough =>
        if fb.jumpEnable then next (if fb.jump then fb.nextPc else fallThrough)
        else waiting fallThrough

/-- What follows an instruction. -/
def after (p : FetchDecodePack) : Expected :=
  if isJumpWord p.value then
    if p.predicted then next p.predictedNextPc else waiting ((p.pc + 4) % 2 ^ 32)
  else next ((p.pc + 4) % 2 ^ 32)

/-- The instructions continue the stream; addresses are 32 bits wide. -/
def push : Expected → List FetchDecodePack → Option Expected
  | e, [] => some e
  | next pc, p :: ps => if p.pc = pc % 2 ^ 32 then push (after p) ps else none
  | waiting _, _ :: _ => none

end Expected

/-- The stream over a run: in each cycle the feedback, then what is pushed. -/
def follow : Expected → List (CommitFeedbackPack × List FetchDecodePack) → Option Expected
  | e, [] => some e
  | e, (fb, pushed) :: cycles => ((e.feedback fb).push pushed).bind fun e => follow e cycles

/-- What fetch sees of commit and what it pushes, cycle by cycle. -/
def fetchTrace (s : FetchPathState) (input : FetchPathInput) :
    List (CommitFeedbackPack × List FetchDecodePack) :=
  [(input.toFetchInput.commitFeedbackPack, fetchPushed s.fetch input.toFetchInput)]

/-- A pushed instruction carries the word found at its own address: it was slot `i` of
the bundle requested in the cycle before, or is misaligned and carries an exception. -/
def FetchedAt (request : Option (Nat × Nat)) (p : FetchDecodePack) : Prop :=
  ∃ addr words i, request = some (addr, words) ∧ i < fetchWidth ∧
    p.pc = (addr + 4 * i) % 2 ^ 32 ∧ p.hasException = !checkAlign p.pc 4 ∧
      p.value = if p.hasException then 0 else (words >>> (32 * i)) % 2 ^ 32

end DreamCore.Model
