import DreamCore.Model.Backend
import DreamCore.Model.FetchStream
import DreamCore.Model.LoadStore
import DreamCore.Rtl.Tcm

/-!
# From fetch to memory

Fetch, the two FIFOs with decode between them, rename, and the load/store side with
`rob.sv` and commit, around the instruction copy of the memory.  The predictor, the
checkpoint buffer, the alias table, issue and the other units are inputs.
-/

namespace DreamCore.Model

open DreamCore.Bytes DreamCore.Clocked DreamCore.Rtl

structure FrontEndState where
  fetch : FetchState
  bus : BusFetchState
  tcm : TcmCopy
  fetchDecodeFifo : List FetchDecodePack
  decodeRenameFifo : List DecodeRenamePack
  loadStore : LoadStoreState

/-- What the modules outside provide; the wires between the modules inside are put in
their place by the definitions below. -/
structure FrontEndInput where
  fetch : FetchInput
  rename : RenameInput
  loadStore : LoadStoreInput

def fetchDecodeFifoSize : Nat := 256

def decodeRenameFifoSize : Nat := 16

def frontEndReset (mem : Nat → Nat → BitVec 8) (outData : Nat → BitVec 8)
    (robBuffer : Nat → RobItem) (buffer : Nat → StoreBufferItem) : FrontEndState where
  fetch := fetchReset
  bus := busFetchReset
  tcm := tcmCopyReset mem outData
  fetchDecodeFifo := []
  decodeRenameFifo := []
  loadStore := loadStoreRtlReset robBuffer buffer

section Cycle

variable (s : FrontEndState) (input : FrontEndInput)

def frontEndFeedback : CommitFeedbackPack := loadStoreFeedback s.loadStore input.loadStore

/-! ## The wires -/

def frontEndFetchInput : FetchInput :=
  { input.fetch with
    busFetchData := busFetchData s.bus (tcmBusData s.tcm)
    busFetchReadAck := s.bus.busFetchReadAck
    stbufAllEmpty := stbufAllEmpty s.loadStore.stbuf
    fetchDecodeFifoDataInEnable := fifoDataInEnable fetchDecodeFifoSize s.fetchDecodeFifo
    decodeFeedbackIdle := !anyBit fifoPortNum (fifoDataOutValid s.fetchDecodeFifo)
    renameFeedbackIdle := !anyBit fifoPortNum (fifoDataOutValid s.decodeRenameFifo)
    commitFeedbackPack := frontEndFeedback s input }

/-- `data_in_enable` of decode: what leaves one FIFO and enters the other. -/
def decodeMoves (i : Nat) : Bool :=
  fifoDataOutValid s.fetchDecodeFifo i && fifoDataInEnable decodeRenameFifoSize s.decodeRenameFifo i

def decodeSendPack (i : Nat) : DecodeRenamePack :=
  decode (s.fetchDecodeFifo.getD i emptySlot.toFetchDecodePack)

def frontEndRenameInput : RenameInput :=
  { input.rename with
    decodeRenameFifoDataOut := fun i => s.decodeRenameFifo.getD i emptySlot
    decodeRenameFifoDataOutValid := fifoDataOutValid s.decodeRenameFifo
    robRenameNewId := s.loadStore.rob.newId
    robRenameNewIdValid := s.loadStore.rob.newIdValid
    commitFeedbackPack := frontEndFeedback s input }

def frontEndRenamed : List (RobItem × DecodeRenamePack) :=
  let r := frontEndRenameInput s input
  if r.renameRobPush then
    ((List.range renameWidth).filter r.renameRobDataValid).map fun i => (r.robItem i, r.revPack i)
  else []

def frontEndLoadStoreInput : LoadStoreInput :=
  { input.loadStore with
    renamed := frontEndRenamed s input
    offer := renameOffer (frontEndRenameInput s input) }

/-- The write the store buffer issues, as it reaches the memory. -/
def frontEndTcmWrite : TcmWrite :=
  let item := stbufCurItem s.loadStore.stbuf
  busTcmWrite (stbufBusWriteReq s.loadStore.stbuf (frontEndFeedback s input))
    item.addr item.size item.data

/-! ## One cycle -/

def frontEndNext : FrontEndState :=
  let f := frontEndFetchInput s input
  let r := frontEndRenameInput s input
  let fb := frontEndFeedback s input
  let addr := fetchBusAddr s.fetch f
  let req := fetchBusReadReq s.fetch f
  { fetch := fetchNext s.fetch f
    bus := busFetchNext req addr
    tcm := tcmCopyNext s.tcm (busTcmAddr addr) (busTcmFetchRd req addr) (frontEndTcmWrite s input)
    fetchDecodeFifo := fifoNext fetchDecodeFifoSize s.fetchDecodeFifo (fetchDecodePack s.fetch f)
      (fetchEnable s.fetch f) (fetchDecodeFifoPush s.fetch f) (decodeMoves s) true fb.flushing
    decodeRenameFifo := fifoNext decodeRenameFifoSize s.decodeRenameFifo (decodeSendPack s)
      (decodeMoves s) true r.sendEnable r.renameRobPush fb.flushing
    loadStore := loadStoreNext s.loadStore (frontEndLoadStoreInput s input) }

/-! ## What an outside observer sees -/

def frontEndPushed : List FetchDecodePack := fetchPushed s.fetch (frontEndFetchInput s input)

def frontEndBusWrites : List StoreWrite := busWrites s.loadStore input.loadStore

def frontEndRetiredStores : List StoreWrite := retiredStores s.loadStore input.loadStore

/-- The instructions that retire in this cycle, in program order. -/
def frontEndRetired : List FetchDecodePack :=
  (s.loadStore.rob.entries.take
    (popCount s.loadStore.commit (loadStoreCommitInput s.loadStore input.loadStore))).map
      fun e => e.tag.op.toFetchDecodePack

/-- The pcs of the entries that leave `rob.sv` in this cycle, as it shows them to commit. -/
def frontEndRetiredPcs : List Nat :=
  let c := loadStoreCommitInput s.loadStore input.loadStore
  (List.range (popCount s.loadStore.commit c)).map fun i => (retireData c i).pc

/-- The instructions between fetch and retirement, oldest first. -/
def inFlight : List FetchDecodePack :=
  s.loadStore.rob.entries.map (fun e => e.tag.op.toFetchDecodePack) ++
    s.decodeRenameFifo.map (·.toFetchDecodePack) ++ s.fetchDecodeFifo

/-- The other units answer as they should, and issue sends loads and stores in order. -/
structure FrontEndAllowed : Prop where
  others : OthersAnswer s.loadStore (frontEndLoadStoreInput s input)
  inOrder : issueAccepted s.loadStore (frontEndLoadStoreInput s input) = true →
    IssuesInOrder s.loadStore (frontEndLoadStoreInput s input)

instance : Decidable (FrontEndAllowed s input) :=
  decidable_of_iff (OthersAnswer s.loadStore (frontEndLoadStoreInput s input) ∧
      (issueAccepted s.loadStore (frontEndLoadStoreInput s input) = true →
        IssuesInOrder s.loadStore (frontEndLoadStoreInput s input)))
    ⟨fun h => ⟨h.1, h.2⟩, fun h => ⟨h.1, h.2⟩⟩

end Cycle

/-! ## The memory as the stores leave it -/

/-- A write of the store buffer, if it falls into the TCM. -/
def applyWrite (mem : Nat → BitVec 8) (w : StoreWrite) : Nat → BitVec 8 :=
  let write := busTcmWrite true w.addr w.size w.data
  writeBytes tcmSize write.addr write.byteCount write.stbufSetWriteData mem

def applyWrites (mem : Nat → BitVec 8) (ws : List StoreWrite) : Nat → BitVec 8 :=
  ws.foldl applyWrite mem

/-- The byte at an address of the memory when it consists of `mem`, bank by bank. -/
def initialByte (mem : Nat → Nat → BitVec 8) (a : Nat) : BitVec 8 :=
  mem (a % tcmBankNum) (a / tcmBankNum % tcmBankDepth)

/-- The instruction word at `pc`. -/
def wordAt (mem : Nat → BitVec 8) (pc : Nat) : Nat :=
  ofBytes (fun k => mem (busTcmAddr pc + k)) 4

/-- The word of `fence.i`. -/
def isFenceIWord (value : Nat) : Bool :=
  decide (value &&& 0x7f = 0x0f) && decide ((value >>> 12) &&& 0x07 = 0x01)

/-! ## What holds before and after a `fence.i` -/

/-- Since any moment after which commit has not flushed, what was in flight and what has been
pushed has retired, in order, and nothing else. -/
def OlderRetired (s : FrontEndState) (inputs : List FrontEndInput) : Prop :=
  ∀ before since, inputs = before ++ since →
    Along frontEndNext (fun s input => (frontEndFeedback s input).flushing = false)
      (run frontEndNext s before) since →
    outputs frontEndNext frontEndRetired (run frontEndNext s before) since =
      inFlight (run frontEndNext s before) ++
        outputs frontEndNext frontEndPushed (run frontEndNext s before) since

/-- In every cycle, aligned words pushed from the memory are those that `mem` holds after
the writes since. -/
def WordsAfter (mem : Nat → BitVec 8) (s : FrontEndState) (inputs : List FrontEndInput) : Prop :=
  ∀ since now rest, inputs = since ++ now :: rest →
    inTcm (run frontEndNext s since).fetch.pc = true →
    ∀ p ∈ frontEndPushed (run frontEndNext s since) now, p.hasException = false →
      p.value = wordAt (applyWrites mem (outputs frontEndNext frontEndBusWrites s since)) p.pc

/-- What the push of a `fence.i` in the cycle `input` finds and leaves. -/
structure FenceFresh (mem : Nat → Nat → BitVec 8) (start : FrontEndState)
    (inputs : List FrontEndInput) (input : FrontEndInput) (later : List FrontEndInput) : Prop where
  alone : inFlight (run frontEndNext start inputs) = []
  older : OlderRetired start inputs
  shown : outputs frontEndNext frontEndRetiredPcs start inputs =
    (outputs frontEndNext frontEndRetired start inputs).map (·.pc)
  written : outputs frontEndNext frontEndBusWrites start inputs =
    outputs frontEndNext frontEndRetiredStores start inputs
  words : WordsAfter
    (applyWrites (initialByte mem) (outputs frontEndNext frontEndRetiredStores start inputs))
    (run frontEndNext start inputs) (input :: later)

end DreamCore.Model
