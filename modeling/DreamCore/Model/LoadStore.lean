import DreamCore.Model.ReorderBuffer
import DreamCore.Rtl.ExecuteLsu

/-!
# Load/store unit, store buffer and commit together

One step is one clock cycle.  The instructions rename adds, the operation issue
selects for the load/store unit, the results of the other units, the bus and the
interrupt lines are inputs.  Each entry of the reorder buffer remembers the decoded
instruction and, once a load or store has been issued, the pack issue sent.
-/

namespace DreamCore.Model

open DreamCore.Ring DreamCore.Rtl

structure LsuInFlight where
  op : DecodeRenamePack
  issued : Option IssueExecutePack

structure LoadStoreState where
  commit : CommitState
  rob : ReorderBuffer LsuInFlight
  lsuFifo : HandshakeDff
  lsuWbPort : ExecuteWbPack
  wbCommitPort : Nat → ExecuteWbPack
  stbuf : StoreBufferState

/-- `env` carries what commit reads from outside: the interrupt lines and the CSR file.
`renamed` are the instructions rename adds, `offer` is how `rob.sv` gets them. -/
structure LoadStoreInput where
  renamed : List (RobItem × DecodeRenamePack)
  offer : RenameOffer
  issueItem : ReadregIssueOpInfo
  issueLsuFifoPush : Bool
  executeWb : Nat → ExecuteWbPack
  busStbufData : BitVec 32
  busStbufReadAck : Bool
  env : CommitInput
  stale : Nat → RobItem

def loadStoreReset (buffer : Nat → StoreBufferItem) : LoadStoreState where
  commit := commitReset
  rob := .reset none
  lsuFifo := handshakeReset
  lsuWbPort := ExecuteWbPack.zero
  wbCommitPort := fun _ => ExecuteWbPack.zero
  stbuf := storeBufferReset buffer

/-- The reset state with `rob.sv` in its place, whatever its entries hold. -/
def loadStoreRtlReset (robBuffer : Nat → RobItem) (buffer : Nat → StoreBufferItem) :
    LoadStoreState :=
  { loadStoreReset buffer with rob := .reset (some robBuffer) }

/-- The position of the load/store unit among the eight execution units. -/
abbrev lsuWbIndex : Nat := 5

section Cycle

variable (s : LoadStoreState) (input : LoadStoreInput)

def loadStoreCommitInput : CommitInput :=
  { input.env with
    rob := s.rob.view input.stale
    wbCommitPortDataOut := s.wbCommitPort }

def loadStoreFeedback : CommitFeedbackPack :=
  commitFeedbackPack s.commit (loadStoreCommitInput s input)

def loadStoreExecuteInput : ExecuteLsuInput where
  stbufExlsuBusDataFeedback := stbufExlsuBusDataFeedback s.stbuf input.busStbufData
  stbufExlsuBusReady := input.busStbufReadAck
  stbufExlsuFull := stbufExlsuFull s.stbuf
  issueLsuFifoDataOut := s.lsuFifo.data
  issueLsuFifoDataOutValid := s.lsuFifo.hasData
  commitFeedbackPack := loadStoreFeedback s input

def loadStoreStbufInput : StoreBufferInput :=
  let x := loadStoreExecuteInput s input
  let fb := loadStoreFeedback s input
  { issueStbufReadAddr := issueLsuAddr input.issueItem
    issueStbufReadSize := issueStbufReadSize input.issueItem
    issueStbufRd := issueStbufRd input.issueItem input.issueLsuFifoPush fb.flushing
    exlsuStbufRobId := x.revPack.robId
    exlsuStbufWriteAddr := x.revPack.lsuAddr
    exlsuStbufWriteSize := x.exlsuStbufWriteSize
    exlsuStbufWriteData := x.exlsuStbufWriteData
    exlsuStbufPush := x.exlsuStbufPush
    busStbufReadAck := input.busStbufReadAck
    commitFeedbackPack := fb }

/-- The FIFO takes the operation issue offers. -/
def issueAccepted : Bool :=
  !(loadStoreFeedback s input).flushing && input.issueLsuFifoPush &&
    !handshakeFull s.lsuFifo (loadStoreExecuteInput s input).issueLsuFifoPop

/-- Write-back changes the item, the issue of its operation what is remembered. -/
def loadStoreUpdate (k : Nat) (e : Entry LsuInFlight) : Entry LsuInFlight where
  item := robItemWritten s.commit (loadStoreCommitInput s input) (s.rob.idAt k) e.item
  tag :=
    if issueAccepted s input && decide (input.issueItem.robId = s.rob.idAt k) then
      { e.tag with issued := some (issueDataConverted input.issueItem) }
    else e.tag

/-- Rename adds nothing while commit flushes. -/
def loadStorePushed : List (Entry LsuInFlight) :=
  if (loadStoreFeedback s input).flushing then []
  else input.renamed.map fun x => { item := x.1, tag := { op := x.2, issued := none } }

def executeWbPort (j : Nat) : ExecuteWbPack :=
  if j = lsuWbIndex then s.lsuWbPort else input.executeWb j

def loadStoreNext : LoadStoreState :=
  let x := loadStoreExecuteInput s input
  let fb := loadStoreFeedback s input
  { commit := commitNext s.commit (loadStoreCommitInput s input)
    rob := s.rob.next (loadStoreUpdate s input)
      (popCount s.commit (loadStoreCommitInput s input)) (loadStorePushed s input)
      (commitRobFlush s.commit (loadStoreCommitInput s input))
      (robInputOf s.commit (loadStoreCommitInput s input) input.offer)
    lsuFifo := handshakeNext s.lsuFifo (issueDataConverted input.issueItem)
      input.issueLsuFifoPush fb.flushing x.issueLsuFifoPop
    lsuWbPort := portNext s.lsuWbPort x.sendPack x.lsuWbPortWe x.lsuWbPortFlush
    wbCommitPort := wbCommitPortNext fb (executeWbPort s input)
    stbuf := storeBufferNext s.stbuf (loadStoreStbufInput s input) }

/-! ## What an outside observer sees -/

structure StoreWrite where
  addr : Nat
  size : Nat
  data : Nat
  deriving DecidableEq

/-- The write issued on the bus in this cycle. -/
def busWrites : List StoreWrite :=
  if stbufBusWriteReq s.stbuf (loadStoreFeedback s input) then
    [⟨(stbufCurItem s.stbuf).addr, (stbufCurItem s.stbuf).size, (stbufCurItem s.stbuf).data⟩]
  else []

def isStore (op : DecodeRenamePack) : Bool :=
  op.valid && decide (op.opUnit = .lsu) && !isLoad op.subOp

def packWrite (p : IssueExecutePack) : StoreWrite :=
  ⟨p.lsuAddr, accessSize p.subOp, storeData p⟩

/-- What the store of an entry writes, by the operands it was issued with. -/
def entryWrite (e : Entry LsuInFlight) : Option StoreWrite :=
  if isStore e.tag.op then some (packWrite (e.tag.issued.getD IssueExecutePack.zero)) else none

/-- The valid stores that retire in this cycle, in program order. -/
def retiredStores : List StoreWrite :=
  (s.rob.entries.take (popCount s.commit (loadStoreCommitInput s input))).filterMap entryWrite

/-! ## The assumptions on a cycle -/

/-- Issue offers the oldest load or store not issued yet, as it was decoded. -/
def IssuesInOrder : Prop :=
  ∃ k, ∃ hk : k < s.rob.entries.length, input.issueItem.robId = s.rob.idAt k ∧
    input.issueItem.toDecodeRenamePack = s.rob.entries[k].tag.op ∧
    s.rob.entries[k].tag.op.opUnit = .lsu ∧ s.rob.entries[k].tag.issued = none ∧
    ∀ j, ∀ hj : j < s.rob.entries.length, j < k → s.rob.entries[j].tag.op.opUnit = .lsu →
      s.rob.entries[j].tag.issued ≠ none

instance : Decidable (IssuesInOrder s input) :=
  inferInstanceAs (Decidable (∃ k, ∃ hk : k < s.rob.entries.length,
    input.issueItem.robId = s.rob.idAt k ∧
      input.issueItem.toDecodeRenamePack = s.rob.entries[k].tag.op ∧
      s.rob.entries[k].tag.op.opUnit = .lsu ∧ s.rob.entries[k].tag.issued = none ∧
      ∀ j, ∀ hj : j < s.rob.entries.length, j < k → s.rob.entries[j].tag.op.opUnit = .lsu →
        s.rob.entries[j].tag.issued ≠ none))

/-- The other units answer for other instructions in flight, each once. -/
structure OthersAnswer : Prop where
  inFlight : ∀ j, j < wbWidth → j ≠ lsuWbIndex → (input.executeWb j).enable = true →
    ∃ k, ∃ hk : k < s.rob.entries.length, (input.executeWb j).robId = s.rob.idAt k ∧
      s.rob.entries[k].item.finish = false ∧ s.rob.entries[k].tag.op.opUnit ≠ .lsu
  once : ∀ i, i < wbWidth → ∀ j, j < wbWidth → i ≠ lsuWbIndex → j ≠ lsuWbIndex →
    (input.executeWb i).enable = true → (input.executeWb j).enable = true →
    (input.executeWb i).robId = (input.executeWb j).robId → i = j
  notPending : ∀ i, i < wbWidth → ∀ j, j < wbWidth → j ≠ lsuWbIndex →
    (s.wbCommitPort i).enable = true → (input.executeWb j).enable = true →
    (s.wbCommitPort i).robId ≠ (input.executeWb j).robId

set_option synthInstance.maxSize 2048 in
instance : Decidable (OthersAnswer s input) :=
  decidable_of_iff
    ((∀ j, j < wbWidth → j ≠ lsuWbIndex → (input.executeWb j).enable = true →
        ∃ k, ∃ hk : k < s.rob.entries.length, (input.executeWb j).robId = s.rob.idAt k ∧
          s.rob.entries[k].item.finish = false ∧ s.rob.entries[k].tag.op.opUnit ≠ .lsu) ∧
      (∀ i, i < wbWidth → ∀ j, j < wbWidth → i ≠ lsuWbIndex → j ≠ lsuWbIndex →
        (input.executeWb i).enable = true → (input.executeWb j).enable = true →
        (input.executeWb i).robId = (input.executeWb j).robId → i = j) ∧
      ∀ i, i < wbWidth → ∀ j, j < wbWidth → j ≠ lsuWbIndex →
        (s.wbCommitPort i).enable = true → (input.executeWb j).enable = true →
        (s.wbCommitPort i).robId ≠ (input.executeWb j).robId)
    ⟨fun ⟨h1, h2, h3⟩ => ⟨h1, h2, h3⟩, fun ⟨h1, h2, h3⟩ => ⟨h1, h2, h3⟩⟩

/-- Renamed instructions fit into the buffer and have not finished. -/
structure RenamedFits : Prop where
  fits : s.rob.entries.length + input.renamed.length ≤ robSize
  enabled : ∀ x ∈ input.renamed, x.2.enable = true ∧ x.1.finish = false

instance : Decidable (RenamedFits s input) :=
  decidable_of_iff (_ ∧ _) ⟨fun h => ⟨h.1, h.2⟩, fun h => ⟨h.1, h.2⟩⟩

structure LoadStoreAllowed : Prop where
  renamed : RenamedFits s input
  others : OthersAnswer s input
  inOrder : issueAccepted s input = true → IssuesInOrder s input

instance : Decidable (LoadStoreAllowed s input) :=
  decidable_of_iff (RenamedFits s input ∧ OthersAnswer s input ∧
    (issueAccepted s input = true → IssuesInOrder s input))
    ⟨fun h => ⟨h.1, h.2.1, h.2.2⟩, fun h => ⟨h.1, h.2, h.3⟩⟩

end Cycle

end DreamCore.Model
