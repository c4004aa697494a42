import DreamCore.Rtl.IssueQueue
import DreamCore.Rtl.PhyRegfile
import DreamCore.Rtl.Wb

/-!
# Register read and the segmented input of issue (`port.sv`, `readreg.sv`, `issue.sv`)

The pipeline registers hold while issue stalls.  `last_index` counts how many slots of
the bundle in the last register the issue queue already has; the others are offered to
the queue from channel 0 on.
-/

namespace DreamCore.Rtl

/-- `port.sv` with a bundle of packs. -/
def bundlePortNext {α : Type} (zero : α) (dataIn : Nat → α) (we flush : Bool) (dataOut : Nat → α) :
    Nat → α :=
  if flush then fun _ => zero else if we then dataIn else dataOut

def ReadregIssueOpInfo.zero : ReadregIssueOpInfo := ExecuteWbPack.zero.toReadregIssueOpInfo

def RenameReadregOpInfo.zero : RenameReadregOpInfo :=
  ReadregIssueOpInfo.zero.toRenameReadregOpInfo

/-! ## Register read -/

section Readreg

variable (phyf : PhyRegfileState) (executeFeedbackPack wbFeedbackPack : Nat → FeedbackChannel)

/-- The execute channels, then the write-back channels. -/
def feedbackChannel (k : Nat) : FeedbackChannel :=
  if k < executeUnitNum then executeFeedbackPack k else wbFeedbackPack (k - executeUnitNum)

theorem feedbackChannel_execute {k : Nat} (hk : k < executeUnitNum) :
    feedbackChannel executeFeedbackPack wbFeedbackPack k = executeFeedbackPack k := if_pos hk

theorem feedbackChannel_wb (k : Nat) :
    feedbackChannel executeFeedbackPack wbFeedbackPack (executeUnitNum + k) = wbFeedbackPack k := by
  rw [feedbackChannel, if_neg (by omega), Nat.add_sub_cancel_left]

def feedbackDataCmp (phyId k : Nat) : Bool :=
  (feedbackChannel executeFeedbackPack wbFeedbackPack k).enable &&
    decide (phyId = (feedbackChannel executeFeedbackPack wbFeedbackPack k).phyId)

def readregFeedbackData (phyId : Nat) : Nat :=
  dataSelector (executeUnitNum * 2) (feedbackDataCmp executeFeedbackPack wbFeedbackPack phyId)
    fun k => (feedbackChannel executeFeedbackPack wbFeedbackPack k).value

def readregFeedbackDataValid (phyId : Nat) : Bool :=
  anyBit (executeUnitNum * 2) (feedbackDataCmp executeFeedbackPack wbFeedbackPack phyId)

def readregValue (needMap : Bool) (argSrc : ArgSrc) (imm phyId : Nat) : Nat :=
  if needMap then
    if phyf.dataValid phyId then phyf.data phyId
    else readregFeedbackData executeFeedbackPack wbFeedbackPack phyId
  else if argSrc = .imm then imm
  else 0

def readregLoaded (enable valid needMap : Bool) (phyId : Nat) : Bool :=
  !enable || !valid || !needMap || phyf.dataValid phyId ||
    readregFeedbackDataValid executeFeedbackPack wbFeedbackPack phyId

/-- A slot of `send_pack`. -/
def readregSendPack (rev : RenameReadregOpInfo) : ReadregIssueOpInfo :=
  { toRenameReadregOpInfo := rev
    src1Value := readregValue phyf executeFeedbackPack wbFeedbackPack
      rev.rs1NeedMap rev.arg1Src rev.imm rev.rs1Phy
    src1Loaded := readregLoaded phyf executeFeedbackPack wbFeedbackPack
      rev.enable rev.valid rev.rs1NeedMap rev.rs1Phy
    src2Value := readregValue phyf executeFeedbackPack wbFeedbackPack
      rev.rs2NeedMap rev.arg2Src rev.imm rev.rs2Phy
    src2Loaded := readregLoaded phyf executeFeedbackPack wbFeedbackPack
      rev.enable rev.valid rev.rs2NeedMap rev.rs2Phy }

end Readreg

/-! ## Input part of issue -/

/-- `issue_iq_flush`. -/
def issueIqFlushOf (fb : CommitFeedbackPack) : Bool := fb.enable && fb.flush

def tItemEmpty : IssueQueueItem :=
  { ReadregIssueOpInfo.zero with arg1Src := .disable, arg2Src := .disable }

section IssueInput

variable (phyf : PhyRegfileState) (input : IssueQueueInput)

/-- A source is assigned a whole feedback channel, of which the value is the low word. -/
def tItemValue (loaded : Bool) (value phyId : Nat) : Nat :=
  if loaded then value
  else if phyf.dataValid phyId then phyf.data phyId
  else if anyBit executeUnitNum (phyExefbCmp input phyId) then
    (input.executeFeedbackPack (parallelFinder executeUnitNum (phyExefbCmp input phyId))).value
  else (input.wbFeedbackPack (parallelFinder wbWidth (phyWbfbCmp input phyId))).value

def tItemLoaded (loaded : Bool) (phyId : Nat) : Bool :=
  loaded || phyf.dataValid phyId || anyBit executeUnitNum (phyExefbCmp input phyId) ||
    anyBit wbWidth (phyWbfbCmp input phyId)

def tItem (op : ReadregIssueOpInfo) : IssueQueueItem :=
  { op with
    src1Value := tItemValue phyf input op.src1Loaded op.src1Value op.rs1Phy
    src1Loaded := tItemLoaded phyf input op.src1Loaded op.rs1Phy
    src2Value := tItemValue phyf input op.src2Loaded op.src2Value op.rs2Phy
    src2Loaded := tItemLoaded phyf input op.src2Loaded op.rs2Phy }

variable (curOp : Nat → ReadregIssueOpInfo) (lastIndex : Nat) (channelEnable : Nat → Bool)

def redirectedValid (i : Nat) : Bool := decide (i + lastIndex < readregWidth)

def tItemRedirected (i : Nat) : IssueQueueItem :=
  if redirectedValid lastIndex i then tItem phyf input (curOp (i + lastIndex)) else tItemEmpty

def redirectedPackValid (i : Nat) : Bool :=
  redirectedValid lastIndex i && (tItemRedirected phyf input curOp lastIndex i).enable

def issueIqDataValidOf (i : Nat) : Bool :=
  redirectedPackValid phyf input curOp lastIndex i && channelEnable i

/-- `busy` and `issue_feedback_pack.stall`. -/
def issueBusy : Bool :=
  !issueIqFlushOf input.commitFeedbackPack &&
    anyBit readregWidth fun i =>
      issueIqDataValidOf phyf input curOp lastIndex channelEnable i !=
        redirectedPackValid phyf input curOp lastIndex i

def inputPushNum : Nat :=
  countOneContinuous readregWidth (issueIqDataValidOf phyf input curOp lastIndex channelEnable)

def lastIndexNext : Nat :=
  if !issueBusy phyf input curOp lastIndex channelEnable then 0
  else (lastIndex + inputPushNum phyf input curOp lastIndex channelEnable) % readregWidth

end IssueInput

end DreamCore.Rtl
