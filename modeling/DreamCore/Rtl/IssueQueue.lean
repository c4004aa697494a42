import DreamCore.Rtl.Types

/-!
# Issue queue (`issue_queue.sv`)

A list of at most `ISSUE_QUEUE_SIZE` instructions kept at the bottom of an array.  A
scan from the oldest one decides which are issued; the others take what the feedback
channels deliver, new ones are written behind them, and the array is compacted.
-/

namespace DreamCore.Rtl

abbrev IssueQueueItem := ReadregIssueOpInfo

structure IssueQueueState where
  buffer : Nat → IssueQueueItem
  wptr : Nat
  isInstWaiting : Bool
  instWaitingRobId : Nat

/-- `issueFifoFull` holds `issue_alu_fifo_full`, `issue_bru_fifo_full` and so on. -/
structure IssueQueueInput where
  issueIqData : Nat → IssueQueueItem
  issueIqDataValid : Nat → Bool
  issueIqPush : Bool
  issueIqFlush : Bool
  stbufAllEmpty : Bool
  issueFifoFull : OpUnit → Nat → Bool
  executeFeedbackPack : Nat → FeedbackChannel
  wbFeedbackPack : Nat → FeedbackChannel
  commitFeedbackPack : CommitFeedbackPack

/-- The state after reset; the items keep whatever they held. -/
def issueQueueReset (buffer : Nat → IssueQueueItem) : IssueQueueState where
  buffer := buffer
  wptr := 0
  isInstWaiting := false
  instWaitingRobId := 0

/-- `ALU_UNIT_NUM`, `BRU_UNIT_NUM` and so on. -/
def unitNum : OpUnit → Nat
  | .alu => 2
  | .bru => 1
  | .csr => 1
  | .div => 1
  | .lsu => 1
  | .mul => 2

section Space

variable (s : IssueQueueState) (input : IssueQueueInput)

def iqIssueFull : Bool :=
  decide (s.wptr / issueQueueSize % 2 = 1) && decide (s.wptr % issueQueueSize = 0)

def iqIssueEmpty : Bool := decide (s.wptr = 0)

def remainSpace : Nat :=
  if iqIssueFull s then 0 else issueQueueSize - s.wptr % issueQueueSize

/-- Bit `i` of `('b1 << remain_space) - 'b1`. -/
def iqIssueDataChannelEnable (i : Nat) : Bool := (2 ^ remainSpace s - 1).testBit i

def wptrExtIncr : Nat :=
  countOneContinuous readregWidth fun i =>
    iqIssueDataChannelEnable s i && input.issueIqDataValid i

end Space

/-! ## Feedback -/

section Feedback

variable (input : IssueQueueInput)

def phyExefbCmp (phyId j : Nat) : Bool :=
  (input.executeFeedbackPack j).enable && decide (phyId = (input.executeFeedbackPack j).phyId)

def phyWbfbCmp (phyId j : Nat) : Bool :=
  (input.wbFeedbackPack j).enable && decide (phyId = (input.wbFeedbackPack j).phyId)

def feedbackValue (loaded : Bool) (value phyId : Nat) : Nat :=
  if loaded then value
  else if anyBit executeUnitNum (phyExefbCmp input phyId) then
    (input.executeFeedbackPack (parallelFinder executeUnitNum (phyExefbCmp input phyId))).value
  else (input.wbFeedbackPack (parallelFinder wbWidth (phyWbfbCmp input phyId))).value

def feedbackLoaded (loaded : Bool) (phyId : Nat) : Bool :=
  loaded || anyBit executeUnitNum (phyExefbCmp input phyId) ||
    anyBit wbWidth (phyWbfbCmp input phyId)

/-- An item with what the feedback channels deliver to it. -/
def itemFeedback (e : IssueQueueItem) : IssueQueueItem :=
  { e with
    src1Value := feedbackValue input e.src1Loaded e.src1Value e.rs1Phy
    src1Loaded := feedbackLoaded input e.src1Loaded e.rs1Phy
    src2Value := feedbackValue input e.src2Loaded e.src2Value e.rs2Phy
    src2Loaded := feedbackLoaded input e.src2Loaded e.rs2Phy }

end Feedback

/-! ## Selection -/

section Select

variable (s : IssueQueueState) (input : IssueQueueInput)

def bufferFeedback (i : Nat) : IssueQueueItem := itemFeedback input (s.buffer i)

/-- A CSR instruction or `mret`, which executes alone. -/
def isSerialising (e : IssueQueueItem) : Bool :=
  decide (e.opUnit = .csr) || decide (e.op = .mret)

def instWaitingOkCmp (i : Nat) : Bool :=
  input.commitFeedbackPack.enable && input.commitFeedbackPack.committedRobIdValid i &&
    decide (input.commitFeedbackPack.committedRobId i = s.instWaitingRobId)

def instWaitingOk : Bool := anyBit commitWidth (instWaitingOkCmp s input)

def fenceTrigger : Nat → Bool
  | 0 =>
      decide ((bufferFeedback s input 0).op = .fence) &&
        (!input.stbufAllEmpty ||
          decide (input.commitFeedbackPack.nextHandleRobId ≠ (bufferFeedback s input 0).robId))
  | i + 1 => decide ((bufferFeedback s input (i + 1)).op = .fence)

/-- What the items before one leave to it: `*_remain_num_input`, `has_lsu_op_input`,
`need_to_exit` of the item before and `cur_output_index`. -/
structure IssueScan where
  remainNum : OpUnit → Nat
  hasLsuOp : Bool
  needToExit : Bool
  outputIndex : Nat

def scanStart : IssueScan where
  remainNum := fun u => countOne (unitNum u) fun i => !input.issueFifoFull u i
  hasLsuOp := false
  needToExit := false
  outputIndex := 0

/-- The conditions every item has to meet. -/
def itemReady (p : IssueScan) (i : Nat) : Bool :=
  decide (i < s.wptr) &&
    ((bufferFeedback s input i).src1Loaded && (bufferFeedback s input i).src2Loaded) &&
    decide (p.remainNum (bufferFeedback s input i).opUnit ≠ 0) && !fenceTrigger s input i &&
    (!s.isInstWaiting || instWaitingOk s input)

/-- `buffer_item_invalid` of item `i`, given what is left to it. -/
def itemInvalid (p : IssueScan) : Nat → Bool
  | 0 =>
      itemReady s input p 0 &&
        (!isSerialising (bufferFeedback s input 0) ||
          (input.commitFeedbackPack.nextHandleRobIdValid &&
            decide (input.commitFeedbackPack.nextHandleRobId = (bufferFeedback s input 0).robId)))
  | i + 1 =>
      itemReady s input p (i + 1) && !p.needToExit && decide (p.outputIndex < issueWidth) &&
        (decide ((bufferFeedback s input (i + 1)).opUnit ≠ .lsu) || !p.hasLsuOp) &&
        !isSerialising (bufferFeedback s input (i + 1))

def scanStep (p : IssueScan) (i : Nat) : IssueScan where
  remainNum := fun u =>
    if p.remainNum u = 0 then 0
    else p.remainNum u -
      if decide ((bufferFeedback s input i).opUnit = u) && itemInvalid s input p i then 1 else 0
  hasLsuOp := decide ((bufferFeedback s input i).opUnit = .lsu) || p.hasLsuOp
  needToExit := isSerialising (bufferFeedback s input i) || p.needToExit
  outputIndex :=
    if p.outputIndex = issueWidth then p.outputIndex
    else p.outputIndex + (itemInvalid s input p i).toNat

/-- What is left to item `i`. -/
def issueScan : Nat → IssueScan
  | 0 => scanStart input
  | i + 1 => scanStep s input (issueScan i) i

/-- Item `i` is issued in this cycle. -/
def bufferItemInvalid (i : Nat) : Bool := itemInvalid s input (issueScan s input i) i

def curOutputIndex (i : Nat) : Nat := (issueScan s input i).outputIndex

/-! ## Output ports -/

def outputPortMapCmp (i j : Nat) : Bool :=
  decide (i = curOutputIndex s input j) && bufferItemInvalid s input j

def outputPortMapIndex (i : Nat) : Nat :=
  parallelFinder issueQueueSize (outputPortMapCmp s input i)

def iqIssueData (i : Nat) : IssueQueueItem := bufferFeedback s input (outputPortMapIndex s input i)

def iqIssueDataValid (i : Nat) : Bool := anyBit issueQueueSize (outputPortMapCmp s input i)

def instRobIdCmp (i : Nat) : Bool :=
  isSerialising (iqIssueData s input i) && iqIssueDataValid s input i

def isInstWaitingNext : Bool := anyBit issueWidth (instRobIdCmp s input)

def instWaitingRobIdNext : Nat :=
  dataSelector issueWidth (instRobIdCmp s input) fun i => (iqIssueData s input i).robId

/-! ## Next state -/

def bufferItemInvalidNum : Nat := countOne issueWidth (iqIssueDataValid s input)

def iqWptrNext : Nat :=
  (s.wptr + 2 * issueQueueSize - bufferItemInvalidNum s input +
    if input.issueIqPush then wptrExtIncr s input else 0) % (2 * issueQueueSize)

def bufferInput (i : Nat) : IssueQueueItem :=
  if s.wptr ≤ i ∧ i < s.wptr + readregWidth then input.issueIqData (i - s.wptr)
  else bufferFeedback s input i

def bufferMapDst : Nat → Nat
  | 0 => 0
  | i + 1 => if !bufferItemInvalid s input i then bufferMapDst i + 1 else bufferMapDst i

def bufferMapDstCmp (i j : Nat) : Bool :=
  decide (bufferMapDst s input j = i) && !bufferItemInvalid s input j

def bufferMapSrc (i : Nat) : Nat := parallelFinder issueQueueSize (bufferMapDstCmp s input i)

def bufferNeedMap (i : Nat) : Bool := anyBit issueQueueSize (bufferMapDstCmp s input i)

def issueQueueNext : IssueQueueState where
  buffer := fun i =>
    if bufferNeedMap s input i then bufferInput s input (bufferMapSrc s input i) else s.buffer i
  wptr := if input.issueIqFlush then 0 else iqWptrNext s input
  isInstWaiting :=
    if input.issueIqFlush then false
    else if !s.isInstWaiting || instWaitingOk s input then isInstWaitingNext s input
    else s.isInstWaiting
  instWaitingRobId :=
    if input.issueIqFlush then 0
    else if !s.isInstWaiting || instWaitingOk s input then instWaitingRobIdNext s input
    else s.instWaitingRobId

end Select

end DreamCore.Rtl
