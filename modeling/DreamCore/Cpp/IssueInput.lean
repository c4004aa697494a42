import DreamCore.Rtl.Readreg

/-!
# Register read and the input part of issue in the C++ model (`readreg.cpp`, `issue.cpp`)

`issue::run` pushes the enabled slots one by one from `last_index` on and stops at the
first that finds the queue full; `readreg::run` and `rename::run`, called after it, do
nothing while it is busy.  `issue_q` is the list of its items.
-/

namespace DreamCore.Cpp

open DreamCore.Rtl

/-- `src1_loaded` and `src1_value`, or `src2_loaded` and `src2_value`. -/
structure Source where
  loaded : Bool
  value : Nat

section Feedback

variable (phyf : PhyRegfileState) (executeFeedbackPack wbFeedbackPack : Nat → FeedbackChannel)

/-! ## Register read -/

/-- The loop over the channels with `channels` left; the first match ends it. -/
def readregFeedback (phyId : Nat) : Nat → Source
  | 0 => ⟨false, 0⟩
  | channels + 1 =>
      let j := executeUnitNum - (channels + 1)
      if (executeFeedbackPack j).enable && decide (phyId = (executeFeedbackPack j).phyId) then
        ⟨true, (executeFeedbackPack j).value⟩
      else if (wbFeedbackPack j).enable && decide (phyId = (wbFeedbackPack j).phyId) then
        ⟨true, (wbFeedbackPack j).value⟩
      else readregFeedback phyId channels

def readregSource (enable valid needMap : Bool) (argSrc : ArgSrc) (imm phyId : Nat) : Source :=
  if enable && valid then
    if needMap then
      if phyf.dataValid phyId then ⟨true, phyf.data phyId⟩
      else readregFeedback executeFeedbackPack wbFeedbackPack phyId executeUnitNum
    else if argSrc = .imm then ⟨true, imm⟩
    else ⟨true, 0⟩
  else ⟨true, 0⟩

def readregSend (rev : RenameReadregOpInfo) : ReadregIssueOpInfo :=
  let src1 := readregSource phyf executeFeedbackPack wbFeedbackPack
    rev.enable rev.valid rev.rs1NeedMap rev.arg1Src rev.imm rev.rs1Phy
  let src2 := readregSource phyf executeFeedbackPack wbFeedbackPack
    rev.enable rev.valid rev.rs2NeedMap rev.arg2Src rev.imm rev.rs2Phy
  { toRenameReadregOpInfo := rev
    src1Value := src1.value
    src1Loaded := src1.loaded
    src2Value := src2.value
    src2Loaded := src2.loaded }

/-! ## Input of issue -/

def fedBy (needMap : Bool) (phyId : Nat) (src : Source) (channel : FeedbackChannel) : Source :=
  if channel.enable && (!src.loaded && needMap && decide (phyId = channel.phyId)) then
    ⟨true, channel.value⟩
  else src

/-- A source of `t_item`: the register file, then the channels in turn. -/
def inputSource (valid needMap : Bool) (phyId : Nat) (src : Source) : Source :=
  if valid then
    let read := if !src.loaded && needMap && phyf.dataValid phyId then ⟨true, phyf.data phyId⟩
      else src
    (List.range executeUnitNum).foldl (fun src i =>
      fedBy needMap phyId (fedBy needMap phyId src (executeFeedbackPack i)) (wbFeedbackPack i)) read
  else src

def inputItem (op : ReadregIssueOpInfo) : IssueQueueItem :=
  let src1 := inputSource phyf executeFeedbackPack wbFeedbackPack op.valid op.rs1NeedMap op.rs1Phy
    ⟨op.src1Loaded, op.src1Value⟩
  let src2 := inputSource phyf executeFeedbackPack wbFeedbackPack op.valid op.rs2NeedMap op.rs2Phy
    ⟨op.src2Loaded, op.src2Value⟩
  { op with
    src1Value := src1.value
    src1Loaded := src1.loaded
    src2Value := src2.value
    src2Loaded := src2.loaded }

end Feedback

/-- What the loop leaves: `finish`, `last_index` and the queue. -/
structure InputRun where
  finish : Bool
  lastIndex : Nat
  issueQ : List IssueQueueItem

/-- The loop over the slots with `slots` left. -/
def inputLoop (enable : Nat → Bool) (item : Nat → IssueQueueItem) :
    Nat → List IssueQueueItem → InputRun
  | 0, q => ⟨true, readregWidth, q⟩
  | slots + 1, q =>
      let lastIndex := readregWidth - (slots + 1)
      if !enable lastIndex then inputLoop enable item slots q
      else if q.length = issueQueueSize then ⟨false, lastIndex, q⟩
      else inputLoop enable item slots (q ++ [item lastIndex])

/-- The ports in front of issue and its members `busy` and `last_index`. -/
structure IssueInputState where
  renamePort : Nat → RenameReadregOpInfo
  readregPort : Nat → ReadregIssueOpInfo
  busy : Bool
  lastIndex : Nat

/-- What a cycle finds: the queue, the register file, the feedback packs and the pack
`rename::run` sends if it runs. -/
structure IssueInputCycle where
  issueQ : List IssueQueueItem
  phyf : PhyRegfileState
  executeFeedbackPack : Nat → FeedbackChannel
  wbFeedbackPack : Nat → FeedbackChannel
  commitFeedbackPack : CommitFeedbackPack
  renameSend : Nat → RenameReadregOpInfo

def issueInputReset : IssueInputState where
  renamePort := fun _ => RenameReadregOpInfo.zero
  readregPort := fun _ => ReadregIssueOpInfo.zero
  busy := false
  lastIndex := 0

section Cycle

variable (s : IssueInputState) (x : IssueInputCycle)

def issueFlushes : Bool := x.commitFeedbackPack.enable && x.commitFeedbackPack.flush

/-- Where the loop starts. -/
def inputStart : Nat := if s.busy then s.lastIndex else 0

def inputRun : InputRun :=
  inputLoop (fun i => (s.readregPort i).enable)
    (fun i => inputItem x.phyf x.executeFeedbackPack x.wbFeedbackPack (s.readregPort i))
    (readregWidth - inputStart s) x.issueQ

/-- `issue_feedback_pack.stall`. -/
def issueStall : Bool := !issueFlushes x && !(inputRun s x).finish

/-- The queue behind the input part; a flush empties it. -/
def issueQNext : List IssueQueueItem := if issueFlushes x then [] else (inputRun s x).issueQ

def readregPortNext : Nat → ReadregIssueOpInfo :=
  if !issueFlushes x then
    if !issueStall s x then
      fun i => readregSend x.phyf x.executeFeedbackPack x.wbFeedbackPack (s.renamePort i)
    else s.readregPort
  else fun _ => ReadregIssueOpInfo.zero

def renamePortNext : Nat → RenameReadregOpInfo :=
  if !issueFlushes x then
    if !issueStall s x then x.renameSend else s.renamePort
  else fun _ => RenameReadregOpInfo.zero

def issueInputNext : IssueInputState where
  renamePort := renamePortNext s x
  readregPort := readregPortNext s x
  busy := !issueFlushes x && !(inputRun s x).finish
  lastIndex :=
    if issueFlushes x then s.lastIndex
    else if (inputRun s x).finish then 0
    else (inputRun s x).lastIndex

end Cycle

end DreamCore.Cpp
