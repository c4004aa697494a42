import DreamCore.Rtl.ExecuteLsu
import DreamCore.Rtl.IssueQueue
import Mathlib.Data.Nat.Log

/-!
# Dispatch to the execution units (`list_enabled_item_id.sv`, `issue.sv`)

For every kind of unit the free ones are listed from a round-robin index on, and the
selected operations of that kind take them in order.  The alignment check of the one
load/store unit is made on the pack that is sent to it.
-/

namespace DreamCore.Rtl

/-! ## `list_enabled_item_id` -/

/-- Bits of a position among `itemNum` items: `max($clog2(ITEM_NUM) - 1, 0):0`. -/
def itemIdWidth (itemNum : Nat) : Nat := max (Nat.clog 2 itemNum) 1

section List

variable (itemNum : Nat) (seq : Nat → Bool) (startPos : Nat)

def seqShifted (i : Nat) : Bool :=
  (decide (i + startPos < itemNum) && seq (i + startPos)) ||
    (decide (itemNum - startPos ≤ i) && seq (i - (itemNum - startPos)))

def seqOutPos : Nat → Nat
  | 0 => 0
  | i + 1 => (seqOutPos i + (seqShifted itemNum seq startPos i).toNat) % 2 ^ itemIdWidth itemNum

def seqOutPosCmp (i j : Nat) : Bool := decide (i = seqOutPos itemNum seq startPos j)

def enabledItemId (i : Nat) : Nat :=
  (priorityFinderLast itemNum (seqOutPosCmp itemNum seq startPos i) + startPos) %
    2 ^ itemIdWidth itemNum

end List

/-! ## Unit selection -/

section Dispatch

variable (s : IssueQueueState) (input : IssueQueueInput) (index : OpUnit → Nat) (u : OpUnit)

/-- `issue_has_alu_op_cmp` and its siblings. -/
def issueHasOpCmp (i : Nat) : Bool :=
  iqIssueDataValid s input i && decide ((iqIssueData s input i).opUnit = u)

def issueOpNum : Nat := countOne issueWidth (issueHasOpCmp s input u)

/-- `available_alu_index` and its siblings. -/
def availableIndex (k : Nat) : Nat :=
  enabledItemId (unitNum u) (fun i => !input.issueFifoFull u i) (index u) k

/-- `alu_index` and its siblings after the cycle. -/
def indexNext : Nat :=
  if !input.issueIqFlush && decide (issueOpNum s input u ≠ 0) then
    (availableIndex input index u ((issueOpNum s input u - 1) % 2 ^ itemIdWidth (unitNum u)) + 1) &&&
      (unitNum u - 1)
  else index u

/-- `send_alu_index` and its siblings. -/
def sendIndex : Nat → Nat
  | 0 => 0
  | i + 1 => (sendIndex i + (issueHasOpCmp s input u i).toNat) % 2 ^ itemIdWidth (unitNum u)

/-- The operation of port `j` goes to unit `i`. -/
def sendInstCmp (i j : Nat) : Bool :=
  issueHasOpCmp s input u j && decide (availableIndex input index u (sendIndex s input u j) = i)

def sendInstIndex (i : Nat) : Nat := parallelFinder issueWidth (sendInstCmp s input index u i)

def issueFifoPush (i : Nat) : Bool := anyBit issueWidth (sendInstCmp s input index u i)

/-! ## Address generation -/

/-- The item behind `issue_lsu_fifo_data_in[0]`. -/
def lsuFifoItem : IssueQueueItem := iqIssueData s input (sendInstIndex s input index .lsu 0)

/-- `iq_issue_data_converted`, with `lsu_has_exception` and `lsu_exception_id`. -/
def iqIssueDataConverted (i : Nat) : IssueExecutePack :=
  let item := iqIssueData s input i
  let lsu := lsuFifoItem s input index
  { item with
    hasException := if issueIsLsu item then lsuHasException lsu else item.hasException
    exceptionId := if issueIsLsu item then lsuExceptionId lsu else item.exceptionId
    exceptionValue := if issueIsLsu item then issueLsuAddr item else item.exceptionValue
    lsuAddr := issueLsuAddr item }

def issueFifoDataIn (i : Nat) : IssueExecutePack :=
  iqIssueDataConverted s input index (sendInstIndex s input index u i)

def issueStbufReadAddr : Nat := (issueFifoDataIn s input index .lsu 0).lsuAddr

def stbufReadSizeOut : Nat := issueStbufReadSize (lsuFifoItem s input index)

def stbufRdOut : Bool :=
  issueStbufRd (lsuFifoItem s input index) (issueFifoPush s input index .lsu 0) input.issueIqFlush

end Dispatch

end DreamCore.Rtl
