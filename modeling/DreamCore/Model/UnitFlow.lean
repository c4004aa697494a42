import DreamCore.Model.Dataflow
import DreamCore.Rtl.ExecuteCsr
import DreamCore.Rtl.ExecuteMulDiv
import DreamCore.Rtl.IssueDispatch

/-!
# The execution units behind the issue queue

The circuit of `Dataflow` with the round-robin indices, one `handshake_dff` for each unit
and the units themselves.  What a unit hands over and whether it is busy is no longer an
input; memory, store buffer and CSR file are.
-/

namespace DreamCore.Model

open DreamCore.Rtl

structure UnitFlowState where
  flow : DataflowState
  index : OpUnit → Nat
  fifo : OpUnit → Nat → HandshakeDff

/-- The stall, the results and the checkpoint data in `outside` are driven by the circuit. -/
structure UnitFlowInput where
  outside : RecoveryInput
  stbufAllEmpty : Bool
  stbufExlsuBusDataFeedback : BitVec 128
  stbufExlsuBusReady : Bool
  stbufExlsuFull : Bool
  csrfAllMepcData : Nat
  hasUartFifo : Bool
  csrData : Nat

def unitFlowReset (robBuffer : Nat → RobItem) (checkpoints : Nat → Checkpoint)
    (buffer : Nat → IssueQueueItem) : UnitFlowState where
  flow := dataflowReset robBuffer checkpoints buffer
  index := fun _ => 0
  fifo := fun _ _ => handshakeReset

/-- The unit behind slot `j` of `execute_wb_port`. -/
def channelUnit : Nat → OpUnit × Nat
  | 0 => (.alu, 0)
  | 1 => (.alu, 1)
  | 2 => (.bru, 0)
  | 3 => (.csr, 0)
  | 4 => (.div, 0)
  | 5 => (.lsu, 0)
  | 6 => (.mul, 0)
  | _ => (.mul, 1)

section Cycle

variable (s : UnitFlowState) (x : UnitFlowInput)

def unitFeedback : CommitFeedbackPack :=
  backendFeedback (recoveryCommitData s.flow.recovery x.outside) s.flow.back x.outside.backend

def executeLsuInput (i : Nat) : ExecuteLsuInput where
  stbufExlsuBusDataFeedback := x.stbufExlsuBusDataFeedback
  stbufExlsuBusReady := x.stbufExlsuBusReady
  stbufExlsuFull := x.stbufExlsuFull
  issueLsuFifoDataOut := (s.fifo .lsu i).data
  issueLsuFifoDataOutValid := (s.fifo .lsu i).hasData
  commitFeedbackPack := unitFeedback s x

/-- `alu_wb_port_we` and its siblings; each of them is `issue_alu_fifo_pop` as well. -/
def unitWe (u : OpUnit) (i : Nat) : Bool :=
  match u with
  | .lsu => (executeLsuInput s x i).lsuWbPortWe
  | _ => (s.fifo u i).hasData && !(unitFeedback s x).flushing

/-- `send_pack` of the unit. -/
def unitSendPack (u : OpUnit) (i : Nat) : ExecuteWbPack :=
  match u with
  | .alu => executeAlu (s.fifo .alu i).data
  | .bru => executeBru x.csrfAllMepcData (s.fifo .bru i).data
  | .csr => executeCsr x.hasUartFifo x.csrData (s.fifo .csr i).data
  | .div => executeDiv (s.fifo .div i).data
  | .lsu => (executeLsuInput s x i).sendPack
  | .mul => executeMul (s.fifo .mul i).data

/-- The inputs the units give the circuit. -/
def unitInput : DataflowInput where
  outside := x.outside
  stbufAllEmpty := x.stbufAllEmpty
  issueFifoFull := fun u i => handshakeFull (s.fifo u i) (unitWe s x u i)
  unitValid := fun j => unitWe s x (channelUnit j).1 (channelUnit j).2
  unitPack := fun j => unitSendPack s x (channelUnit j).1 (channelUnit j).2

def unitQueueInput : IssueQueueInput := dataflowQueueInput s.flow (unitInput s x)

def unitFlowNext : UnitFlowState where
  flow := dataflowNext s.flow (unitInput s x)
  index := indexNext s.flow.queue (unitQueueInput s x) s.index
  fifo := fun u i => handshakeNext (s.fifo u i)
    (issueFifoDataIn s.flow.queue (unitQueueInput s x) s.index u i)
    (issueFifoPush s.flow.queue (unitQueueInput s x) s.index u i)
    (unitQueueInput s x).issueIqFlush (unitWe s x u i)

end Cycle

end DreamCore.Model
