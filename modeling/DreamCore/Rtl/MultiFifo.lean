import DreamCore.Rtl.Basic

/-!
# FIFO with several ports (`multififo.sv`, `expand_one.sv`)

The contents of the ring, oldest first.  Up to four entries enter and leave in a
cycle; only the entries before the first gap do.
-/

namespace DreamCore.Rtl

/-- `PORT_NUM` of both FIFOs in front of rename. -/
def fifoPortNum : Nat := 4

def expandOne (dataIn i : Nat) : Bool := decide (i < dataIn)

section MultiFifo

variable {α : Type} (depth : Nat) (contents : List α)

def fifoFreeSpace : Nat := depth - contents.length

def fifoDataInEnable (i : Nat) : Bool := expandOne (min 4 (fifoFreeSpace depth contents)) i

def fifoDataOutValid (i : Nat) : Bool := expandOne (min 4 contents.length) i

/-- `data_in_num` and `data_out_num`. -/
def fifoPortCount (enable valid : Nat → Bool) : Nat :=
  countOneContinuous fifoPortNum fun i => valid i && enable i

/-- What is written in this cycle, for the space that `enable` tells. -/
def fifoWritten (enable : Nat → Bool) (dataIn : Nat → α) (dataInValid : Nat → Bool)
    (push : Bool) : List α :=
  if push then (List.range (fifoPortCount enable dataInValid)).map dataIn else []

def fifoPopNum (dataPopValid : Nat → Bool) (pop : Bool) : Nat :=
  if pop then fifoPortCount (fifoDataOutValid contents) dataPopValid else 0

def fifoNext (dataIn : Nat → α) (dataInValid : Nat → Bool) (push : Bool)
    (dataPopValid : Nat → Bool) (pop flush : Bool) : List α :=
  if flush then []
  else contents.drop (fifoPopNum contents dataPopValid pop) ++
    fifoWritten (fifoDataInEnable depth contents) dataIn dataInValid push

end MultiFifo

end DreamCore.Rtl
