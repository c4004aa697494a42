import DreamCore.Rtl.Types

/-!
# Physical register file (`phy_regfile.sv`)

The values of the physical registers and a bit that says a value is there.
-/

namespace DreamCore.Rtl

structure PhyRegfileState where
  dataValid : Nat → Bool
  data : Nat → Nat

structure PhyRegfileInput where
  wbPhyfId : Nat → Nat
  wbPhyfData : Nat → Nat
  wbPhyfWe : Nat → Bool
  commitPhyfId : Nat → Nat
  commitPhyfInvalid : Nat → Bool
  commitPhyfFlushId : Nat
  commitPhyfFlushInvalid : Bool
  commitPhyfDataValid : Nat → Bool
  commitPhyfDataValidRestore : Bool

def phyRegfileReset : PhyRegfileState where
  dataValid := fun p => decide (1 ≤ p) && decide (p < archRegNum)
  data := fun _ => 0

section Row

variable (s : PhyRegfileState) (input : PhyRegfileInput) (p : Nat)

def wbPhyfIdCmp (j : Nat) : Bool := decide (p = input.wbPhyfId j) && input.wbPhyfWe j

def commitPhyfIdCmp (j : Nat) : Bool :=
  decide (p = input.commitPhyfId j) && input.commitPhyfInvalid j

def dataValidNext : Bool :=
  if input.commitPhyfDataValidRestore then input.commitPhyfDataValid p
  else if anyBit wbWidth (wbPhyfIdCmp input p) then true
  else if anyBit commitWidth (commitPhyfIdCmp input p) then false
  else if input.commitPhyfFlushInvalid && decide (p = input.commitPhyfFlushId) then false
  else s.dataValid p

/-- The restore takes the place of a write-back to the same row. -/
def dataNext : Nat :=
  if input.commitPhyfDataValidRestore then s.data p
  else if anyBit wbWidth (wbPhyfIdCmp input p) then
    dataSelector wbWidth (wbPhyfIdCmp input p) input.wbPhyfData
  else s.data p

end Row

def phyRegfileNext (s : PhyRegfileState) (input : PhyRegfileInput) : PhyRegfileState where
  dataValid := dataValidNext s input
  data := dataNext s input

end DreamCore.Rtl
