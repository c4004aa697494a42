import DreamCore.Rtl.Types

/-!
# Register alias table (`rat.sv`)

One row for each physical register: the architectural register it was allocated
for, whether it is allocated, and whether it is the current mapping.  Several
updates meet the same row in one cycle and are resolved by a fixed priority.
-/

namespace DreamCore.Rtl

structure RatState where
  mapTable : Nat → Nat
  mapValid : Nat → Bool
  mapVisible : Nat → Bool

structure RatInput where
  renameRatPhyId : Nat → Nat
  renameRatPhyIdValid : Nat → Bool
  renameRatArchId : Nat → Nat
  renameRatMap : Bool
  commitRatReleasePhyId : Nat → Nat
  commitRatReleasePhyIdValid : Nat → Bool
  commitRatReleaseMap : Bool
  commitRatRestoreNewPhyId : Nat
  commitRatRestoreOldPhyId : Nat
  commitRatRestoreMap : Bool
  commitRatMapTableValid : Nat → Bool
  commitRatMapTableVisible : Nat → Bool
  commitRatMapTableRestore : Bool

/-- Registers 1 to 31 start as their own mapping. -/
def isResetMapping (p : Nat) : Bool := decide (1 ≤ p) && decide (p < archRegNum)

def ratReset : RatState where
  mapTable := fun p => if isResetMapping p then p else 0
  mapValid := isResetMapping
  mapVisible := isResetMapping

/-! ## New physical registers -/

/-- The scan for free rows up to row `i`: the ids found and their number. -/
def newPhyIdTemp (mapValid : Nat → Bool) : Nat → (Nat → Nat) × Nat
  | 0 => (fun _ => 0, if mapValid 0 then 0 else 1)
  | i + 1 =>
      let found := newPhyIdTemp mapValid i
      if !mapValid (i + 1) && decide (found.2 < renameWidth) then
        (fun k => if k = found.2 then i + 1 else found.1 k, found.2 + 1)
      else found

def ratRenameNewPhyId (s : RatState) (k : Nat) : Nat :=
  (newPhyIdTemp s.mapValid (phyRegNum - 1)).1 k

def ratRenameNewPhyIdValid (s : RatState) (k : Nat) : Bool :=
  decide (k < (newPhyIdTemp s.mapValid (phyRegNum - 1)).2)

/-! ## Per-row update signals -/

section Signals

variable (s : RatState) (input : RatInput) (p : Nat)

def newArchIdCmp (j : Nat) : Bool :=
  decide (input.renameRatPhyId j = p) && input.renameRatPhyIdValid j

def newArchIdValid : Bool := anyBit renameWidth (newArchIdCmp input p)

def newArchId : Nat :=
  input.renameRatArchId (parallelFinder renameWidth (newArchIdCmp input p))

/-- A later channel of the bundle maps the same architectural register. -/
def visibleChannelDisableCmp (i j : Nat) : Bool :=
  decide (i < j) && decide (input.renameRatArchId i = input.renameRatArchId j) &&
    input.renameRatPhyIdValid j

def visibleEnableCmp (j : Nat) : Bool :=
  decide (input.renameRatPhyId j = p) && input.renameRatPhyIdValid j &&
    !anyBit renameWidth (visibleChannelDisableCmp input j)

def visibleEnable : Bool := anyBit renameWidth (visibleEnableCmp input p)

def hidePhyIdCmp (j : Nat) : Bool :=
  decide (input.renameRatArchId j = s.mapTable p) && s.mapValid p && s.mapVisible p &&
    input.renameRatPhyIdValid j

def hidePhyId : Bool := anyBit renameWidth (hidePhyIdCmp s input p)

def releasePhyIdCmp (j : Nat) : Bool :=
  decide (input.commitRatReleasePhyId j = p) && input.commitRatReleasePhyIdValid j

def releasePhyIdValid : Bool := anyBit commitWidth (releasePhyIdCmp input p)

/-! ## Next state -/

def mapValidNext : Bool :=
  if input.commitRatMapTableRestore then input.commitRatMapTableValid p
  else if decide (p = input.commitRatRestoreNewPhyId) && input.commitRatRestoreMap then false
  else if decide (p = input.commitRatRestoreOldPhyId) && input.commitRatRestoreMap then true
  else if releasePhyIdValid input p && input.commitRatReleaseMap then false
  else if newArchIdValid input p && input.renameRatMap then true
  else s.mapValid p

def mapVisibleNext : Bool :=
  if input.commitRatMapTableRestore then input.commitRatMapTableVisible p
  else if decide (p = input.commitRatRestoreNewPhyId) && input.commitRatRestoreMap then false
  else if decide (p = input.commitRatRestoreOldPhyId) && input.commitRatRestoreMap then true
  else if hidePhyId s input p && input.renameRatMap then false
  else if visibleEnable input p && input.renameRatMap then true
  else s.mapVisible p

def mapTableNext : Nat :=
  if newArchIdValid input p && input.renameRatMap then newArchId input p else s.mapTable p

end Signals

def ratNext (s : RatState) (input : RatInput) : RatState where
  mapTable := mapTableNext s input
  mapValid := mapValidNext s input
  mapVisible := mapVisibleNext s input

/-! ## Lookup -/

def camArchIdCmp (s : RatState) (arch p : Nat) : Bool :=
  s.mapValid p && s.mapVisible p && decide (s.mapTable p = arch)

/-- The associative lookup `rat_rename_read_phy_id`. -/
def ratReadPhyId (s : RatState) (arch : Nat) : Nat :=
  parallelFinder phyRegNum (camArchIdCmp s arch)

end DreamCore.Rtl
