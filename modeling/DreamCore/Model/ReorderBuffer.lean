import DreamCore.Model.IdealRob
import DreamCore.Rtl.Rename

/-!
# The reorder buffer of a pipeline

The entries in flight as an in-order list, alone or beside `rob.sv`.  Alone the list
answers rename and commit itself, and its grants are exact.  Beside `rob.sv` every answer
comes from the pointers and the buffer there; the list records what was pushed and
nothing reads it.
-/

namespace DreamCore.Model

open DreamCore.Rtl

structure ReorderBuffer (γ : Type) extends IdealRob γ where
  rtl : Option RobState

variable {γ : Type}

instance : Coe (ReorderBuffer γ) (IdealRob γ) := ⟨ReorderBuffer.toIdealRob⟩

namespace ReorderBuffer

variable (r : ReorderBuffer γ)

/-- Nothing in flight; the entries of `rob.sv` keep whatever they held. -/
def reset (buffer : Option (Nat → RobItem)) : ReorderBuffer γ where
  headId := 0
  entries := []
  rtl := buffer.map robReset

/-- What commit sees; only the list alone has a use for `stale`. -/
def view (stale : Nat → RobItem) : RobView :=
  match r.rtl with
  | none => r.toIdealRob.view stale
  | some rob => robView rob

def newId : Nat → Nat :=
  match r.rtl with
  | none => r.toIdealRob.newId
  | some rob => robRenameNewId rob

def newIdValid : Nat → Bool :=
  match r.rtl with
  | none => r.toIdealRob.newIdValid
  | some rob => robRenameNewIdValid rob

/-- One cycle of the list and of `rob.sv`. -/
def next (update : Nat → Entry γ → Entry γ) (pops : Nat) (pushed : List (Entry γ))
    (flush : Bool) (input : RobInput) : ReorderBuffer γ where
  toIdealRob := r.toIdealRob.next update pops pushed flush
  rtl := r.rtl.map (robNext · input)

end ReorderBuffer

/-- What rename offers `rob.sv` in a cycle. -/
structure RenameOffer where
  renameRobData : Nat → RobItem
  renameRobDataValid : Nat → Bool
  renameRobPush : Bool

def renameOffer (r : RenameInput) : RenameOffer :=
  ⟨r.robItem, r.renameRobDataValid, r.renameRobPush⟩

/-- Rename sends nothing behind an instruction that it holds back. -/
def SendsInOrder (r : RenameInput) : Prop :=
  ∀ i, i < renameWidth → r.sendEnable i = true → ∀ j, j < i → r.sendEnable j = true

instance (r : RenameInput) : Decidable (SendsInOrder r) :=
  inferInstanceAs (Decidable (∀ i, i < renameWidth → _ → ∀ j, j < i → _))

/-- The inputs of `rob.sv`: what rename offers and what commit sends. -/
def robInputOf (s : CommitState) (c : CommitInput) (offer : RenameOffer) : RobInput where
  renameRobData := offer.renameRobData
  renameRobDataValid := offer.renameRobDataValid
  renameRobPush := offer.renameRobPush
  commitRobInputId := fun j => (c.wbCommitPortDataOut j).robId
  commitRobInputData := inputRobItem c
  commitRobInputDataWe := commitRobInputDataWe s c
  commitRobRetireId := retireId c
  commitRobRetirePop := commitRobRetirePop s c
  commitRobFlush := commitRobFlush s c

end DreamCore.Model
