import DreamCore.Cpp.ExecuteCsr
import DreamCore.Model.Retirement
import Mathlib.Tactic.MkIffOfInductiveProp

/-!
# CSR instructions

What each of the six instructions does to a register it may or may not write: the value
it returns, the write it makes when it retires, and when it is illegal.
-/

namespace DreamCore.Model

open DreamCore.Rtl

inductive CsrForm where
  | csrrw | csrrs | csrrc | csrrwi | csrrsi | csrrci
  deriving DecidableEq

namespace CsrForm

def funct3 : CsrForm → Nat
  | csrrw => 1
  | csrrs => 2
  | csrrc => 3
  | csrrwi => 5
  | csrrsi => 6
  | csrrci => 7

def subOp : CsrForm → Nat
  | csrrw | csrrwi => CsrOp.csrrw
  | csrrs | csrrsi => CsrOp.csrrs
  | csrrc | csrrci => CsrOp.csrrc

def isReg : CsrForm → Bool
  | csrrw | csrrs | csrrc => true
  | csrrwi | csrrsi | csrrci => false

/-- The word is an instruction of this form. -/
def Encodes (form : CsrForm) (word : Nat) : Prop :=
  wordOpcode word = 0x73 ∧ wordFunct3 word = form.funct3

instance (form : CsrForm) (word : Nat) : Decidable (form.Encodes word) :=
  inferInstanceAs (Decidable (_ ∧ _))

/-- The source: a register, zero for `x0`, or the immediate `zimm`. -/
def source (form : CsrForm) (rs1 regData : Nat) : Nat :=
  if form.isReg then if rs1 = 0 then 0 else regData else rs1

/-- Setting and clearing no bits does not count as writing. -/
def writes (form : CsrForm) (rs1 : Nat) : Bool :=
  match form with
  | csrrw | csrrwi => true
  | csrrs | csrrc | csrrsi | csrrci => decide (rs1 ≠ 0)

def newValue (form : CsrForm) (old src : Nat) : Nat :=
  match form with
  | csrrw | csrrwi => src
  | csrrs | csrrsi => old ||| src
  | csrrc | csrrci => (BitVec.ofNat 32 old &&& ~~~BitVec.ofNat 32 src).toNat

/-- An access to a register that does not exist, or a write to a read-only one. -/
def illegal (form : CsrForm) (rs1 : Nat) (present writable : Bool) : Bool :=
  !present || (form.writes rs1 && !writable)

/-- The result `w` of the instruction and the writes its retirement makes are right. -/
@[mk_iff] structure Follows (form : CsrForm) (word regData old : Nat) (present writable : Bool)
    (w : ExecuteWbPack) (csrWrites : List (Nat × Nat)) : Prop where
  hasException : w.hasException = form.illegal (wordRs1 word) present writable
  exceptionId : w.hasException = true → w.exceptionId = RiscvException.illegalInstruction
  rdValue : w.hasException = false → w.rdValue = old
  csrWrites : csrWrites =
    if form.writes (wordRs1 word) && !form.illegal (wordRs1 word) present writable then
      [(immI word, form.newValue old (form.source (wordRs1 word) regData))]
    else []

/-- Where the hardware is right: `csrrw` takes `x0` for no write, and the immediate forms
neither fault on a read-only register nor know the zero immediate. -/
def RtlFollows (form : CsrForm) (rs1 : Nat) (present writable : Bool) : Prop :=
  present = true →
    match form with
    | csrrw => rs1 ≠ 0
    | csrrs | csrrc => True
    | csrrwi => writable = true
    | csrrsi | csrrci => (writable = true ↔ rs1 ≠ 0)

/-- Where the C++ model is right: it checks every write it makes. -/
def CppFollows (form : CsrForm) (rs1 : Nat) (present : Bool) : Prop :=
  present = true →
    match form with
    | csrrw | csrrsi | csrrci => rs1 ≠ 0
    | csrrs | csrrc | csrrwi => True

instance (form : CsrForm) (rs1 : Nat) (present writable : Bool) :
    Decidable (form.RtlFollows rs1 present writable) := by
  cases form <;> unfold RtlFollows <;> infer_instance

instance (form : CsrForm) (rs1 : Nat) (present : Bool) :
    Decidable (form.CppFollows rs1 present) := by
  cases form <;> unfold CppFollows <;> infer_instance

end CsrForm

end DreamCore.Model
