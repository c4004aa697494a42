import Mathlib.Tactic.SplitIfs

/-!
# One instruction of RV32I

What an instruction word asks for, given the pc and the registers, written with the
fields and immediates of the manual: the value a register gets, where the program goes
on, or which bytes are read or written.  The effect on memory is left to whoever performs
the access.
-/

namespace DreamCore.Rv32i

/-! ## Fields and immediates -/

section Word

variable (w : BitVec 32)

def opcode : BitVec 7 := w.extractLsb' 0 7

def rd : BitVec 5 := w.extractLsb' 7 5

def funct3 : BitVec 3 := w.extractLsb' 12 3

def rs1 : BitVec 5 := w.extractLsb' 15 5

def rs2 : BitVec 5 := w.extractLsb' 20 5

def funct7 : BitVec 7 := w.extractLsb' 25 7

def immI : BitVec 32 := (w.extractLsb' 20 12).signExtend 32

def immS : BitVec 32 := (w.extractLsb' 25 7 ++ w.extractLsb' 7 5).signExtend 32

def immB : BitVec 32 :=
  (w.extractLsb' 31 1 ++ w.extractLsb' 7 1 ++ w.extractLsb' 25 6 ++ w.extractLsb' 8 4 ++
    0#1).signExtend 32

def immU : BitVec 32 := w.extractLsb' 12 20 ++ 0#12

def immJ : BitVec 32 :=
  (w.extractLsb' 31 1 ++ w.extractLsb' 12 8 ++ w.extractLsb' 20 1 ++ w.extractLsb' 21 10 ++
    0#1).signExtend 32

end Word

/-! ## Operations -/

inductive AluFn where
  | add | sub | sll | slt | sltu | xor | srl | sra | or | and
  deriving DecidableEq

/-- The shift amount is the lower five bits of the second operand. -/
def AluFn.eval (f : AluFn) (a b : BitVec 32) : BitVec 32 :=
  match f with
  | add => a + b
  | sub => a - b
  | sll => a <<< (b.toNat % 32)
  | slt => if a.toInt < b.toInt then 1 else 0
  | sltu => if a.toNat < b.toNat then 1 else 0
  | xor => a ^^^ b
  | srl => a >>> (b.toNat % 32)
  | sra => a.sshiftRight (b.toNat % 32)
  | or => a ||| b
  | and => a &&& b

/-- The operation of `funct3` with a zero `funct7`, and the alternate one. -/
def byFunct7 (funct7 : BitVec 7) (base : AluFn) (alternate : Option AluFn) : Option AluFn :=
  if funct7 = 0x00 then some base else if funct7 = 0x20 then alternate else none

/-- The operation of two registers. -/
def opFn (funct3 : BitVec 3) (funct7 : BitVec 7) : Option AluFn :=
  if funct3 = 0 then byFunct7 funct7 .add (some .sub)
  else if funct3 = 1 then byFunct7 funct7 .sll none
  else if funct3 = 2 then byFunct7 funct7 .slt none
  else if funct3 = 3 then byFunct7 funct7 .sltu none
  else if funct3 = 4 then byFunct7 funct7 .xor none
  else if funct3 = 5 then byFunct7 funct7 .srl (some .sra)
  else if funct3 = 6 then byFunct7 funct7 .or none
  else byFunct7 funct7 .and none

/-- The operation of a register and an immediate; a shift has `funct7` in it. -/
def opImmFn (funct3 : BitVec 3) (funct7 : BitVec 7) : Option AluFn :=
  if funct3 = 0 then some .add
  else if funct3 = 2 then some .slt
  else if funct3 = 3 then some .sltu
  else if funct3 = 4 then some .xor
  else if funct3 = 6 then some .or
  else if funct3 = 7 then some .and
  else if funct3 = 1 then if funct7 = 0x00 then some .sll else none
  else if funct7 = 0x00 then some .srl
  else if funct7 = 0x20 then some .sra
  else none

inductive BranchFn where
  | eq | ne | lt | ge | ltu | geu
  deriving DecidableEq

def BranchFn.holds (f : BranchFn) (a b : BitVec 32) : Bool :=
  match f with
  | eq => decide (a = b)
  | ne => decide (a ≠ b)
  | lt => decide (a.toInt < b.toInt)
  | ge => decide (b.toInt ≤ a.toInt)
  | ltu => decide (a.toNat < b.toNat)
  | geu => decide (b.toNat ≤ a.toNat)

def branchFn (funct3 : BitVec 3) : Option BranchFn :=
  if funct3 = 0 then some .eq
  else if funct3 = 1 then some .ne
  else if funct3 = 4 then some .lt
  else if funct3 = 5 then some .ge
  else if funct3 = 6 then some .ltu
  else if funct3 = 7 then some .geu
  else none

/-- How many bytes a load reads, and whether they are sign-extended. -/
structure LoadForm where
  bytes : Nat
  signed : Bool

def loadForm (funct3 : BitVec 3) : Option LoadForm :=
  if funct3 = 0 then some ⟨1, true⟩
  else if funct3 = 1 then some ⟨2, true⟩
  else if funct3 = 2 then some ⟨4, true⟩
  else if funct3 = 4 then some ⟨1, false⟩
  else if funct3 = 5 then some ⟨2, false⟩
  else none

/-- The register value of a load that read the number `n`. -/
def LoadForm.extend (form : LoadForm) (n : Nat) : BitVec 32 :=
  if form.signed then (BitVec.ofNat (8 * form.bytes) n).signExtend 32
  else (BitVec.ofNat (8 * form.bytes) n).setWidth 32

def storeBytes (funct3 : BitVec 3) : Option Nat :=
  if funct3 = 0 then some 1
  else if funct3 = 1 then some 2
  else if funct3 = 2 then some 4
  else none

/-! ## Instructions -/

/-- After `write`, `load`, `store`, `fence` and an untaken branch the program goes on at
`pc + 4`.  A jump to a `misaligned` target is a trap of the jump itself. -/
inductive Outcome where
  | write (rd : BitVec 5) (value : BitVec 32)
  | jump (rd : BitVec 5) (link target : BitVec 32)
  | branch (taken : Bool) (target : BitVec 32)
  | load (rd : BitVec 5) (form : LoadForm) (addr : BitVec 32)
  | store (bytes : Nat) (addr value : BitVec 32)
  | fence
  | trap (cause : Nat)
  | trapReturn
  | misaligned (target : BitVec 32)

/-- Every instruction is at a multiple of four. -/
def Outcome.checkTarget : Outcome → Outcome
  | .jump rd link target =>
      if target.toNat % 4 = 0 then .jump rd link target else .misaligned target
  | .branch true target =>
      if target.toNat % 4 = 0 then .branch true target else .misaligned target
  | o => o

/-- A target that passes the check is kept. -/
theorem Outcome.eq_of_checkTarget {o o' : Outcome} (h : o.checkTarget = o')
    (halign : ∀ target, o' ≠ .misaligned target) : o = o' := by
  cases o with
  | jump rd link target =>
      rw [checkTarget] at h
      split_ifs at h
      · exact h
      · exact absurd h.symm (halign target)
  | branch taken target =>
      cases taken with
      | false => exact h
      | true =>
          rw [checkTarget] at h
          split_ifs at h
          · exact h
          · exact absurd h.symm (halign target)
  | _ => exact h

section Outcome

variable (w pc : BitVec 32) (x : BitVec 5 → BitVec 32)

def branchOutcome : Option Outcome :=
  (branchFn (funct3 w)).map fun f => .branch (f.holds (x (rs1 w)) (x (rs2 w))) (pc + immB w)

def loadOutcome : Option Outcome :=
  (loadForm (funct3 w)).map fun form => .load (rd w) form (x (rs1 w) + immI w)

def storeOutcome : Option Outcome :=
  (storeBytes (funct3 w)).map fun bytes => .store bytes (x (rs1 w) + immS w) (x (rs2 w))

def opImmOutcome : Option Outcome :=
  (opImmFn (funct3 w) (funct7 w)).map fun f => .write (rd w) (f.eval (x (rs1 w)) (immI w))

def opOutcome : Option Outcome :=
  (opFn (funct3 w) (funct7 w)).map fun f => .write (rd w) (f.eval (x (rs1 w)) (x (rs2 w)))

/-- `ecall` and `ebreak` from machine mode, and the return from it. -/
def systemOutcome : Option Outcome :=
  if w = 0x00000073 then some (.trap 11)
  else if w = 0x00100073 then some (.trap 3)
  else if w = 0x30200073 then some .trapReturn
  else none

/-- What the word asks for before the target of a jump is checked; `none` for a word that
is not an instruction of the base set.  The fields a fence reserves are ignored. -/
def attempt : Option Outcome :=
  if opcode w = 0x37 then some (.write (rd w) (immU w))
  else if opcode w = 0x17 then some (.write (rd w) (pc + immU w))
  else if opcode w = 0x6f then some (.jump (rd w) (pc + 4) (pc + immJ w))
  else if opcode w = 0x67 then
    if funct3 w = 0 then some (.jump (rd w) (pc + 4) ((x (rs1 w) + immI w) &&& ~~~1#32)) else none
  else if opcode w = 0x63 then branchOutcome w pc x
  else if opcode w = 0x03 then loadOutcome w x
  else if opcode w = 0x23 then storeOutcome w x
  else if opcode w = 0x13 then opImmOutcome w x
  else if opcode w = 0x33 then opOutcome w x
  else if opcode w = 0x0f then if funct3 w = 0 then some .fence else none
  else if opcode w = 0x73 then systemOutcome w
  else none

def outcome : Option Outcome := (attempt w pc x).map Outcome.checkTarget

end Outcome

end DreamCore.Rv32i
