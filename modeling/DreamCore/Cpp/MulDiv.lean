import DreamCore.Rtl.Types

/-!
# Multiplier and divider of the model (`execute/mul.cpp`, `execute/div.cpp`)

The values the two units give an enabled and valid instruction.  The casts to
`int32_t` make division and remainder signed, except in `remu`, whose dividend is cast
back to `uint32_t`; products are taken on 64 bits.
-/

namespace DreamCore.Cpp

def divOverflow (src1Value src2Value : BitVec 32) : Bool :=
  decide (src1Value = 0x80000000#32) && decide (src2Value = 0xFFFFFFFF#32)

section Values

variable (src1Value src2Value : BitVec 32)

def divValue : BitVec 32 :=
  if src2Value = 0 then 0xFFFFFFFF#32
  else if divOverflow src1Value src2Value then 0x80000000#32
  else BitVec.ofInt 32 (src1Value.toInt.tdiv src2Value.toInt)

def divuValue : BitVec 32 :=
  if src2Value = 0 then 0xFFFFFFFF#32 else src1Value / src2Value

def remValue : BitVec 32 :=
  if src2Value = 0 then src1Value
  else if divOverflow src1Value src2Value then 0
  else BitVec.ofInt 32 (src1Value.toInt.tmod src2Value.toInt)

def remuValue : BitVec 32 :=
  if src2Value = 0 then src1Value else src1Value % src2Value

/-- The 64-bit product of two `int64_t`. -/
def signedProduct : BitVec 64 := BitVec.ofInt 64 (src1Value.toInt * src2Value.toInt)

def mulValue : BitVec 32 := (signedProduct src1Value src2Value).setWidth 32

def mulhValue : BitVec 32 := (signedProduct src1Value src2Value >>> 32).setWidth 32

/-- An `int64_t` times a `uint64_t`: the first factor is converted. -/
def mulhsuValue : BitVec 32 :=
  ((BitVec.ofInt 64 src1Value.toInt * BitVec.ofNat 64 src2Value.toNat) >>> 32).setWidth 32

def mulhuValue : BitVec 32 :=
  ((BitVec.ofNat 64 src1Value.toNat * BitVec.ofNat 64 src2Value.toNat) >>> 32).setWidth 32

end Values

end DreamCore.Cpp
