import Mathlib.Data.Nat.Bitwise

/-!
# The bootloader on the device (`main.c`, `crc.c`)

Memory is a byte for each address, the packet buffer a part of it; pointers and offsets
wrap as `uint32_t` does.  The bytes that arrive are a list; a function that waits for more
of them than arrive has no result.  Printed texts are left out.
-/

namespace DreamCore.Bootloader

abbrev Memory := Nat → UInt8

def prgLoadAddr : Nat := 0x80020000
def packBufSize : Nat := 10240

/-- Where `pack_buf` is. -/
structure Layout where
  packBuf : Nat
  fits : packBuf + packBufSize ≤ 2 ^ 32

def packHead : UInt8 := 0x55
def packTail : UInt8 := 0xAA
def packTran : UInt8 := 0xCC
def packTran55 : UInt8 := 0x05
def packTranAA : UInt8 := 0x0A
def packTranCC : UInt8 := 0x0C

def packCmdSetcuroffset : UInt8 := 0x01
def packCmdWritebuffer : UInt8 := 0x02
def packCmdWriteok : UInt8 := 0x03
def packErrOk : UInt8 := 0x5A
def packErrUnknownarg : UInt8 := 0x7C
def packErrUnknownpack : UInt8 := 0xFF

def crcArray : List UInt8 :=
  [0x00, 0x07, 0x0E, 0x09, 0x1C, 0x1B, 0x12, 0x15, 0x38, 0x3F, 0x36, 0x31, 0x24, 0x23, 0x2A, 0x2D,
    0x70, 0x77, 0x7E, 0x79, 0x6C, 0x6B, 0x62, 0x65, 0x48, 0x4F, 0x46, 0x41, 0x54, 0x53, 0x5A, 0x5D,
    0xE0, 0xE7, 0xEE, 0xE9, 0xFC, 0xFB, 0xF2, 0xF5, 0xD8, 0xDF, 0xD6, 0xD1, 0xC4, 0xC3, 0xCA, 0xCD,
    0x90, 0x97, 0x9E, 0x99, 0x8C, 0x8B, 0x82, 0x85, 0xA8, 0xAF, 0xA6, 0xA1, 0xB4, 0xB3, 0xBA, 0xBD,
    0xC7, 0xC0, 0xC9, 0xCE, 0xDB, 0xDC, 0xD5, 0xD2, 0xFF, 0xF8, 0xF1, 0xF6, 0xE3, 0xE4, 0xED, 0xEA,
    0xB7, 0xB0, 0xB9, 0xBE, 0xAB, 0xAC, 0xA5, 0xA2, 0x8F, 0x88, 0x81, 0x86, 0x93, 0x94, 0x9D, 0x9A,
    0x27, 0x20, 0x29, 0x2E, 0x3B, 0x3C, 0x35, 0x32, 0x1F, 0x18, 0x11, 0x16, 0x03, 0x04, 0x0D, 0x0A,
    0x57, 0x50, 0x59, 0x5E, 0x4B, 0x4C, 0x45, 0x42, 0x6F, 0x68, 0x61, 0x66, 0x73, 0x74, 0x7D, 0x7A,
    0x89, 0x8E, 0x87, 0x80, 0x95, 0x92, 0x9B, 0x9C, 0xB1, 0xB6, 0xBF, 0xB8, 0xAD, 0xAA, 0xA3, 0xA4,
    0xF9, 0xFE, 0xF7, 0xF0, 0xE5, 0xE2, 0xEB, 0xEC, 0xC1, 0xC6, 0xCF, 0xC8, 0xDD, 0xDA, 0xD3, 0xD4,
    0x69, 0x6E, 0x67, 0x60, 0x75, 0x72, 0x7B, 0x7C, 0x51, 0x56, 0x5F, 0x58, 0x4D, 0x4A, 0x43, 0x44,
    0x19, 0x1E, 0x17, 0x10, 0x05, 0x02, 0x0B, 0x0C, 0x21, 0x26, 0x2F, 0x28, 0x3D, 0x3A, 0x33, 0x34,
    0x4E, 0x49, 0x40, 0x47, 0x52, 0x55, 0x5C, 0x5B, 0x76, 0x71, 0x78, 0x7F, 0x6A, 0x6D, 0x64, 0x63,
    0x3E, 0x39, 0x30, 0x37, 0x22, 0x25, 0x2C, 0x2B, 0x06, 0x01, 0x08, 0x0F, 0x1A, 0x1D, 0x14, 0x13,
    0xAE, 0xA9, 0xA0, 0xA7, 0xB2, 0xB5, 0xBC, 0xBB, 0x96, 0x91, 0x98, 0x9F, 0x8A, 0x8D, 0x84, 0x83,
    0xDE, 0xD9, 0xD0, 0xD7, 0xC2, 0xC5, 0xCC, 0xCB, 0xE6, 0xE1, 0xE8, 0xEF, 0xFA, 0xFD, 0xF4, 0xF3]

/-! ## Packets; a pointer to bytes is what it points at by index -/

def crc8L (buf : Nat → UInt8) (length : Nat) : UInt8 :=
  (List.range length).foldl (fun crc8 i => crcArray.getD (crc8 ^^^ buf i).toNat 0)
    (UInt8.ofNat length)

def sendTran (dat : UInt8) : List UInt8 :=
  if dat = 0x55 then [packTran, packTran55]
  else if dat = 0xAA then [packTran, packTranAA]
  else if dat = 0xCC then [packTran, packTranCC]
  else [dat]

def sendPack (buf : Nat → UInt8) (length : Nat) : List UInt8 :=
  packHead :: (sendTran (crc8L buf length) ++
    ((List.range length).flatMap (fun i => sendTran (buf i)) ++ [packTail]))

/-- `dat = err; send_pack(&dat, 1)`. -/
def sendErr (err : UInt8) : List UInt8 := sendPack (fun _ => err) 1

/-- The local variables of `rev_pack`. -/
structure RevPack where
  tranMode : Bool
  revMode : Bool
  waitCrc : Bool
  curLength : Nat
  crcValue : UInt8

def revPackStart : RevPack := ⟨false, false, false, 0, 0⟩

def writeByte (mem : Memory) (addr : Nat) (dat : UInt8) : Memory :=
  fun a => if a = addr then dat else mem a

section RevPack

variable (buf maxLength : Nat)

/-- The code at `pack_data_deal`. -/
def packDataDeal (r : RevPack) (mem : Memory) (dat : UInt8) : RevPack × Memory :=
  if r.waitCrc then ({ r with crcValue := dat, waitCrc := false }, mem)
  else if r.curLength < maxLength then
    ({ r with curLength := r.curLength + 1 }, writeByte mem (buf + r.curLength) dat)
  else ({ r with revMode := false }, mem)

/-- One turn of the loop, and whether it returns. -/
def revPackTurn (r : RevPack) (mem : Memory) (dat : UInt8) : (RevPack × Memory) × Bool :=
  if r.revMode || decide (dat = packHead) then
    if !r.tranMode then
      if dat = packHead then
        (({ r with waitCrc := true, tranMode := false, curLength := 0, revMode := true }, mem), false)
      else if dat = packTail then
        (({ r with revMode := false }, mem),
          decide (crc8L (fun i => mem (buf + i)) r.curLength = r.crcValue))
      else if dat = packTran then (({ r with tranMode := true }, mem), false)
      else (packDataDeal buf maxLength r mem dat, false)
    else if dat = packTran55 then
      (packDataDeal buf maxLength { r with tranMode := false } mem 0x55, false)
    else if dat = packTranAA then
      (packDataDeal buf maxLength { r with tranMode := false } mem 0xAA, false)
    else if dat = packTranCC then
      (packDataDeal buf maxLength { r with tranMode := false } mem 0xCC, false)
    else (({ r with tranMode := false, revMode := false }, mem), false)
  else ((r, mem), false)

/-- The length of the packet, the memory and the bytes that are left. -/
def revPackLoop : RevPack → Memory → List UInt8 → Option (Nat × Memory × List UInt8)
  | _, _, [] => none
  | r, mem, dat :: input =>
      let turn := revPackTurn buf maxLength r mem dat
      if turn.2 then some (turn.1.1.curLength, turn.1.2, input)
      else revPackLoop turn.1.1 turn.1.2 input

def revPack (mem : Memory) (input : List UInt8) : Option (Nat × Memory × List UInt8) :=
  revPackLoop buf maxLength revPackStart mem input

end RevPack

/-! ## Commands -/

def getUint32 (buf : Nat → UInt8) : Nat :=
  (buf 0).toNat ||| (buf 1).toNat <<< 8 ||| (buf 2).toNat <<< 16 ||| (buf 3).toNat <<< 24

/-- An address of the destination has 32 bits; the source is an object in memory. -/
def memcpy (mem : Memory) (dst src n : Nat) : Memory := fun a =>
  let i := (a + 2 ^ 32 - dst) % 2 ^ 32
  if a < 2 ^ 32 ∧ i < n then mem (src + i) else mem a

section Memcpy

variable {mem : Memory} {dst src n : Nat} (hwrap : dst + n ≤ 2 ^ 32)
include hwrap

theorem memcpy_inside {k : Nat} (hk : k < n) : memcpy mem dst src n (dst + k) = mem (src + k) := by
  have hoffset : (dst + k + 2 ^ 32 - dst) % 2 ^ 32 = k := by omega
  rw [memcpy, hoffset, if_pos ⟨by omega, hk⟩]

theorem memcpy_outside {a : Nat} (ha : ¬(dst ≤ a ∧ a < dst + n)) :
    memcpy mem dst src n a = mem a := by
  rw [memcpy, if_neg]
  rintro ⟨hlt, hoffset⟩
  omega

end Memcpy

/-- The variables of `rev_bin_data`. -/
structure BinData where
  curOffset : Nat
  mem : Memory

section Commands

variable (packBuf : Nat)

/-- What is done for a packet of this length, the bytes sent and whether it is the last. -/
def handlePack (s : BinData) (length : Nat) : BinData × List UInt8 × Bool :=
  if 0 < length then
    if s.mem packBuf = packCmdSetcuroffset then
      ({ s with curOffset := getUint32 fun i => s.mem (packBuf + 1 + i) }, sendErr packErrOk, false)
    else if s.mem packBuf = packCmdWritebuffer then
      let unknownarg :=
        if (prgLoadAddr + s.curOffset + length + 2 ^ 32 - 2) % 2 ^ 32 < prgLoadAddr then
          sendErr packErrUnknownarg
        else []
      ({ curOffset := (s.curOffset + length - 1) % 2 ^ 32
         mem := memcpy s.mem ((prgLoadAddr + s.curOffset) % 2 ^ 32) (packBuf + 1) (length - 1) },
        unknownarg ++ sendErr packErrOk, false)
    else if s.mem packBuf = packCmdWriteok then (s, sendErr packErrOk, true)
    else (s, sendErr packErrUnknownpack, false)
  else (s, sendErr packErrUnknownpack, false)

/-- What a transfer leaves: the bytes sent for each packet, the offset that is returned, the
memory and the bytes that are left. -/
structure Transfer where
  replies : List (List UInt8)
  curOffset : Nat
  mem : Memory
  input : List UInt8

/-- The loop, with the number of turns left. -/
def binDataLoop : Nat → BinData → List UInt8 → Option Transfer
  | 0, _, _ => none
  | turns + 1, s, input =>
      match revPack packBuf packBufSize s.mem input with
      | none => none
      | some (length, mem, input) =>
          let handled := handlePack packBuf { s with mem := mem } length
          if handled.2.2 then some ⟨[handled.2.1], handled.1.curOffset, handled.1.mem, input⟩
          else (binDataLoop turns handled.1 input).map fun t =>
            { t with replies := handled.2.1 :: t.replies }

end Commands

/-- `rev_bin_data`; a packet takes a byte at least. -/
def revBinData (l : Layout) (mem : Memory) (input : List UInt8) : Option Transfer :=
  binDataLoop l.packBuf input.length ⟨0, mem⟩ input

end DreamCore.Bootloader
