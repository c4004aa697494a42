import DreamCore.Rtl.Tcm

/-!
# The banks as one memory

Byte `a` of the memory lies in bank `a % 16`.  A write changes the bytes it covers and
no others; the data of a read port is the sixteen bytes behind the address, as they are
after the write of the same cycle.
-/

namespace DreamCore.Proofs

open DreamCore.Bytes DreamCore.Rtl

/-- The byte at an address of the memory, around its end. -/
def tcmByte (c : TcmCopy) (a : Nat) : BitVec 8 :=
  (c.banks (a % tcmBankNum)).mem (a / tcmBankNum % tcmBankDepth)

/-! ## Selection of a bank -/

/-- The byte of the set that bank `i` holds. -/
def setIndexOf (addr i : Nat) : Nat := (i + tcmBankNum - addr % tcmBankNum) % tcmBankNum

theorem bankIdCmp_iff {addr i j : Nat} (hi : i < tcmBankNum) (hj : j < tcmBankNum) :
    bankIdCmp addr i j = true ↔ j = setIndexOf addr i := by
  rw [bankIdCmp, decide_eq_true_iff]
  simp only [fullAddrSet, setIndexOf, tcmBankNum] at *
  omega

theorem setIndexOf_lt (addr i : Nat) : setIndexOf addr i < tcmBankNum := Nat.mod_lt _ (by decide)

theorem packedBool_left (x : Bool) : Packed.or Packed.zero x = x := Bool.false_or x

theorem packedBool_right (x : Bool) : Packed.or x Packed.zero = x := Bool.or_false x

theorem packedByte_left (x : BitVec 8) : Packed.or Packed.zero x = x := BitVec.zero_or

theorem packedByte_right (x : BitVec 8) : Packed.or x Packed.zero = x := BitVec.or_zero

theorem packedNat_left (x : Nat) : Packed.or Packed.zero x = x := Nat.zero_or x

theorem packedNat_right (x : Nat) : Packed.or x Packed.zero = x := Nat.or_zero x

theorem bankSetIndex_eq {addr i : Nat} (hi : i < tcmBankNum) :
    bankSetIndex addr i = setIndexOf addr i :=
  parallelFinder_unique (setIndexOf_lt addr i) fun _ hj => bankIdCmp_iff hi hj

theorem bankAddr_eq {addr i : Nat} (hi : i < tcmBankNum) :
    bankAddr addr i = fullAddrSet addr (setIndexOf addr i) / tcmBankNum % tcmBankDepth := by
  rw [bankAddr, dataSelector_single packedNat_left packedNat_right (setIndexOf_lt addr i)
    fun _ hj => bankIdCmp_iff hi hj]
  rfl

theorem stbufBankWe_eq (w : TcmWrite) {i : Nat} (hi : i < tcmBankNum) :
    w.stbufBankWe i = w.stbufSetWe (setIndexOf w.addr i) :=
  dataSelector_single packedBool_left packedBool_right (setIndexOf_lt w.addr i)
    fun _ hj => bankIdCmp_iff hi hj

theorem stbufBankWriteData_eq (w : TcmWrite) {i : Nat} (hi : i < tcmBankNum) :
    w.stbufBankWriteData i = w.stbufSetWriteData (setIndexOf w.addr i) :=
  dataSelector_single packedByte_left packedByte_right (setIndexOf_lt w.addr i)
    fun _ hj => bankIdCmp_iff hi hj

/-! ## Writes -/

theorem byteCount_le (w : TcmWrite) : w.byteCount ≤ 4 := by
  unfold TcmWrite.byteCount
  repeat' split
  all_goals omega

/-- The rows of the bytes of an address set. -/
theorem sameRow_iff {addr a : Nat} : bankAddr addr (a % tcmBankNum) = a / tcmBankNum % tcmBankDepth ↔
    a % tcmSize = (addr + setIndexOf addr (a % tcmBankNum)) % tcmSize := by
  rw [bankAddr_eq (Nat.mod_lt _ (by decide))]
  simp only [fullAddrSet, setIndexOf, tcmBankNum, tcmBankDepth, tcmSize]
  omega

/-- A write replaces its bytes. -/
theorem tcmByte_next (c : TcmCopy) (readAddr : Nat) (rd : Bool) (w : TcmWrite) :
    tcmByte (tcmCopyNext c readAddr rd w) =
      writeBytes tcmSize w.addr w.byteCount w.stbufSetWriteData (tcmByte c) := by
  funext a
  have hbank : a % tcmBankNum < tcmBankNum := Nat.mod_lt _ (by decide)
  have hcount := byteCount_le w
  show (if w.stbufBankWe (a % tcmBankNum) then
      Function.update (c.banks (a % tcmBankNum)).mem (bankAddr w.addr (a % tcmBankNum))
        (w.stbufBankWriteData (a % tcmBankNum))
    else (c.banks (a % tcmBankNum)).mem) (a / tcmBankNum % tcmBankDepth) = _
  rw [stbufBankWe_eq w hbank, stbufBankWriteData_eq w hbank, writeBytes, TcmWrite.stbufSetWe]
  by_cases hrow : a / tcmBankNum % tcmBankDepth = bankAddr w.addr (a % tcmBankNum)
  · have hoffset : offset tcmSize w.addr a = setIndexOf w.addr (a % tcmBankNum) :=
      (offset_eq_iff (Nat.lt_trans (setIndexOf_lt w.addr _) (by decide))).2
        (sameRow_iff.1 hrow.symm)
    rw [hoffset, hrow]
    by_cases hlt : setIndexOf w.addr (a % tcmBankNum) < w.byteCount
    · rw [if_pos (decide_eq_true hlt), if_pos hlt, Function.update_self]
    · rw [if_neg (by simpa using hlt), if_neg hlt, tcmByte, hrow]
  · have hfar : ¬offset tcmSize w.addr a < w.byteCount := by
      intro hlt
      have heq := (offset_eq_iff (Nat.lt_of_lt_of_le hlt (Nat.le_trans hcount (by decide)))).1
        (rfl : offset tcmSize w.addr a = offset tcmSize w.addr a)
      have hindex : setIndexOf w.addr (a % tcmBankNum) = offset tcmSize w.addr a := by
        generalize offset tcmSize w.addr a = k at *
        simp only [setIndexOf, tcmBankNum, tcmSize] at *
        omega
      exact hrow (sameRow_iff.2 (hindex ▸ heq)).symm
    rw [if_neg hfar]
    split
    · rw [Function.update_of_ne hrow]
      rfl
    · rfl

/-! ## Reads -/

theorem memReadData_next {width : Nat} (s : MemState width) {input : MemInput width}
    (hrd : input.rd = true) : memReadData (memNext s input) = (memNext s input).mem input.readAddr := by
  simp only [memReadData, memNext, hrd, Bool.true_and, if_true]
  cases input.we with
  | false => rfl
  | true =>
      by_cases heq : input.writeAddr = input.readAddr
      · simp [heq]
      · simp [heq, Function.update_of_ne (Ne.symm heq)]

theorem bankDataRecombine_eq (c : TcmCopy) (n : Nat) : bankDataRecombine c n =
    orShifted (bankDataReg c) (fun i => bankSetIndex c.addrR i) (n + 1) := by
  have hshift : ∀ i, bankSetIndex c.addrR i <<< 3 = 8 * bankSetIndex c.addrR i := fun i => by
    rw [Nat.shiftLeft_eq, Nat.mul_comm]
  induction n with
  | zero => rw [bankDataRecombine, orShifted, orShifted, Nat.zero_or, hshift]
  | succ n ih =>
      rw [bankDataRecombine, ih, hshift]
      rfl

/-- The data of a port puts the banks in the order of the registered address. -/
theorem tcmBusData_eq (c : TcmCopy) :
    tcmBusData c = ofBytes (fun k => bankDataReg c ((c.addrR + k) % tcmBankNum)) tcmBankNum := by
  have hplace : ∀ i j, i < tcmBankNum → j < tcmBankNum →
      (bankSetIndex c.addrR i = j ↔ i = (c.addrR + j) % tcmBankNum) := by
    intro i j hi hj
    rw [bankSetIndex_eq hi]
    simp only [setIndexOf, tcmBankNum] at *
    omega
  rw [tcmBusData, bankDataRecombine_eq]
  refine orShifted_perm (fun i hi => ?_) (fun j _ => Nat.mod_lt _ (by decide)) hplace
  rw [bankSetIndex_eq hi]
  exact setIndexOf_lt _ _

/-- A read returns the memory as the write of its own cycle leaves it. -/
theorem tcmBusData_next (c : TcmCopy) (readAddr : Nat) (w : TcmWrite) :
    tcmBusData (tcmCopyNext c readAddr true w) =
      ofBytes (fun k => tcmByte (tcmCopyNext c readAddr true w) (readAddr + k)) tcmBankNum := by
  rw [tcmBusData_eq]
  refine ofBytes_congr fun k hk => ?_
  have haddr : (tcmCopyNext c readAddr true w).addrR = readAddr := rfl
  have hbank : (readAddr + k) % tcmBankNum < tcmBankNum := Nat.mod_lt _ (by decide)
  have hread : bankDataReg (tcmCopyNext c readAddr true w) ((readAddr + k) % tcmBankNum) =
      ((tcmCopyNext c readAddr true w).banks ((readAddr + k) % tcmBankNum)).mem
        (bankAddr readAddr ((readAddr + k) % tcmBankNum)) :=
    memReadData_next (c.banks ((readAddr + k) % tcmBankNum)) rfl
  have hrow : bankAddr readAddr ((readAddr + k) % tcmBankNum) =
      (readAddr + k) / tcmBankNum % tcmBankDepth := by
    rw [sameRow_iff]
    simp only [setIndexOf, tcmBankNum, tcmSize] at *
    omega
  rw [haddr, hread, hrow]
  rfl

end DreamCore.Proofs
