import DreamCore.Proofs.BootloaderTransfer

/-!
# The address check of a buffer write

A write of `n - 1` bytes at the offset fits if it ends at `2 ^ 32` or before.  The device
tests the address of the last byte in 32 bits and goes on with the write after an error
reply, so it meets its purpose only for writes that fit; of the empty ones it also refuses
that at offset 0.
-/

namespace DreamCore.Proofs

open DreamCore.Bootloader DreamCore.Bytes

section WriteCheck

variable {packBuf : Nat} {s : BinData} {n : Nat}

/-- The packets a run of `rev_bin_data` handles: the state with the packet in the buffer, and
its length. -/
def handledPacks (packBuf : Nat) : Nat → BinData → List UInt8 → List (BinData × Nat)
  | 0, _, _ => []
  | turns + 1, s, input =>
      match revPack packBuf packBufSize s.mem input with
      | none => []
      | some (length, mem, input) =>
          let handled := handlePack packBuf { s with mem := mem } length
          ({ s with mem := mem }, length) ::
            if handled.2.2 then [] else handledPacks packBuf turns handled.1 input

/-- The handled packets are those a finished run replies to. -/
theorem handledPacks_replies {turns : Nat} {input : List UInt8} {t : Transfer}
    (h : binDataLoop packBuf turns s input = some t) :
    t.replies = (handledPacks packBuf turns s input).map fun p =>
      (handlePack packBuf p.1 p.2).2.1 := by
  induction turns generalizing s input t with
  | zero => cases h
  | succ turns ih =>
      rw [binDataLoop] at h
      rw [handledPacks]
      cases hrev : revPack packBuf packBufSize s.mem input with
      | none =>
          rw [hrev] at h
          cases h
      | some packet =>
          obtain ⟨length, mem, input'⟩ := packet
          rw [hrev] at h
          simp only at h ⊢
          by_cases hlast : (handlePack packBuf { s with mem := mem } length).2.2 = true
          · rw [if_pos hlast] at h
            rw [if_pos hlast]
            cases h
            rfl
          · rw [if_neg hlast] at h
            rw [if_neg hlast]
            obtain ⟨t', ht', rfl⟩ := Option.map_eq_some_iff.mp h
            rw [List.map_cons, ← ih ht']

/-- A packet that asks for a write. -/
def IsWrite (packBuf : Nat) (s : BinData) (n : Nat) : Prop :=
  0 < n ∧ s.mem packBuf = packCmdWritebuffer

/-- The first reply to the packet is the error. -/
def RepliesError (packBuf : Nat) (s : BinData) (n : Nat) : Prop :=
  sendErr packErrUnknownarg <+: (handlePack packBuf s n).2.1

/-- What the handling of a packet of length `n` should do. -/
structure PackMeets (packBuf : Nat) (s : BinData) (n : Nat) : Prop where
  oneReply : ∃ err, (handlePack packBuf s n).2.1 = sendErr err
  unchanged : RepliesError packBuf s n → (handlePack packBuf s n).1 = s
  rejected_iff : IsWrite packBuf s n →
    (RepliesError packBuf s n ↔ 1 < n ∧ 2 ^ 32 < prgLoadAddr + s.curOffset + (n - 1))
  inside : IsWrite packBuf s n → ¬ RepliesError packBuf s n →
    ∀ a, a < prgLoadAddr → (handlePack packBuf s n).1.mem a = s.mem a

/-- A write fits, and an empty one is not at offset 0. -/
def PackSafe (packBuf : Nat) (s : BinData) (n : Nat) : Prop :=
  IsWrite packBuf s n →
    prgLoadAddr + s.curOffset + (n - 1) ≤ 2 ^ 32 ∧ (n = 1 → s.curOffset ≠ 0)

instance : Decidable (IsWrite packBuf s n) := inferInstanceAs (Decidable (_ ∧ _))

instance : Decidable (PackSafe packBuf s n) := inferInstanceAs (Decidable (_ → _))

/-! ## Replies -/

theorem length_sendErr_le (err : UInt8) : (sendErr err).length ≤ 6 := by
  have htran : ∀ dat : UInt8, (sendTran dat).length ≤ 2 := by
    intro dat
    rw [sendTran]
    split_ifs <;> simp
  have hcheck := htran (crc8L (fun _ => err) 1)
  have hdata := htran err
  have hone : (List.range 1).flatMap (fun _ => sendTran err) = sendTran err := by
    rw [show List.range 1 = [0] from rfl, List.flatMap_singleton]
  rw [sendErr, sendPack, hone]
  simp only [List.length_cons, List.length_append, List.length_nil]
  omega

theorem two_replies_ne (err : UInt8) :
    sendErr packErrUnknownarg ++ sendErr packErrOk ≠ sendErr err := by
  intro heq
  have hlen := congrArg List.length heq
  have hle := length_sendErr_le err
  have htwo : (sendErr packErrUnknownarg ++ sendErr packErrOk).length = 8 := by decide
  omega

/-- No other reply starts with the error. -/
theorem not_unknownarg_prefix :
    ¬ sendErr packErrUnknownarg <+: sendErr packErrOk ∧
      ¬ sendErr packErrUnknownarg <+: sendErr packErrUnknownpack := by decide

/-- The test of the code. -/
def checkFails (curOffset n : Nat) : Prop :=
  (prgLoadAddr + curOffset + n + 2 ^ 32 - 2) % 2 ^ 32 < prgLoadAddr

instance (curOffset n : Nat) : Decidable (checkFails curOffset n) :=
  inferInstanceAs (Decidable (_ < _))

theorem handlePack_write (h : IsWrite packBuf s n) :
    handlePack packBuf s n =
      ({ curOffset := (s.curOffset + n - 1) % 2 ^ 32
         mem := memcpy s.mem ((prgLoadAddr + s.curOffset) % 2 ^ 32) (packBuf + 1) (n - 1) },
        (if checkFails s.curOffset n then sendErr packErrUnknownarg else []) ++ sendErr packErrOk,
        false) := by
  have hother : ¬ s.mem packBuf = packCmdSetcuroffset := by
    rw [h.2]
    decide
  rw [handlePack, if_pos h.1, if_neg hother, if_pos h.2]
  rfl

/-- Every other packet has one reply, which is not the error, and sets the offset at most. -/
theorem handlePack_other (h : ¬ IsWrite packBuf s n) :
    ((handlePack packBuf s n).2.1 = sendErr packErrOk ∨
      (handlePack packBuf s n).2.1 = sendErr packErrUnknownpack) ∧
    ((handlePack packBuf s n).1 = s ∨
      (handlePack packBuf s n).1.curOffset = getUint32 fun i => s.mem (packBuf + 1 + i)) := by
  rw [handlePack]
  by_cases hpos : 0 < n
  · have hwrite : ¬ s.mem packBuf = packCmdWritebuffer := fun hcmd => h ⟨hpos, hcmd⟩
    rw [if_pos hpos, if_neg hwrite]
    by_cases hset : s.mem packBuf = packCmdSetcuroffset
    · rw [if_pos hset]
      exact ⟨.inl rfl, .inr rfl⟩
    · rw [if_neg hset]
      by_cases hok : s.mem packBuf = packCmdWriteok
      · rw [if_pos hok]
        exact ⟨.inl rfl, .inl rfl⟩
      · rw [if_neg hok]
        exact ⟨.inr rfl, .inl rfl⟩
  · rw [if_neg hpos]
    exact ⟨.inr rfl, .inl rfl⟩

theorem repliesError_write_iff (h : IsWrite packBuf s n) :
    RepliesError packBuf s n ↔ checkFails s.curOffset n := by
  rw [RepliesError, handlePack_write h]
  by_cases hfails : checkFails s.curOffset n
  · rw [if_pos hfails]
    exact iff_of_true (List.prefix_append _ _) hfails
  · rw [if_neg hfails, List.nil_append]
    exact iff_of_false not_unknownarg_prefix.1 hfails

/-! ## One packet -/

/-- For writes of at most a buffer the code refuses nothing that fits, except an empty write
at offset 0. -/
theorem not_checkFails (hpos : 0 < n)
    (hfit : prgLoadAddr + s.curOffset + (n - 1) ≤ 2 ^ 32) (hzero : n = 1 → s.curOffset ≠ 0) :
    ¬ checkFails s.curOffset n := by
  have hload : prgLoadAddr = 0x80020000 := rfl
  rw [checkFails]
  have hlast : prgLoadAddr + s.curOffset + n + 2 ^ 32 - 2 =
      (prgLoadAddr + s.curOffset + (n - 1) - 1) + 2 ^ 32 := by omega
  rw [hlast, Nat.add_mod_right, Nat.mod_eq_of_lt (by omega)]
  omega

/-- An empty write that meets its purpose does not reach the end of the address space. -/
theorem empty_checkFails (hoffset : s.curOffset < 2 ^ 32)
    (h : s.curOffset = 0 ∨ 2 ^ 32 < prgLoadAddr + s.curOffset) : checkFails s.curOffset 1 := by
  have hload : prgLoadAddr = 0x80020000 := rfl
  rw [checkFails]
  omega

theorem packMeets_iff (hoffset : s.curOffset < 2 ^ 32) :
    PackMeets packBuf s n ↔ PackSafe packBuf s n := by
  by_cases hwrite : IsWrite packBuf s n
  · have hpos := hwrite.1
    constructor
    · intro hmeets _
      have hnot : ¬ checkFails s.curOffset n := by
        intro hfails
        obtain ⟨err, herr⟩ := hmeets.oneReply
        rw [handlePack_write hwrite, if_pos hfails] at herr
        exact two_replies_ne err herr
      have hrej : ¬ RepliesError packBuf s n := mt (repliesError_write_iff hwrite).mp hnot
      have hfits := mt (hmeets.rejected_iff hwrite).mpr hrej
      rcases Nat.lt_or_ge 1 n with hdata | hempty
      · exact ⟨by omega, by omega⟩
      · obtain rfl : n = 1 := by omega
        have hinside := mt (empty_checkFails hoffset) hnot
        exact ⟨by omega, by omega⟩
    · intro hsafe
      obtain ⟨hfit, hzero⟩ := hsafe hwrite
      have hnot := not_checkFails hpos hfit hzero
      have hrej : ¬ RepliesError packBuf s n := mt (repliesError_write_iff hwrite).mp hnot
      refine ⟨⟨packErrOk, ?_⟩, fun h => absurd h hrej, fun _ => iff_of_false hrej (by omega), ?_⟩
      · rw [handlePack_write hwrite, if_neg hnot]
        rfl
      · intro _ _ a ha
        rw [handlePack_write hwrite]
        refine if_neg ?_
        rcases Nat.lt_or_ge (prgLoadAddr + s.curOffset) (2 ^ 32) with hlt | hge
        · rw [Nat.mod_eq_of_lt hlt]
          omega
        · omega
  · refine iff_of_true ?_ fun h => absurd h hwrite
    have hother := (handlePack_other hwrite).1
    have hrej : ¬ RepliesError packBuf s n := by
      rw [RepliesError]
      rcases hother with h | h <;> rw [h]
      · exact not_unknownarg_prefix.1
      · exact not_unknownarg_prefix.2
    refine ⟨?_, fun h => absurd h hrej, fun h => absurd h hwrite, fun h => absurd h hwrite⟩
    rcases hother with h | h
    · exact ⟨_, h⟩
    · exact ⟨_, h⟩

/-! ## All packets of a run -/

theorem getUint32_lt (buf : Nat → UInt8) : getUint32 buf < 2 ^ 32 := by
  have hbytes : getUint32 buf = ofBytes (fun k => (buf k).toBitVec) 4 := by
    simp only [getUint32, ofBytes, Nat.zero_or, Nat.mul_zero, Nat.shiftLeft_zero]
    rfl
  rw [hbytes]
  exact ofBytes_lt _ 4

theorem handlePack_offset (hoffset : s.curOffset < 2 ^ 32) (n : Nat) :
    (handlePack packBuf s n).1.curOffset < 2 ^ 32 := by
  by_cases hwrite : IsWrite packBuf s n
  · rw [handlePack_write hwrite]
    exact Nat.mod_lt _ (by decide)
  · rcases (handlePack_other hwrite).2 with hsame | hset
    · rw [hsame]
      exact hoffset
    · rw [hset]
      exact getUint32_lt _

theorem handledPacks_offset {turns : Nat} {input : List UInt8} (hoffset : s.curOffset < 2 ^ 32) :
    ∀ p ∈ handledPacks packBuf turns s input, p.1.curOffset < 2 ^ 32 := by
  induction turns generalizing s input with
  | zero => exact fun p hp => nomatch hp
  | succ turns ih =>
      rw [handledPacks]
      cases revPack packBuf packBufSize s.mem input with
      | none => exact fun p hp => nomatch hp
      | some packet =>
          obtain ⟨length, mem, input'⟩ := packet
          intro p hp
          rcases List.mem_cons.mp hp with rfl | hp
          · exact hoffset
          · split at hp
            · cases hp
            · exact ih (handlePack_offset (s := { s with mem := mem }) hoffset length) p hp

/-- Over every input of the device: every handled packet is answered as it should exactly if
every handled write fits and no empty one is at offset 0. -/
theorem write_check_iff (l : Layout) (mem : Memory) (input : List UInt8) :
    (∀ p ∈ handledPacks l.packBuf input.length ⟨0, mem⟩ input, PackMeets l.packBuf p.1 p.2) ↔
      ∀ p ∈ handledPacks l.packBuf input.length ⟨0, mem⟩ input, PackSafe l.packBuf p.1 p.2 := by
  have hoffset := @handledPacks_offset l.packBuf ⟨0, mem⟩ input.length input
    (show 0 < 2 ^ 32 by decide)
  exact forall₂_congr fun p hp => packMeets_iff (hoffset p hp)

/-- An offset two bytes before the end of the address space, then three bytes. -/
def pastEndInput : List UInt8 :=
  Isp.sendCmd Isp.packCmdSetcuroffset 0x7FFDFFFE ++ Isp.sendData [1, 2, 3]

/-- The third byte lies past the end: the device sends the error and writes all the same. -/
theorem write_past_end_written :
    ¬ ∀ p ∈ handledPacks 0x80010000 pastEndInput.length ⟨0, fun _ => 0⟩ pastEndInput,
      PackMeets 0x80010000 p.1 p.2 := by
  intro h
  have hunsafe : ∃ p ∈ handledPacks 0x80010000 pastEndInput.length ⟨0, fun _ => 0⟩ pastEndInput,
      p.1.curOffset < 2 ^ 32 ∧ ¬ PackSafe 0x80010000 p.1 p.2 := by decide +kernel
  obtain ⟨p, hp, hoffset, hnot⟩ := hunsafe
  exact hnot ((packMeets_iff hoffset).mp (h p hp))

end WriteCheck

end DreamCore.Proofs
