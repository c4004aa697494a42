import DreamCore.Lib.Bytes
import DreamCore.Software.Bootloader
import DreamCore.Software.BootloaderIsp
import Mathlib.Tactic.SplitIfs

/-!
# A file sent to the bootloader arrives

Both programs speak the same frames: the receiver of the device, with its packet in
memory, is the receiver of the library, so a packet of the host is read whole.  Block by
block the image grows by what was sent, and nothing else changes.
-/

namespace DreamCore.Proofs

open DreamCore.Bootloader DreamCore.Bytes DreamCore.Framing

/-! ## Frames -/

theorem sendTran_stuff (dat : UInt8) : Isp.sendTran dat = stuff Isp.packCode dat := by
  simp only [Isp.sendTran, stuff, Isp.packCode]
  split_ifs <;> rfl

def ispCheck (buf : List UInt8) : UInt8 := Isp.crc8L buf buf.length

theorem sendPack_frame (buf : List UInt8) :
    Isp.sendPack buf buf.length = frame Isp.packCode ispCheck buf := by
  have htran : Isp.sendTran = stuff Isp.packCode := funext sendTran_stuff
  rw [Isp.sendPack, List.take_length, htran]
  rfl

theorem crc8L_eq (buf : Nat → UInt8) (n : Nat) :
    crc8L buf n = ispCheck ((List.range n).map buf) := by
  rw [crc8L, ispCheck, Isp.crc8L, List.take_length, List.foldl_map, List.length_map,
    List.length_range]
  rfl

/-! ## The receiver of the device -/

section Receiver

/-- The bytes of the packet so far. -/
def received (buf : Nat) (mem : Memory) (n : Nat) : List UInt8 :=
  (List.range n).map fun i => mem (buf + i)

/-- The receiver of the library with the same variables. -/
def receiverOf (buf : Nat) (r : RevPack) (mem : Memory) : Receiver UInt8 :=
  ⟨r.tranMode, r.revMode, r.waitCrc, r.crcValue, received buf mem r.curLength⟩

/-- Memory outside the buffer is as before. -/
def SameOutside (buf maxLength : Nat) (mem mem' : Memory) : Prop :=
  ∀ a, ¬(buf ≤ a ∧ a < buf + maxLength) → mem' a = mem a

variable {buf maxLength : Nat} {r : RevPack} {mem : Memory} {dat : UInt8}

theorem length_received (buf : Nat) (mem : Memory) (n : Nat) : (received buf mem n).length = n := by
  rw [received, List.length_map, List.length_range]

theorem received_write (n : Nat) :
    received buf (writeByte mem (buf + n) dat) (n + 1) = received buf mem n ++ [dat] := by
  rw [received, List.range_succ, List.map_append, received]
  congr 1
  · refine List.map_congr_left fun i hi => ?_
    have hlt := List.mem_range.1 hi
    exact if_neg (by omega)
  · exact congrArg (fun x => [x]) (if_pos rfl)

theorem packDataDeal_put :
    receiverOf buf (packDataDeal buf maxLength r mem dat).1 (packDataDeal buf maxLength r mem dat).2 =
      put maxLength (receiverOf buf r mem) dat := by
  have hlen : (receiverOf buf r mem).buf.length = r.curLength := length_received _ _ _
  rw [packDataDeal, put, hlen]
  show _ = if r.waitCrc then _ else _
  split_ifs
  · rfl
  · rw [receiverOf, received_write]
    rfl
  · rfl

theorem packDataDeal_outside :
    SameOutside buf maxLength mem (packDataDeal buf maxLength r mem dat).2 := by
  intro a ha
  rw [packDataDeal]
  split_ifs
  · rfl
  · exact if_neg (by omega)
  · rfl

theorem revPackTurn_receive :
    receiverOf buf (revPackTurn buf maxLength r mem dat).1.1
        (revPackTurn buf maxLength r mem dat).1.2 =
      (receive Isp.packCode ispCheck maxLength (receiverOf buf r mem) dat).1 ∧
    (revPackTurn buf maxLength r mem dat).2 =
      (receive Isp.packCode ispCheck maxLength (receiverOf buf r mem) dat).2 := by
  have hactive : ((receiverOf buf r mem).revMode || decide (dat = Isp.packCode.head)) =
      (r.revMode || decide (dat = packHead)) := rfl
  have htran : (receiverOf buf r mem).tranMode = r.tranMode := rfl
  rw [revPackTurn, receive, hactive, htran]
  cases r.revMode || decide (dat = packHead) with
  | false => exact ⟨rfl, rfl⟩
  | true =>
      cases r.tranMode with
      | false =>
          by_cases hhead : dat = packHead
          · rw [if_pos hhead, if_pos (show dat = Isp.packCode.head from hhead)]
            exact ⟨rfl, rfl⟩
          rw [if_neg hhead, if_neg (show ¬dat = Isp.packCode.head from hhead)]
          by_cases htail : dat = packTail
          · rw [if_pos htail, if_pos (show dat = Isp.packCode.tail from htail)]
            refine ⟨rfl, ?_⟩
            show decide (crc8L _ _ = _) = decide (_ = _)
            rw [crc8L_eq]
            rfl
          rw [if_neg htail, if_neg (show ¬dat = Isp.packCode.tail from htail)]
          by_cases htranSym : dat = packTran
          · rw [if_pos htranSym, if_pos (show dat = Isp.packCode.tran from htranSym)]
            exact ⟨rfl, rfl⟩
          rw [if_neg htranSym, if_neg (show ¬dat = Isp.packCode.tran from htranSym)]
          exact ⟨packDataDeal_put, rfl⟩
      | true =>
          have hunescape : Isp.packCode.unescape dat =
              if dat = packTran55 then some 0x55
              else if dat = packTranAA then some 0xAA
              else if dat = packTranCC then some 0xCC
              else none := rfl
          rw [hunescape]
          by_cases h55 : dat = packTran55
          · rw [if_pos h55, if_pos h55]
            exact ⟨packDataDeal_put, rfl⟩
          rw [if_neg h55, if_neg h55]
          by_cases hAA : dat = packTranAA
          · rw [if_pos hAA, if_pos hAA]
            exact ⟨packDataDeal_put, rfl⟩
          rw [if_neg hAA, if_neg hAA]
          by_cases hCC : dat = packTranCC
          · rw [if_pos hCC, if_pos hCC]
            exact ⟨packDataDeal_put, rfl⟩
          rw [if_neg hCC, if_neg hCC]
          exact ⟨rfl, rfl⟩

theorem revPackTurn_outside :
    SameOutside buf maxLength mem (revPackTurn buf maxLength r mem dat).1.2 := by
  have hsame : SameOutside buf maxLength mem mem := fun _ _ => rfl
  rw [revPackTurn]
  split_ifs <;> first | exact hsame | exact packDataDeal_outside

/-- What the receiver of the library accepts, the device has in its buffer. -/
theorem revPackLoop_receiveAll {input rest payload : List UInt8}
    (h : receiveAll Isp.packCode ispCheck maxLength (receiverOf buf r mem) input =
      some (payload, rest)) :
    ∃ mem', revPackLoop buf maxLength r mem input = some (payload.length, mem', rest) ∧
      received buf mem' payload.length = payload ∧ SameOutside buf maxLength mem mem' := by
  induction input generalizing r mem with
  | nil => exact nomatch h
  | cons dat input ih =>
      obtain ⟨hstate, hreturn⟩ := @revPackTurn_receive buf maxLength r mem dat
      have houtside := @revPackTurn_outside buf maxLength r mem dat
      rw [receiveAll, ← hstate, ← hreturn] at h
      rw [revPackLoop]
      generalize revPackTurn buf maxLength r mem dat = turn at *
      split_ifs at h with hdone
      · simp only [Option.some_inj, Prod.mk.injEq] at h
        obtain ⟨hpayload, rfl⟩ := h
        have hlen : turn.1.1.curLength = payload.length := by
          rw [← hpayload]
          exact (length_received _ _ _).symm
        refine ⟨turn.1.2, ?_, ?_, houtside⟩
        · rw [if_pos hdone, hlen]
        · rw [← hlen]
          exact hpayload
      · obtain ⟨mem', hloop, hreceived, hrest⟩ := ih h
        refine ⟨mem', ?_, hreceived, fun a ha => (hrest a ha).trans (houtside a ha)⟩
        rw [if_neg hdone, hloop]

/-- A packet of the host is in the buffer when `rev_pack` returns. -/
theorem revPack_sendPack (mem : Memory) (payload rest : List UInt8)
    (hfit : payload.length ≤ maxLength) :
    ∃ mem', revPack buf maxLength mem (Isp.sendPack payload payload.length ++ rest) =
        some (payload.length, mem', rest) ∧
      received buf mem' payload.length = payload ∧ SameOutside buf maxLength mem mem' := by
  refine revPackLoop_receiveAll ?_
  rw [sendPack_frame]
  exact receiveAll_frame rfl hfit rest

theorem received_getElem {n i : Nat} (hi : i < n) : (received buf mem n)[i]? = some (mem (buf + i)) := by
  rw [received, List.getElem?_map, List.getElem?_range hi]
  rfl

end Receiver

/-- What the host reads of the answer to a packet. -/
theorem revPack_sendErr (rest : List UInt8) :
    Isp.revPack 1024 (sendErr packErrOk ++ rest) = some ([Isp.packErrOk], rest) := by
  have hframe : sendErr packErrOk = frame Isp.packCode ispCheck [Isp.packErrOk] := by decide
  rw [hframe]
  exact receiveAll_frame rfl (by decide) rest

/-! ## Commands -/

section Commands

variable {packBuf : Nat} {mem : Memory} {turns curOffset : Nat}

/-- A packet that is not the last. -/
theorem binDataLoop_pack {payload rest : List UInt8} {s' : BinData} {sent : List UInt8} {mem' : Memory}
    (hrev : revPack packBuf packBufSize mem (Isp.sendPack payload payload.length ++ rest) =
      some (payload.length, mem', rest))
    (hhandle : handlePack packBuf ⟨curOffset, mem'⟩ payload.length = (s', sent, false)) :
    binDataLoop packBuf (turns + 1) ⟨curOffset, mem⟩
        (Isp.sendPack payload payload.length ++ rest) =
      (binDataLoop packBuf turns s' rest).map fun t => { t with replies := sent :: t.replies } := by
  rw [binDataLoop, hrev]
  simp only [hhandle, Bool.false_eq_true, if_false]

/-- The four bytes of an argument. -/
theorem getUint32_arg {arg : Nat} (harg : arg < 2 ^ 32) {byte : Nat → UInt8}
    (hbyte : ∀ k, k < 4 → byte k = UInt8.ofNat ((arg >>> (8 * k)) &&& 0xff)) :
    getUint32 byte = arg := by
  have hbits : ∀ k, k < 4 → (byte k).toBitVec = BitVec.ofNat 8 (arg >>> (8 * k)) := by
    intro k hk
    apply BitVec.eq_of_toNat_eq
    rw [hbyte k hk, BitVec.toNat_ofNat]
    show ((arg >>> (8 * k)) &&& 0xff) % 2 ^ 8 = _
    rw [show 0xff = 2 ^ 8 - 1 from rfl, Nat.and_two_pow_sub_one_eq_mod, Nat.mod_mod]
  have hbytes : getUint32 byte = ofBytes (fun k => (byte k).toBitVec) 4 := by
    simp only [getUint32, ofBytes, Nat.zero_or, Nat.mul_zero, Nat.shiftLeft_zero]
    rfl
  rw [hbytes, ofBytes_congr hbits, ofBytes_shifts harg]

theorem sameByte {payload : List UInt8} {mem' : Memory}
    (hreceived : received packBuf mem' payload.length = payload) {i : Nat} (hi : i < payload.length) :
    payload[i]? = some (mem' (packBuf + i)) := by
  rw [← received_getElem hi, hreceived]

theorem binDataLoop_setCurOffset {offset : Nat} (hoffset : offset < 2 ^ 32) (rest : List UInt8) :
    ∃ mem', SameOutside packBuf packBufSize mem mem' ∧
      binDataLoop packBuf (turns + 1) ⟨curOffset, mem⟩
          (Isp.sendCmd Isp.packCmdSetcuroffset offset ++ rest) =
        (binDataLoop packBuf turns ⟨offset, mem'⟩ rest).map fun t =>
          { t with replies := sendErr packErrOk :: t.replies } := by
  obtain ⟨mem', hrev, hreceived, houtside⟩ := @revPack_sendPack packBuf packBufSize mem
    [Isp.packCmdSetcuroffset, UInt8.ofNat (offset &&& 0xff), UInt8.ofNat ((offset >>> 8) &&& 0xff),
      UInt8.ofNat ((offset >>> 16) &&& 0xff), UInt8.ofNat ((offset >>> 24) &&& 0xff)] rest
    (show 5 ≤ packBufSize by decide)
  refine ⟨mem', houtside, binDataLoop_pack hrev ?_⟩
  have hcmd : mem' packBuf = packCmdSetcuroffset :=
    (Option.some_inj.1 (sameByte hreceived (Nat.succ_pos 4))).symm
  have harg : getUint32 (fun i => mem' (packBuf + 1 + i)) = offset := by
    refine getUint32_arg hoffset fun k hk => ?_
    have hbyte := sameByte hreceived (show 1 + k < 5 by omega)
    rw [← Nat.add_assoc] at hbyte
    rw [← Option.some_inj, ← hbyte]
    obtain rfl | rfl | rfl | rfl : k = 0 ∨ k = 1 ∨ k = 2 ∨ k = 3 := by omega
    all_goals rfl
  show handlePack packBuf ⟨curOffset, mem'⟩ 5 = _
  simp only [handlePack, if_pos (show 0 < 5 by decide), if_pos hcmd, harg]

/-- The bytes are at `start`; nothing else has changed, the packet buffer apart. -/
structure Written (packBuf start : Nat) (data : List UInt8) (mem mem' : Memory) : Prop where
  image : ∀ k, k < data.length → data[k]? = some (mem' (start + k))
  outside : ∀ a, ¬(start ≤ a ∧ a < start + data.length) →
    ¬(packBuf ≤ a ∧ a < packBuf + packBufSize) → mem' a = mem a

theorem Written.append {start : Nat} {first second : List UInt8} {mem' mem'' : Memory}
    (h : Written packBuf start first mem mem')
    (h' : Written packBuf (start + first.length) second mem' mem'')
    (hown : ∀ k, k < first.length → ¬(packBuf ≤ start + k ∧ start + k < packBuf + packBufSize)) :
    Written packBuf start (first ++ second) mem mem'' := by
  refine ⟨fun k hk => ?_, fun a ha hout => ?_⟩
  · rcases Nat.lt_or_ge k first.length with hlt | hge
    · rw [List.getElem?_append_left hlt, h.image k hlt, h'.outside _ (by omega) (hown k hlt)]
    · rw [List.length_append] at hk
      rw [List.getElem?_append_right hge, h'.image _ (by omega), Nat.add_assoc,
        Nat.add_sub_cancel' hge]
  · rw [List.length_append] at ha
    rw [h'.outside a (by omega) hout, h.outside a (by omega) hout]

theorem binDataLoop_writeBuffer {data : List UInt8} (hdata : 0 < data.length)
    (hfit : data.length < packBufSize) (hwrap : prgLoadAddr + curOffset + data.length < 2 ^ 32)
    (rest : List UInt8) :
    ∃ mem', Written packBuf (prgLoadAddr + curOffset) data mem mem' ∧
      binDataLoop packBuf (turns + 1) ⟨curOffset, mem⟩ (Isp.sendData data ++ rest) =
        (binDataLoop packBuf turns ⟨curOffset + data.length, mem'⟩ rest).map fun t =>
          { t with replies := sendErr packErrOk :: t.replies } := by
  obtain ⟨mem', hrev, hreceived, houtside⟩ := @revPack_sendPack packBuf packBufSize mem
    (Isp.packCmdWritebuffer :: data) rest hfit
  refine ⟨memcpy mem' (prgLoadAddr + curOffset) (packBuf + 1) data.length,
    ⟨fun k hk => ?_, fun a ha hout => ?_⟩, binDataLoop_pack hrev ?_⟩
  · have hbyte := sameByte hreceived (i := k + 1) (Nat.succ_lt_succ hk)
    rw [List.getElem?_cons_succ] at hbyte
    rw [hbyte, memcpy_inside (Nat.le_of_lt hwrap) hk, Nat.add_assoc, Nat.add_comm 1]
  · rw [memcpy_outside (Nat.le_of_lt hwrap) ha, houtside a hout]
  · have hcmd : mem' packBuf = packCmdWritebuffer :=
      (Option.some_inj.1 (sameByte hreceived (Nat.succ_pos _))).symm
    have hlen : (Isp.packCmdWritebuffer :: data).length = data.length + 1 := List.length_cons
    have hcheck : ¬(prgLoadAddr + curOffset + (data.length + 1) + 2 ^ 32 - 2) % 2 ^ 32 < prgLoadAddr := by
      have hend : prgLoadAddr + curOffset + (data.length + 1) + 2 ^ 32 - 2 =
          (prgLoadAddr + curOffset + data.length - 1) + 2 ^ 32 := by omega
      rw [hend, Nat.add_mod_right, Nat.mod_eq_of_lt (by omega)]
      omega
    have hother : ¬mem' packBuf = packCmdSetcuroffset := fun h =>
      absurd (hcmd.symm.trans h) (by decide)
    have hoffset : (curOffset + (data.length + 1) - 1) % 2 ^ 32 = curOffset + data.length := by
      rw [← Nat.add_assoc, Nat.add_sub_cancel, Nat.mod_eq_of_lt (by omega)]
    have hdst : (prgLoadAddr + curOffset) % 2 ^ 32 = prgLoadAddr + curOffset :=
      Nat.mod_eq_of_lt (by omega)
    rw [handlePack, hlen, if_pos (Nat.succ_pos _)]
    simp only [if_neg hother, if_pos hcmd, if_neg hcheck, List.nil_append, hoffset, hdst,
      Nat.add_sub_cancel]

theorem binDataLoop_writeOk (rest : List UInt8) :
    ∃ mem', SameOutside packBuf packBufSize mem mem' ∧
      binDataLoop packBuf (turns + 1) ⟨curOffset, mem⟩
          (Isp.sendCmd Isp.packCmdWriteok 0 ++ rest) =
        some ⟨[sendErr packErrOk], curOffset, mem', rest⟩ := by
  obtain ⟨mem', hrev, hreceived, houtside⟩ := @revPack_sendPack packBuf packBufSize mem
    [Isp.packCmdWriteok, 0, 0, 0, 0] rest (by decide)
  have hcmd : mem' packBuf = packCmdWriteok :=
    (Option.some_inj.1 (sameByte hreceived (by decide : 0 < 5))).symm
  refine ⟨mem', houtside, ?_⟩
  have hsent : Isp.sendCmd Isp.packCmdWriteok 0 =
      Isp.sendPack [Isp.packCmdWriteok, 0, 0, 0, 0] 5 := by decide
  rw [binDataLoop, hsent]
  simp only [show ([Isp.packCmdWriteok, 0, 0, 0, 0] : List UInt8).length = 5 from rfl] at hrev
  rw [hrev]
  simp only [handlePack, hcmd]
  rfl

/-! ## The whole transfer -/

/-- Block by block the image grows. -/
theorem binDataLoop_blocks {blocks : List (List UInt8)}
    (hblocks : ∀ b ∈ blocks, 0 < b.length ∧ b.length < packBufSize)
    (hwrap : prgLoadAddr + curOffset + blocks.flatten.length < 2 ^ 32)
    (hown : ∀ k, k < blocks.flatten.length →
      ¬(packBuf ≤ prgLoadAddr + curOffset + k ∧ prgLoadAddr + curOffset + k < packBuf + packBufSize))
    (rest : List UInt8) :
    ∃ mem', Written packBuf (prgLoadAddr + curOffset) blocks.flatten mem mem' ∧
      binDataLoop packBuf (blocks.length + turns) ⟨curOffset, mem⟩
          ((blocks.map Isp.sendData).flatten ++ rest) =
        (binDataLoop packBuf turns ⟨curOffset + blocks.flatten.length, mem'⟩ rest).map fun t =>
          { t with replies := List.replicate blocks.length (sendErr packErrOk) ++ t.replies } := by
  induction blocks generalizing curOffset mem with
  | nil =>
      refine ⟨mem, ⟨fun k hk => absurd hk (Nat.not_lt_zero k), fun _ _ _ => rfl⟩, ?_⟩
      simp
  | cons block blocks ih =>
      obtain ⟨hpos, hfit⟩ := hblocks block (List.mem_cons_self ..)
      rw [List.flatten_cons, List.length_append] at hwrap hown
      obtain ⟨mem', hwritten, hturn⟩ := @binDataLoop_writeBuffer packBuf mem (blocks.length + turns)
        curOffset block hpos hfit (by omega) ((blocks.map Isp.sendData).flatten ++ rest)
      obtain ⟨mem'', hmore, hloop⟩ := @ih mem' (curOffset + block.length)
        (fun b hb => hblocks b (List.mem_cons_of_mem _ hb)) (by omega) fun k hk => by
          have hout := hown (block.length + k) (by omega)
          omega
      rw [← Nat.add_assoc] at hmore
      refine ⟨mem'', hwritten.append hmore fun k hk => hown k (by omega), ?_⟩
      rw [List.map_cons, List.flatten_cons, List.append_assoc, List.length_cons,
        Nat.add_right_comm, hturn, hloop, Option.map_map, List.flatten_cons, List.length_append,
        Nat.add_assoc curOffset]
      congr 1

end Commands

theorem readBlocks_flatten {blockSize reads : Nat} {binfile : List UInt8}
    (h : binfile.length ≤ reads * blockSize) :
    (Isp.readBlocks blockSize reads binfile).flatten = binfile := by
  induction reads generalizing binfile with
  | zero =>
      rw [Nat.zero_mul, Nat.le_zero, List.length_eq_zero_iff] at h
      rw [h]
      rfl
  | succ reads ih =>
      rw [Nat.succ_mul] at h
      rw [Isp.readBlocks, List.flatten_cons, ih (by rw [List.length_drop]; omega),
        List.take_append_drop]

theorem readBlocks_length {blockSize reads : Nat} {binfile : List UInt8} (hsize : 0 < blockSize)
    (h : reads * blockSize < binfile.length + blockSize) :
    ∀ b ∈ Isp.readBlocks blockSize reads binfile, 0 < b.length ∧ b.length ≤ blockSize := by
  induction reads generalizing binfile with
  | zero => exact fun b hb => nomatch hb
  | succ reads ih =>
      rw [Nat.succ_mul] at h
      intro b hb
      rcases List.mem_cons.1 hb with rfl | hb
      · rw [List.length_take]
        omega
      · refine ih ?_ b hb
        rw [List.length_drop]
        omega

/-- The blocks are not empty, no larger than asked for, and the file in order. -/
theorem fileBlocks_spec {blockSize : Nat} (hsize : 0 < blockSize) (binfile : List UInt8) :
    (Isp.fileBlocks blockSize binfile).flatten = binfile ∧
      ∀ b ∈ Isp.fileBlocks blockSize binfile, 0 < b.length ∧ b.length ≤ blockSize := by
  have hdiv := Nat.div_add_mod (binfile.length + blockSize - 1) blockSize
  have hmod := Nat.mod_lt (binfile.length + blockSize - 1) hsize
  rw [Nat.mul_comm] at hdiv
  exact ⟨readBlocks_flatten (by omega), readBlocks_length hsize (by omega)⟩

theorem length_le_flatten {packs : List (List UInt8)} (h : ∀ p ∈ packs, 0 < p.length) :
    packs.length ≤ packs.flatten.length := by
  induction packs with
  | nil => exact Nat.le_refl 0
  | cons pack packs ih =>
      have hpos := h pack (List.mem_cons_self ..)
      have hrest := ih fun p hp => h p (List.mem_cons_of_mem _ hp)
      rw [List.flatten_cons, List.length_append, List.length_cons]
      omega

theorem transferPacks_pos {offset blockSize : Nat} {binfile : List UInt8} :
    ∀ p ∈ Isp.transferPacks offset blockSize binfile, 0 < p.length := by
  intro p hp
  rw [Isp.transferPacks, List.mem_cons, List.mem_append, List.mem_map, List.mem_singleton] at hp
  obtain rfl | ⟨block, _, rfl⟩ | rfl := hp
  · exact Nat.succ_pos _
  · exact Nat.succ_pos _
  · exact Nat.succ_pos _

/-- What a transfer leaves behind. -/
structure Transferred (l : Layout) (mem : Memory) (offset blockSize : Nat) (binfile : List UInt8)
    (t : Transfer) : Prop where
  replies : t.replies =
    List.replicate (Isp.transferPacks offset blockSize binfile).length (sendErr packErrOk)
  host : ∀ rest, Isp.revPack 1024 (sendErr packErrOk ++ rest) = some ([Isp.packErrOk], rest)
  image : ∀ k, k < binfile.length → binfile[k]? = some (t.mem (prgLoadAddr + offset + k))
  outside : ∀ a, ¬(prgLoadAddr + offset ≤ a ∧ a < prgLoadAddr + offset + binfile.length) →
    ¬(l.packBuf ≤ a ∧ a < l.packBuf + packBufSize) → t.mem a = mem a
  returned : t.curOffset = offset + binfile.length

/-- Every file, offset and block size: one reply a packet, the file in memory and nothing
else changed. -/
theorem transfer_exact (l : Layout) (mem : Memory) (binfile : List UInt8) {offset blockSize : Nat}
    (hblock : 1 ≤ blockSize ∧ blockSize ≤ 10239)
    (hwrap : prgLoadAddr + offset + binfile.length < 2 ^ 32)
    (hown : ∀ k, k < binfile.length → ¬(l.packBuf ≤ prgLoadAddr + offset + k ∧
      prgLoadAddr + offset + k < l.packBuf + packBufSize))
    (rest : List UInt8) :
    ∃ t, revBinData l mem ((Isp.transferPacks offset blockSize binfile).flatten ++ rest) = some t ∧
      t.input = rest ∧ Transferred l mem offset blockSize binfile t := by
  obtain ⟨hfile, hblocks⟩ := fileBlocks_spec hblock.1 binfile
  have hlen := length_le_flatten (@transferPacks_pos offset blockSize binfile)
  have hpacks : (Isp.transferPacks offset blockSize binfile).length =
      (Isp.fileBlocks blockSize binfile).length + 2 := by
    rw [Isp.transferPacks, List.length_cons, List.length_append, List.length_map]
    rfl
  have hinput : (Isp.transferPacks offset blockSize binfile).flatten ++ rest =
      Isp.sendCmd Isp.packCmdSetcuroffset offset ++
        (((Isp.fileBlocks blockSize binfile).map Isp.sendData).flatten ++
          (Isp.sendCmd Isp.packCmdWriteok 0 ++ rest)) := by
    rw [Isp.transferPacks, List.flatten_cons, List.flatten_append, List.flatten_singleton,
      List.append_assoc, List.append_assoc]
  obtain ⟨turns, hturns⟩ : ∃ turns,
      ((Isp.transferPacks offset blockSize binfile).flatten ++ rest).length =
        (Isp.fileBlocks blockSize binfile).length + (turns + 1) + 1 := by
    rw [List.length_append]
    exact ⟨(Isp.transferPacks offset blockSize binfile).flatten.length + rest.length -
      (Isp.fileBlocks blockSize binfile).length - 2, by omega⟩
  obtain ⟨mem1, hsame1, hset⟩ := @binDataLoop_setCurOffset l.packBuf mem
    ((Isp.fileBlocks blockSize binfile).length + (turns + 1)) 0 offset (by omega)
    (((Isp.fileBlocks blockSize binfile).map Isp.sendData).flatten ++
      (Isp.sendCmd Isp.packCmdWriteok 0 ++ rest))
  have hsmall : ∀ b ∈ Isp.fileBlocks blockSize binfile, 0 < b.length ∧ b.length < packBufSize := by
    intro b hb
    have hsize : packBufSize = 10240 := rfl
    have hle := hblocks b hb
    omega
  rw [← hfile] at hwrap hown
  obtain ⟨mem2, hwritten, hwrite⟩ := @binDataLoop_blocks l.packBuf mem1 (turns + 1) offset _ hsmall
    hwrap hown (Isp.sendCmd Isp.packCmdWriteok 0 ++ rest)
  rw [hfile] at hwritten hwrite hown
  obtain ⟨mem3, hsame3, hok⟩ := @binDataLoop_writeOk l.packBuf mem2 turns
    (offset + binfile.length) rest
  refine ⟨⟨sendErr packErrOk :: (List.replicate (Isp.fileBlocks blockSize binfile).length
    (sendErr packErrOk) ++ [sendErr packErrOk]), offset + binfile.length, mem3, rest⟩, ?_, rfl, ?_,
    revPack_sendErr, fun k hk => ?_, fun a ha hout => ?_, rfl⟩
  · rw [revBinData, hturns, hinput, hset, hwrite, hok]
    rfl
  · rw [hpacks, List.replicate_succ, List.replicate_succ']
  · rw [hwritten.image k hk]
    exact congrArg some (hsame3 _ (hown k hk)).symm
  · exact (hsame3 a hout).trans ((hwritten.outside a ha hout).trans (hsame1 a hout))

theorem transfer_exact_twoBlocks :
    ∃ t, revBinData ⟨0x80010000, by decide⟩ (fun _ => 0)
        ((Isp.transferPacks 4 2 [0x55, 0xCC, 1]).flatten ++ [7]) = some t ∧
      t.input = [7] ∧ Transferred ⟨0x80010000, by decide⟩ (fun _ => 0) 4 2 [0x55, 0xCC, 1] t := by
  have hload : prgLoadAddr = 0x80020000 := rfl
  have hsize : packBufSize = 10240 := rfl
  have hlen : [(0x55 : UInt8), 0xCC, 1].length = 3 := rfl
  refine transfer_exact ⟨0x80010000, by decide⟩ (fun _ => 0) [0x55, 0xCC, 1] (by decide)
    (by decide) (fun k hk => ?_) [7]
  show ¬(0x80010000 ≤ prgLoadAddr + 4 + k ∧ prgLoadAddr + 4 + k < 0x80010000 + packBufSize)
  omega

end DreamCore.Proofs
