import DreamCore.Lib.Bytes
import DreamCore.Cpp.StoreBuffer
import DreamCore.Proofs.StoreQueue
import DreamCore.Rtl.Tcm
import Mathlib.Data.List.Induction

/-!
# Forwarding from buffered stores

Each link of the chain replaces the bytes of the read that its store covers and no
others, in the hardware and in the C++ model alike; so what comes out is, byte by byte,
the youngest buffered store, or the bus where there is none.
-/

namespace DreamCore.Proofs

open DreamCore.Bytes DreamCore.Ring DreamCore.Rtl

/-! ## The reference -/

/-- The store writes the byte at address `a`. -/
def covers (a : Nat) (x : StoreBufferItem) : Bool := decide (offset (2 ^ 32) x.addr a < x.size)

/-- The byte it writes there. -/
def storeByte (a : Nat) (x : StoreBufferItem) : BitVec 8 :=
  byteAt (BitVec.ofNat 32 x.data) (offset (2 ^ 32) x.addr a)

/-- The byte of the youngest store that covers `a`; the stores are listed oldest first. -/
def youngestByte (stores : List StoreBufferItem) (a : Nat) (busByte : BitVec 8) : BitVec 8 :=
  ((stores.reverse.find? (covers a)).map (storeByte a)).getD busByte

theorem youngestByte_append (stores : List StoreBufferItem) (x : StoreBufferItem) (a : Nat)
    (busByte : BitVec 8) :
    youngestByte (stores ++ [x]) a busByte =
      if covers a x then storeByte a x else youngestByte stores a busByte := by
  rw [youngestByte, List.reverse_append, List.reverse_singleton, List.singleton_append,
    List.find?_cons]
  cases covers a x <;> rfl

/-! ## One link of the chain -/

/-- A store the load/store unit pushes. -/
structure StoreItemOk (x : StoreBufferItem) : Prop where
  addr_lt : x.addr < 2 ^ 32
  size : x.size = 1 ∨ x.size = 2 ∨ x.size = 4

/-- A read inside the TCM window. -/
structure ReadOk (addr size : Nat) : Prop where
  low : tcmAddr ≤ addr
  high : addr + size ≤ tcmAddr + tcmSize
  size : size = 1 ∨ size = 2 ∨ size = 4

theorem ReadOk.bounds {addr size : Nat} (h : ReadOk addr size) :
    2 ^ 31 ≤ addr ∧ addr + size ≤ 2 ^ 31 + 2 ^ 20 := ⟨h.low, h.high⟩

/-- Bit `p` of `base` after the store has been laid over it. -/
def overlaidBit (x : StoreBufferItem) (addr size : Nat) (base : Nat → Bool) (p : Nat) : Bool :=
  if p / 8 < size ∧ covers (addr + p / 8) x = true then
    (storeByte (addr + p / 8) x).getLsbD (p % 8)
  else base p

section Link

variable {x : StoreBufferItem} {addr size : Nat}

theorem covers_iff (hx : StoreItemOk x) (hread : ReadOk addr size) {k : Nat} (hk : k < size) :
    covers (addr + k) x = true ↔ x.addr ≤ addr + k ∧ addr + k < x.addr + x.size := by
  have := hx.addr_lt
  have := hx.size
  have := hread.bounds
  rw [covers, decide_eq_true_iff, offset]
  omega

theorem storeByte_bit (hx : StoreItemOk x) (hread : ReadOk addr size) {p : Nat} (hp : p / 8 < size)
    (hle : x.addr ≤ addr + p / 8) (hlt : addr + p / 8 < x.addr + x.size) :
    (storeByte (addr + p / 8) x).getLsbD (p % 8) =
      x.data.testBit (8 * (addr + p / 8 - x.addr) + p % 8) := by
  have := hx.addr_lt
  have := hx.size
  have := hread.bounds
  have hoffset : offset (2 ^ 32) x.addr (addr + p / 8) = addr + p / 8 - x.addr := by
    rw [offset]
    omega
  have hlow : 8 * (addr + p / 8 - x.addr) + p % 8 < 32 := by omega
  rw [storeByte, getLsbD_byteAt _ _ (Nat.mod_lt _ (by decide)), BitVec.getLsbD_ofNat, hoffset,
    decide_eq_true hlow, Bool.true_and]

/-- The overlay on a vector of `w` bits. -/
def overlay {w : Nat} (x : StoreBufferItem) (addr size : Nat) (dataIn : BitVec w) : BitVec w :=
  let readEnd := (addr + size) % 2 ^ 32
  let itemEnd := (x.addr + x.size) % 2 ^ 32
  if addr ≤ x.addr ∧ x.addr < readEnd then
    let mask := lowMask w (8 * min x.size (readEnd - x.addr))
    dataIn &&& ~~~(mask <<< (8 * (x.addr - addr))) |||
      (BitVec.ofNat w x.data &&& mask) <<< (8 * (x.addr - addr))
  else if x.addr < addr ∧ addr < itemEnd then
    let mask := lowMask w (8 * min size (itemEnd - addr))
    dataIn &&& ~~~mask ||| BitVec.ofNat w x.data >>> (8 * (addr - x.addr)) &&& mask
  else dataIn

/-- The store replaces the bytes of the read it covers. -/
theorem overlay_bit (hx : StoreItemOk x) (hread : ReadOk addr size) {w : Nat} (hw : 32 ≤ w)
    (dataIn : BitVec w) {p : Nat} (hp : p < w) :
    (overlay x addr size dataIn).getLsbD p = overlaidBit x addr size dataIn.getLsbD p := by
  have hxaddr := hx.addr_lt
  have hxsize := hx.size
  have hbounds := hread.bounds
  have hsize := hread.size
  have hreadEnd : (addr + size) % 2 ^ 32 = addr + size := Nat.mod_eq_of_lt (by omega)
  have hdata : ∀ b, b < 32 → (BitVec.ofNat w x.data).getLsbD b = x.data.testBit b := by
    intro b hb
    rw [BitVec.getLsbD_ofNat, decide_eq_true (by omega : b < w), Bool.true_and]
  -- the byte is covered when it lies in both ranges
  by_cases hcover : p / 8 < size ∧ x.addr ≤ addr + p / 8 ∧ addr + p / 8 < x.addr + x.size
  · obtain ⟨hk, hle, hlt⟩ := hcover
    have hbit := storeByte_bit hx hread hk hle hlt
    rw [overlaidBit, if_pos ⟨hk, (covers_iff hx hread hk).2 ⟨hle, hlt⟩⟩, hbit, overlay]
    dsimp only
    rw [hreadEnd]
    by_cases hbehind : addr ≤ x.addr
    · rw [if_pos ⟨hbehind, by omega⟩, getLsbD_insert _ _ hp, if_pos (by omega), hdata _ (by omega)]
      congr 1
      omega
    · rw [if_neg fun h => hbehind h.1, if_pos ⟨by omega, by omega⟩]
      have hshift := @getLsbD_insert w dataIn (BitVec.ofNat w x.data >>> (8 * (addr - x.addr)))
        0 (8 * min size ((x.addr + x.size) % 2 ^ 32 - addr)) p hp
      rw [BitVec.shiftLeft_zero, BitVec.shiftLeft_zero] at hshift
      rw [hshift, if_pos (by omega), BitVec.getLsbD_ushiftRight, hdata _ (by omega)]
      congr 1
      omega
  · have hnot : ¬(p / 8 < size ∧ covers (addr + p / 8) x = true) := by
      rintro ⟨hk, hc⟩
      exact hcover ⟨hk, (covers_iff hx hread hk).1 hc⟩
    rw [overlaidBit, if_neg hnot, overlay]
    dsimp only
    rw [hreadEnd]
    split_ifs with hbehind hbefore
    · rw [getLsbD_insert _ _ hp, if_neg (by omega)]
    · have hshift := @getLsbD_insert w dataIn (BitVec.ofNat w x.data >>> (8 * (addr - x.addr)))
        0 (8 * min size ((x.addr + x.size) % 2 ^ 32 - addr)) p hp
      rw [BitVec.shiftLeft_zero, BitVec.shiftLeft_zero] at hshift
      rw [hshift, if_neg (by omega)]
    · rfl

theorem cppMask_eq (len : Nat) :
    (if len = 32 then 0xffffffff#32 else 1#32 <<< len - 1#32) = lowMask 32 len := by
  split_ifs with h
  · subst h
    decide
  · rfl

/-- One turn of the C++ loop. -/
theorem feedbackItem_eq (x : StoreBufferItem) (addr size : Nat) (result : BitVec 32) :
    Cpp.feedbackItem x addr size result = overlay x addr size result := by
  have hbytes : ∀ n : Nat, n <<< 3 = 8 * n := fun n => by rw [Nat.shiftLeft_eq, Nat.mul_comm]
  simp only [Cpp.feedbackItem, cppMask_eq, hbytes, overlay]

/-- The hardware works on 128 bits and the C++ model on 32, with the same effect. -/
theorem overlay_setWidth (hx : StoreItemOk x) (hread : ReadOk addr size) (result : BitVec 32) :
    overlay x addr size (result.setWidth 128) = (overlay x addr size result).setWidth 128 := by
  have hsize := hread.size
  apply BitVec.eq_of_getLsbD_eq
  intro p hp
  rw [overlay_bit hx hread (by decide) _ hp, BitVec.getLsbD_setWidth, decide_eq_true hp,
    Bool.true_and]
  rcases Nat.lt_or_ge p 32 with hlow | hhigh
  · rw [overlay_bit hx hread (Nat.le_refl 32) _ hlow, overlaidBit, overlaidBit,
      BitVec.getLsbD_setWidth, decide_eq_true hp, Bool.true_and]
  · rw [overlaidBit, if_neg (fun h => absurd h.1 (by omega)), BitVec.getLsbD_setWidth,
      BitVec.getLsbD_of_ge _ _ hhigh, BitVec.getLsbD_of_ge _ _ hhigh, Bool.and_false]

/-- Laid over a word, the store shows in the bytes it covers. -/
theorem byteAt_overlay (hx : StoreItemOk x) (hread : ReadOk addr size) (result : BitVec 32) {k : Nat}
    (hk : k < size) :
    byteAt (overlay x addr size result) k =
      if covers (addr + k) x then storeByte (addr + k) x else byteAt result k := by
  have hsize := hread.size
  apply BitVec.eq_of_getLsbD_eq
  intro t ht
  have hdiv : (8 * k + t) / 8 = k := by omega
  have hmod : (8 * k + t) % 8 = t := by omega
  rw [getLsbD_byteAt _ _ ht, overlay_bit hx hread (Nat.le_refl 32) _ (by omega), overlaidBit, hdiv,
    hmod]
  cases covers (addr + k) x with
  | true => rw [if_pos ⟨hk, rfl⟩, if_pos rfl]
  | false => rw [if_neg fun h => Bool.false_ne_true h.2, if_neg Bool.false_ne_true, getLsbD_byteAt _ _ ht]

end Link

/-! ## The whole chain -/

/-- The stores laid over a word one after the other. -/
def overlayAll (stores : List StoreBufferItem) (addr size : Nat) (word : BitVec 32) : BitVec 32 :=
  stores.foldl (fun result x => overlay x addr size result) word

theorem byteAt_overlayAll {stores : List StoreBufferItem} {addr size : Nat}
    (hstores : ∀ x ∈ stores, StoreItemOk x) (hread : ReadOk addr size) (word : BitVec 32) {k : Nat}
    (hk : k < size) :
    byteAt (overlayAll stores addr size word) k =
      youngestByte stores (addr + k) (byteAt word k) := by
  induction stores using List.reverseRecOn with
  | nil => rfl
  | append_singleton stores x ih =>
      rw [List.forall_mem_append] at hstores
      have hx := hstores.2 x (List.mem_singleton.2 rfl)
      rw [overlayAll, List.foldl_concat, byteAt_overlay hx hread _ hk, youngestByte_append]
      split_ifs
      · rfl
      · exact ih hstores.1

section Chain

variable {s : StoreBufferState}

/-- A link at a live position lays its store over what comes in; the others pass it on. -/
theorem feedbackOverlay_eq (h : StoreRing s) {i : Nat} (hi : i < storeBufferSize)
    (dataIn : BitVec 128) :
    feedbackOverlay s i dataIn =
      if i < occupancy storeBufferSize s.rptr s.wptr then
        overlay (s.buffer (flushCurPtr s i)) s.issueStbufReadAddrR s.issueStbufReadSizeR dataIn
      else dataIn := by
  have hlive : ptrInRange storeBufferSize (flushCurPtr s i) s.rptr s.wptr = true ↔
      i < occupancy storeBufferSize s.rptr s.wptr := by
    rw [flushCurPtr, ptrInRange_iff h (slot_lt (by decide))]
    constructor
    · rintro ⟨k, hk, heq⟩
      have hfit := h.fits
      have hsame := slot_add_inj hi (Nat.lt_of_lt_of_le hk hfit) heq
      omega
    · exact fun hlt => live_slot hlt
  by_cases hlt : i < occupancy storeBufferSize s.rptr s.wptr
  · rw [if_pos hlt, feedbackOverlay, if_pos (hlive.2 hlt)]
    rfl
  · rw [if_neg hlt, feedbackOverlay, if_neg fun hp => hlt (hlive.1 hp)]

theorem feedbackData_eq (h : StoreRing s) (hitems : ∀ x ∈ storeContents s, StoreItemOk x)
    (hread : ReadOk s.issueStbufReadAddrR s.issueStbufReadSizeR) (bus : BitVec 32) :
    ∀ i, i < storeBufferSize → feedbackData s bus i =
      (overlayAll ((storeContents s).take (i + 1)) s.issueStbufReadAddrR s.issueStbufReadSizeR
        bus).setWidth 128 := by
  have hlink : ∀ i, i < storeBufferSize → ∀ result : BitVec 32,
      result = overlayAll ((storeContents s).take i) s.issueStbufReadAddrR s.issueStbufReadSizeR
        bus →
      feedbackOverlay s i (result.setWidth 128) =
        (overlayAll ((storeContents s).take (i + 1)) s.issueStbufReadAddrR
          s.issueStbufReadSizeR bus).setWidth 128 := by
    rintro i hi result rfl
    rw [feedbackOverlay_eq h hi]
    by_cases hlt : i < occupancy storeBufferSize s.rptr s.wptr
    · have hlen : i < (storeContents s).length := by
        rw [storeContents, length_contents]
        exact hlt
      have hget : (storeContents s)[i] = s.buffer (flushCurPtr s i) := by
        have := @contents_getElem? _ _ _ _ s.buffer _ hlt
        rw [← storeContents, List.getElem?_eq_getElem hlen, Option.some_inj] at this
        exact this
      rw [if_pos hlt, List.take_succ_eq_append_getElem hlen, hget,
        overlay_setWidth (hget ▸ hitems _ (List.getElem_mem hlen)) hread, overlayAll, overlayAll,
        List.foldl_concat]
    · have hlen : (storeContents s).length ≤ i := by
        rw [storeContents, length_contents]
        omega
      rw [if_neg hlt, List.take_of_length_le hlen, List.take_of_length_le (by omega)]
  intro i
  induction i with
  | zero => exact fun hi => hlink 0 hi bus rfl
  | succ i ih =>
      intro hi
      rw [feedbackData, ih (by omega)]
      exact hlink (i + 1) hi _ rfl

theorem stbufExlsuBusDataFeedback_eq (h : StoreRing s)
    (hitems : ∀ x ∈ storeContents s, StoreItemOk x)
    (hread : ReadOk s.issueStbufReadAddrR s.issueStbufReadSizeR) (bus : BitVec 32) :
    stbufExlsuBusDataFeedback s bus =
      (overlayAll (storeContents s) s.issueStbufReadAddrR s.issueStbufReadSizeR bus).setWidth
        128 := by
  have hlen : (storeContents s).length ≤ storeBufferSize := by
    rw [storeContents, length_contents]
    exact h.fits
  rw [stbufExlsuBusDataFeedback, feedbackData_eq h hitems hread bus _ (by decide),
    List.take_of_length_le (show _ ≤ storeBufferSize - 1 + 1 from hlen)]

/-! ## The loop of the C++ model -/

/-- The loop goes on as long as a younger store is buffered. -/
theorem getNextId_eq (h : StoreRing s) {k : Nat}
    (hk : k < occupancy storeBufferSize s.rptr s.wptr) :
    ∃ next, (Cpp.storeBufferOfRtl s).getNextId (slot storeBufferSize (s.rptr + k)) = some next ∧
      next.1 = slot storeBufferSize (s.rptr + (k + 1)) ∧
      (next.2 && decide (next.1 ≠ slot storeBufferSize s.rptr)) =
        decide (k + 1 < occupancy storeBufferSize s.rptr s.wptr) := by
  obtain ⟨inUse, hnext, hmore⟩ := Cpp.ring_getNextId h hk
  exact ⟨_, hnext, rfl, hmore⟩

theorem feedbackLoop_eq (h : StoreRing s) (addr size : Nat) :
    ∀ (turns k : Nat) (result : BitVec 32), k < occupancy storeBufferSize s.rptr s.wptr →
      occupancy storeBufferSize s.rptr s.wptr ≤ k + turns →
      (Cpp.storeBufferOfRtl s).feedbackLoop addr size (slot storeBufferSize s.rptr) turns
          (slot storeBufferSize (s.rptr + k)) result =
        some (overlayAll ((storeContents s).drop k) addr size result) := by
  intro turns
  induction turns with
  | zero =>
      intro k result hk hturns
      omega
  | succ turns ih =>
      intro k result hk hturns
      have hlen : k < (storeContents s).length := by
        rw [storeContents, length_contents]
        exact hk
      have hget : (storeContents s)[k] = s.buffer (slot storeBufferSize (s.rptr + k)) := by
        have hitem := @contents_getElem? _ _ _ _ s.buffer _ hk
        rw [← storeContents, List.getElem?_eq_getElem hlen, Option.some_inj] at hitem
        exact hitem
      have hvalid : (Cpp.storeBufferOfRtl s).checkIdValid (slot storeBufferSize (s.rptr + k)) = true :=
        (Cpp.checkIdValid_iff h (slot_lt (by decide))).2 (live_slot hk)
      obtain ⟨next, hnext, hslot, hmore⟩ := getNextId_eq h hk
      have hturn : (Cpp.storeBufferOfRtl s).feedbackLoop addr size (slot storeBufferSize s.rptr)
          (turns + 1) (slot storeBufferSize (s.rptr + k)) result =
          if k + 1 < occupancy storeBufferSize s.rptr s.wptr then
            (Cpp.storeBufferOfRtl s).feedbackLoop addr size (slot storeBufferSize s.rptr) turns
              (slot storeBufferSize (s.rptr + (k + 1)))
              (overlay (s.buffer (slot storeBufferSize (s.rptr + k))) addr size result)
          else some (overlay (s.buffer (slot storeBufferSize (s.rptr + k))) addr size result) := by
        rw [Cpp.StoreBuffer.feedbackLoop, if_pos hvalid, feedbackItem_eq, hnext]
        show (if (next.2 && decide (next.1 ≠ slot storeBufferSize s.rptr)) = true then _ else _) = _
        simp only [hmore, decide_eq_true_eq]
        rw [hslot]
        rfl
      rw [hturn, List.drop_eq_getElem_cons hlen, hget, overlayAll, List.foldl_cons]
      split_ifs with hlt
      · rw [ih (k + 1) _ hlt (by omega), overlayAll]
      · rw [List.drop_of_length_le (by rw [storeContents, length_contents]; omega), List.foldl_nil]

theorem getFeedbackValue_eq (h : StoreRing s) (addr size : Nat) (bus : BitVec 32) :
    (Cpp.storeBufferOfRtl s).getFeedbackValue addr size bus =
      some (overlayAll (storeContents s) addr size bus) := by
  have hzero := occupancy_eq_zero_iff h.rptr_lt h.wptr_lt
  rw [Cpp.StoreBuffer.getFeedbackValue, Cpp.Rob.getFrontId]
  by_cases hempty : s.rptr = s.wptr
  · have hnil : storeContents s = [] :=
      List.length_eq_zero_iff.1 ((length_contents _ _ _ _).trans (hzero.2 hempty))
    rw [show (Cpp.storeBufferOfRtl s).isEmpty = true from (Cpp.isEmpty_iff h).2 hempty, hnil]
    rfl
  · have hlive : (Cpp.storeBufferOfRtl s).isEmpty = false := by
      rw [Bool.eq_false_iff]
      exact fun he => hempty ((Cpp.isEmpty_iff h).1 he)
    rw [hlive]
    exact feedbackLoop_eq h addr size storeBufferSize 0 bus
      (Nat.pos_of_ne_zero fun h0 => hempty (hzero.1 h0)) (by have := h.fits; omega)

end Chain

/-! ## The forwarded value -/

theorem byteAt_setWidth (v : BitVec 32) {k : Nat} (hk : k < 4) :
    byteAt (v.setWidth 128) k = byteAt v k := by
  apply BitVec.eq_of_getLsbD_eq
  intro t ht
  rw [getLsbD_byteAt _ _ ht, getLsbD_byteAt _ _ ht, BitVec.getLsbD_setWidth,
    decide_eq_true (by omega : 8 * k + t < 128), Bool.true_and]

/-- The value a load gets is, byte by byte, what the youngest buffered store put there, or
    the bus byte; the C++ model computes the same value. -/
theorem forwarded_youngest {s : StoreBufferState} (hring : StoreRing s)
    (hstores : ∀ x ∈ storeContents s, StoreItemOk x)
    (hread : ReadOk s.issueStbufReadAddrR s.issueStbufReadSizeR) (busStbufData : BitVec 32) :
    (∀ k, k < s.issueStbufReadSizeR →
      byteAt (stbufExlsuBusDataFeedback s busStbufData) k =
        youngestByte (storeContents s) (s.issueStbufReadAddrR + k) (byteAt busStbufData k)) ∧
    ∃ value, (Cpp.storeBufferOfRtl s).getFeedbackValue s.issueStbufReadAddrR
        s.issueStbufReadSizeR busStbufData = some value ∧
      stbufExlsuBusDataFeedback s busStbufData = value.setWidth 128 := by
  have hsize := hread.size
  have hvalue := stbufExlsuBusDataFeedback_eq hring hstores hread busStbufData
  refine ⟨fun k hk => ?_, _, getFeedbackValue_eq hring _ _ _, hvalue⟩
  rw [hvalue, byteAt_setWidth _ (by omega), byteAt_overlayAll hstores hread _ hk]

/-- A byte stored over the middle of an older word, read back as a word. -/
theorem forwarded_byteOverWord :
    let word : StoreBufferItem := ⟨true, false, 0, 2 ^ 31 + 4, 0x44332211, 4⟩
    let byte : StoreBufferItem := ⟨true, false, 1, 2 ^ 31 + 6, 0xaa, 1⟩
    let s : StoreBufferState :=
      { storeBufferReset fun i => if i = 0 then word else byte with
        wptr := 2, issueStbufReadAddrR := 2 ^ 31 + 4, issueStbufReadSizeR := 4 }
    stbufExlsuBusDataFeedback s 0 = 0x44aa2211#128 ∧
      ∃ value, (Cpp.storeBufferOfRtl s).getFeedbackValue (2 ^ 31 + 4) 4 0 = some value ∧
        stbufExlsuBusDataFeedback s 0 = value.setWidth 128 := by
  intro word byte s
  have hstores : ∀ x ∈ storeContents s, StoreItemOk x := by
    intro x hx
    have hcontents : storeContents s = [word, byte] := by decide +kernel
    rw [hcontents] at hx
    rcases List.mem_cons.1 hx with rfl | hx
    · exact ⟨by decide, by decide⟩
    · rw [List.mem_singleton.1 hx]
      exact ⟨by decide, by decide⟩
  exact ⟨by decide +kernel, (forwarded_youngest (s := s) ⟨by decide, by decide, by decide⟩ hstores
    ⟨by decide, by decide, by decide⟩ 0).2⟩

end DreamCore.Proofs
