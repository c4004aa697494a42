import DreamCore.Model.LoadPath
import DreamCore.Proofs.FenceFresh
import DreamCore.Proofs.StoreForward

/-!
# A load returns the newest older data

A load leaves the FIFO one cycle after its read was launched.  The memory then shows what
had left the store buffer by the end of the launching cycle, the buffer holds the rest of
the older stores and no younger one, so that the overlay is the memory after all of them.
-/

namespace DreamCore.Proofs

open DreamCore.Bytes DreamCore.Clocked DreamCore.Model DreamCore.Ring DreamCore.Rtl

/-! ## Accesses -/

/-- A load or store as issue sends it. -/
structure AccessOk (p : IssueExecutePack) : Prop where
  addr_lt : p.lsuAddr < 2 ^ 32
  subOp : p.valid = true → p.subOp ≤ LsuOp.sw
  aligned : p.valid = true → p.hasException = false → p.lsuAddr % accessSize p.subOp = 0

/-- An aligned store. -/
structure StoreAligned (x : StoreBufferItem) : Prop extends StoreItemOk x where
  aligned : x.addr % x.size = 0

theorem AccessOk.store {p : IssueExecutePack} (h : AccessOk p) {x : StoreBufferItem}
    (hx : storeItem p = some x) : StoreAligned x := by
  unfold storeItem at hx
  split at hx
  · rename_i hstore
    simp only [Bool.and_eq_true, Bool.not_eq_true'] at hstore
    obtain ⟨⟨⟨_, hvalid⟩, _⟩, hexc⟩ := hstore
    cases hx
    exact ⟨⟨h.addr_lt, accessSize_cases (h.subOp hvalid)⟩, h.aligned hvalid hexc⟩
  · cases hx

theorem StoreAligned.mark {x : StoreBufferItem} (h : StoreAligned x) (fb : CommitFeedbackPack) :
    StoreAligned (markItem fb x) := by
  unfold markItem
  split
  · exact ⟨⟨h.addr_lt, h.size⟩, h.aligned⟩
  · exact h

/-- An aligned access that starts in the memory ends in it. -/
theorem readOk_of_aligned {addr size : Nat} (hin : inTcm addr = true)
    (hsize : size = 1 ∨ size = 2 ∨ size = 4) (haligned : addr % size = 0) : ReadOk addr size := by
  rw [inTcm, Bool.and_eq_true, decide_eq_true_iff, decide_eq_true_iff] at hin
  refine ⟨hin.1, ?_, hsize⟩
  simp only [tcmAddr, tcmSize] at *
  rcases hsize with rfl | rfl | rfl <;> omega

/-! ## The memory under the overlay -/

section Overlay

variable {x : StoreBufferItem} {a : Nat}

theorem inTcm_iff {a : Nat} : inTcm a = true ↔ 2 ^ 31 ≤ a ∧ a < 2 ^ 31 + 2 ^ 20 := by
  rw [inTcm, Bool.and_eq_true, decide_eq_true_iff, decide_eq_true_iff]
  rfl

theorem busTcmAddr_eq {a : Nat} (hin : inTcm a = true) : busTcmAddr a = a - 2 ^ 31 := by
  have := inTcm_iff.1 hin
  simp only [busTcmAddr, tcmAddr]
  omega

/-- A store into the memory covers the same bytes there and on the bus. -/
theorem offset_inTcm (hx : StoreAligned x) (hstore : inTcm x.addr = true) (hin : inTcm a = true) :
    (offset tcmSize (busTcmAddr x.addr) (busTcmAddr a) < x.size ↔
        offset (2 ^ 32) x.addr a < x.size) ∧
      (offset (2 ^ 32) x.addr a < x.size →
        offset tcmSize (busTcmAddr x.addr) (busTcmAddr a) = offset (2 ^ 32) x.addr a) := by
  have hread := (readOk_of_aligned hstore hx.size hx.aligned).bounds
  have ha := inTcm_iff.1 hin
  have hsize := hx.size
  rw [busTcmAddr_eq hstore, busTcmAddr_eq hin]
  simp only [offset, tcmSize]
  omega

theorem not_covers_outside (hx : StoreAligned x) (hstore : inTcm x.addr = false)
    (hin : inTcm a = true) : covers a x = false := by
  have ha := inTcm_iff.1 hin
  have hlt := hx.addr_lt
  have haligned := hx.aligned
  have hout : ¬(2 ^ 31 ≤ x.addr ∧ x.addr < 2 ^ 31 + 2 ^ 20) := fun h =>
    Bool.false_ne_true (hstore.symm.trans (inTcm_iff.2 h))
  rw [covers, decide_eq_false_iff_not, offset]
  rcases hx.size with hsize | hsize | hsize <;> rw [hsize] at haligned ⊢ <;> omega

theorem stbufSetWriteData_eq (w : TcmWrite) {k : Nat} (hk : k < 4) :
    w.stbufSetWriteData k = byteAt (BitVec.ofNat 32 w.data) k := by
  rw [TcmWrite.stbufSetWriteData, if_pos hk]
  apply BitVec.eq_of_getLsbD_eq
  intro t ht
  rw [getLsbD_byteAt _ _ ht, BitVec.getLsbD_ofNat, BitVec.getLsbD_ofNat, Nat.testBit_shiftRight,
    decide_eq_true ht, decide_eq_true (by omega : 8 * k + t < 32)]

theorem byteCount_busTcmWrite (hx : StoreAligned x) :
    (busTcmWrite true x.addr x.size x.data).byteCount = if inTcm x.addr then x.size else 0 := by
  simp only [TcmWrite.byteCount, busTcmWrite, Bool.true_and]
  rcases hx.size with hsize | hsize | hsize <;> rw [hsize] <;> cases inTcm x.addr <;> rfl

theorem storeByte_eq (x : StoreBufferItem) (hlt : offset (2 ^ 32) x.addr a < 4) :
    (busTcmWrite true x.addr x.size x.data).stbufSetWriteData (offset (2 ^ 32) x.addr a) =
      storeByte a x := by
  rw [stbufSetWriteData_eq _ hlt, storeByte, busTcmWrite]

/-- The write of a store, seen at one byte. -/
theorem applyWrite_item (hx : StoreAligned x) (hin : inTcm a = true) (mem : Nat → BitVec 8) :
    applyWrite mem (itemWrite x) (busTcmAddr a) =
      if covers a x then storeByte a x else mem (busTcmAddr a) := by
  have hsize := hx.size
  have haddr : (busTcmWrite true x.addr x.size x.data).addr = busTcmAddr x.addr := by
    rw [busTcmWrite]
  have hwrite : applyWrite mem (itemWrite x) = writeBytes tcmSize (busTcmAddr x.addr)
      (if inTcm x.addr then x.size else 0)
      (busTcmWrite true x.addr x.size x.data).stbufSetWriteData mem := by
    rw [applyWrite, itemWrite, haddr, byteCount_busTcmWrite hx]
  rw [hwrite, writeBytes]
  cases hstore : inTcm x.addr with
  | false =>
      rw [not_covers_outside hx hstore hin, if_neg Bool.false_ne_true, if_neg Bool.false_ne_true,
        if_neg (Nat.not_lt_zero _)]
  | true =>
      obtain ⟨hiff, heq⟩ := offset_inTcm hx hstore hin
      rw [if_pos rfl, covers]
      by_cases hlt : offset (2 ^ 32) x.addr a < x.size
      · rw [if_pos (hiff.2 hlt), if_pos (decide_eq_true hlt), heq hlt, storeByte_eq x (by omega)]
      · rw [if_neg (mt hiff.1 hlt), if_neg (by rwa [decide_eq_true_iff])]

theorem applyWrites_concat (mem : Nat → BitVec 8) (ws : List StoreWrite) (w : StoreWrite) :
    applyWrites mem (ws ++ [w]) = applyWrite (applyWrites mem ws) w := by
  rw [applyWrites, List.foldl_concat, applyWrites]

theorem applyWrites_append (mem : Nat → BitVec 8) (ws ws' : List StoreWrite) :
    applyWrites mem (ws ++ ws') = applyWrites (applyWrites mem ws) ws' := by
  rw [applyWrites, List.foldl_append, applyWrites, applyWrites]

/-- The youngest store over the memory is the memory after all of them. -/
theorem youngestByte_applyWrites {stores : List StoreBufferItem}
    (hstores : ∀ x ∈ stores, StoreAligned x) (hin : inTcm a = true) (mem : Nat → BitVec 8) :
    youngestByte stores a (mem (busTcmAddr a)) =
      applyWrites mem (stores.map itemWrite) (busTcmAddr a) := by
  induction stores using List.reverseRecOn with
  | nil => simp [youngestByte, applyWrites]
  | append_singleton stores x ih =>
      rw [List.forall_mem_append] at hstores
      rw [youngestByte_append, List.map_append, List.map_singleton, applyWrites_concat,
        ih hstores.1, applyWrite_item (hstores.2 x (List.mem_singleton.2 rfl)) hin]

end Overlay

/-! ## The load in the FIFO -/

variable {s : LoadPathState} {input : LoadStoreInput}

/-- The load in the FIFO is answered: the bus holds the bytes behind its address as the
memory has them, and nothing behind it has been issued. -/
structure LoadAnswered (s : LoadPathState) (p : IssueExecutePack) : Prop where
  ack : s.bus.busStbufReadAck = true
  addr : s.loadStore.stbuf.issueStbufReadAddrR = p.lsuAddr
  size : s.loadStore.stbuf.issueStbufReadSizeR = accessSize p.subOp
  port : s.bus.busTcmStbufRdR = inTcm p.lsuAddr
  memory : inTcm p.lsuAddr = true →
    tcmBusData s.tcm = ofBytes (fun k => tcmByte s.tcm (busTcmAddr p.lsuAddr + k)) tcmBankNum
  youngest : ∀ j k, ∀ hj : j < s.loadStore.rob.entries.length,
    ∀ hk : k < s.loadStore.rob.entries.length,
    s.loadStore.rob.entries[j].tag.issued = some p → j < k →
      s.loadStore.rob.entries[k].tag.issued = none

/-- A load that was not found misaligned. -/
def isCleanLoad (p : IssueExecutePack) : Bool := p.valid && isLoad p.subOp && !p.hasException

structure LoadPathInv (s : LoadPathState) : Prop where
  loadStore : LoadStoreInv s.loadStore
  decoded : ∀ e ∈ s.loadStore.rob.entries, LsuDecoded e.tag.op
  access : s.loadStore.lsuFifo.hasData = true → AccessOk s.loadStore.lsuFifo.data
  stores : ∀ x ∈ storeContents s.loadStore.stbuf, StoreAligned x
  answered : s.loadStore.stbuf.issueStbufReadRegLock = true → s.bus.busStbufReadAck = true
  load : s.loadStore.lsuFifo.hasData = true → isCleanLoad s.loadStore.lsuFifo.data = true →
    LoadAnswered s s.loadStore.lsuFifo.data

/-- An occupied FIFO means that commit is in its normal state. -/
theorem LoadPathInv.normal (h : LoadPathInv s) (hdata : s.loadStore.lsuFifo.hasData = true) :
    s.loadStore.commit.curState = .normal := by
  by_contra hne
  exact Bool.false_ne_true ((h.loadStore.walking hne).fifo.symm.trans hdata)

theorem decoded_next (h : LoadPathInv s) (hallowed : LoadPathAllowed s input) :
    ∀ e ∈ (loadPathNext s input).loadStore.rob.entries, LsuDecoded e.tag.op := by
  intro e he
  have hmem : e ∈ (if commitRobFlush s.loadStore.commit
        (loadStoreCommitInput s.loadStore (loadPathInput s input)) then [] else
      ((s.loadStore.rob.entries.mapIdx (loadStoreUpdate s.loadStore (loadPathInput s input))).drop
        (retires s.loadStore (loadPathInput s input)) ++
          loadStorePushed s.loadStore (loadPathInput s input))) := he
  split at hmem
  · exact absurd hmem List.not_mem_nil
  · rcases List.mem_append.1 hmem with hold | hnew
    · obtain ⟨k, hk, rfl⟩ := List.mem_mapIdx.1 (List.mem_of_mem_drop hold)
      rw [update_op]
      exact h.decoded _ (List.getElem_mem hk)
    · rw [loadStorePushed] at hnew
      split at hnew
      · exact absurd hnew List.not_mem_nil
      · obtain ⟨x, hx, rfl⟩ := List.mem_map.1 hnew
        exact hallowed.decoded x hx

/-- A store that enters the buffer comes from the FIFO. -/
theorem executedStore_aligned (h : LoadPathInv s) {x : StoreBufferItem}
    (hx : x ∈ executedStore s.loadStore (loadPathInput s input)) : StoreAligned x := by
  cases hpop : (loadPathExecuteInput s input).issueLsuFifoPop with
  | false =>
      rw [executedStore_of_wait hpop] at hx
      exact absurd hx List.not_mem_nil
  | true =>
      obtain ⟨hdata, hstore⟩ := executedStore_of_pop hpop
      rw [hstore, Option.mem_toList] at hx
      exact (h.access hdata).store hx

theorem stores_next (h : LoadPathInv s) :
    ∀ x ∈ storeContents (loadPathNext s input).loadStore.stbuf, StoreAligned x := by
  have hmarked : ∀ x ∈ (storeContents s.loadStore.stbuf).map
      (markItem (loadStoreFeedback s.loadStore (loadPathInput s input))), StoreAligned x := by
    intro x hx
    obtain ⟨y, hy, rfl⟩ := List.mem_map.1 hx
    exact (h.stores y hy).mark _
  intro x hx
  cases hflush : (loadStoreFeedback s.loadStore (loadPathInput s input)).flushing with
  | true =>
      have hcut : storeContents (loadPathNext s input).loadStore.stbuf = _ :=
        storeContents_flush h.loadStore.ring hflush
      rw [hcut] at hx
      exact hmarked x ((List.takeWhile_sublist _).subset hx)
  | false =>
      have hcut : storeContents (loadPathNext s input).loadStore.stbuf = _ :=
        storeContents_keep h.loadStore.ring hflush
      rw [hcut] at hx
      rcases List.mem_append.1 (List.mem_of_mem_drop hx) with hold | hnew
      · exact hmarked x hold
      · exact executedStore_aligned h hnew

/-- A read is never launched over an unanswered one. -/
theorem readRegLoad_eq (h : LoadPathInv s) :
    stbufReadRegLoad s.loadStore.stbuf (loadPathStbufInput s input) =
      (loadPathStbufInput s input).issueStbufRd := by
  have hack : (loadPathStbufInput s input).busStbufReadAck = s.bus.busStbufReadAck := rfl
  rw [stbufReadRegLoad, hack]
  cases hlock : s.loadStore.stbuf.issueStbufReadRegLock with
  | false => rw [Bool.not_false, Bool.true_or, Bool.and_true]
  | true => rw [h.answered hlock, Bool.or_true, Bool.and_true]

theorem answered_next (h : LoadPathInv s) :
    (loadPathNext s input).loadStore.stbuf.issueStbufReadRegLock = true →
      (loadPathNext s input).bus.busStbufReadAck = true := by
  intro hlock
  have hnext : (loadPathNext s input).loadStore.stbuf.issueStbufReadRegLock =
      (if stbufReadRegLoad s.loadStore.stbuf (loadPathStbufInput s input) then true
        else if s.bus.busStbufReadAck then false
        else s.loadStore.stbuf.issueStbufReadRegLock) := rfl
  have hreq : (loadPathNext s input).bus.busStbufReadAck =
      (loadPathStbufInput s input).issueStbufRd := rfl
  rw [hnext, readRegLoad_eq h, ← hreq] at hlock
  by_contra hno
  rw [if_neg hno] at hlock
  cases hack : s.bus.busStbufReadAck with
  | true => simp [hack] at hlock
  | false =>
      rw [hack, if_neg Bool.false_ne_true] at hlock
      exact Bool.false_ne_true (hack.symm.trans (h.answered hlock))

/-- A load that is answered leaves the FIFO, unless commit flushes. -/
theorem LoadAnswered.pops {p : IssueExecutePack} (h : LoadAnswered s p)
    (hdata : s.loadStore.lsuFifo.hasData = true) (hp : s.loadStore.lsuFifo.data = p)
    (hload : isLoad p.subOp = true)
    (hflush : (loadStoreFeedback s.loadStore (loadPathInput s input)).flushing = false) :
    (loadPathExecuteInput s input).issueLsuFifoPop = true := by
  have hrev : isLoad (loadPathExecuteInput s input).revPack.subOp = true := by
    rw [← hp] at hload
    exact hload
  have hready : (loadPathExecuteInput s input).stbufExlsuBusReady = true := h.ack
  have hvalid : (loadPathExecuteInput s input).issueLsuFifoDataOutValid = true := hdata
  have hfb : (loadPathExecuteInput s input).commitFeedbackPack.flushing = false := hflush
  simp only [ExecuteLsuInput.issueLsuFifoPop, ExecuteLsuInput.lsuWbPortWe,
    ExecuteLsuInput.lsuWbPortFlush, ExecuteLsuInput.busy, hrev, hready, hvalid, hfb, Bool.not_true,
    Bool.and_false, Bool.false_and, Bool.or_false, Bool.not_false]

/-! ## A load is issued -/

section Issued

variable (h : LoadPathInv s)
  (hkeep : KeepsStores s.loadStore (loadPathInput s input))
  (hissue : issueAccepted s.loadStore (loadPathInput s input) = true)
include h hkeep hissue

theorem issued_lsu : input.issueItem.opUnit = .lsu ∧ LsuDecoded input.issueItem.toDecodeRenamePack := by
  obtain ⟨k, hk, _, hop, hlsu, _⟩ := hkeep.issued_entry hissue
  have hop' : input.issueItem.toDecodeRenamePack = s.loadStore.rob.entries[k].tag.op := hop
  exact ⟨(congrArg DecodeRenamePack.opUnit hop').trans hlsu,
    hop' ▸ h.decoded _ (List.getElem_mem hk)⟩

omit hissue h hkeep in
theorem issued_exception (hlsu : input.issueItem.opUnit = .lsu)
    (hvalid : input.issueItem.valid = true) :
    (issueDataConverted input.issueItem).hasException = lsuHasException input.issueItem := by
  have his : issueIsLsu input.issueItem = true := by
    rw [issueIsLsu, hvalid, hlsu]
    rfl
  rw [issueDataConverted]
  exact if_pos his

theorem accessOk_issued : AccessOk (issueDataConverted input.issueItem) := by
  obtain ⟨hlsu, hdecoded⟩ := issued_lsu h hkeep hissue
  refine ⟨Nat.mod_lt _ (by decide), fun hvalid => hdecoded hvalid hlsu, fun hvalid hexc => ?_⟩
  have hsize := accessSize_cases (hdecoded hvalid hlsu)
  rw [issued_exception hlsu hvalid, lsuHasException] at hexc
  refine (checkAlign_iff hsize).1 ?_
  have hpos : accessSize input.issueItem.subOp ≠ 0 := by omega
  rw [decide_eq_true hpos, Bool.true_and, Bool.not_eq_false'] at hexc
  exact hexc

theorem issued_reads (hload : isCleanLoad (issueDataConverted input.issueItem) = true) :
    isLoad input.issueItem.subOp = true ∧ (loadPathStbufInput s input).issueStbufRd = true := by
  rw [isCleanLoad, Bool.and_eq_true, Bool.and_eq_true, Bool.not_eq_true'] at hload
  obtain ⟨⟨hvalid, hsub⟩, hexc⟩ := hload
  have hsub' : isLoad input.issueItem.subOp = true := hsub
  rw [issued_exception (issued_lsu h hkeep hissue).1 hvalid] at hexc
  have hpush : input.issueLsuFifoPush = true := by
    simp only [issueAccepted, Bool.and_eq_true] at hissue
    exact hissue.1.2
  refine ⟨hsub', ?_⟩
  show issueStbufRd input.issueItem input.issueLsuFifoPush
    (loadStoreFeedback s.loadStore (loadPathInput s input)).flushing = true
  rw [issueStbufRd, hsub', hpush, hkeep.notFlushing, hexc]
  rfl

omit h in
/-- No entry behind the issued one has been issued. -/
theorem issued_youngest : ∀ j k,
    ∀ hj : j < (loadPathNext s input).loadStore.rob.entries.length,
    ∀ hk : k < (loadPathNext s input).loadStore.rob.entries.length,
    (loadPathNext s input).loadStore.rob.entries[j].tag.issued =
        some (issueDataConverted input.issueItem) → j < k →
      (loadPathNext s input).loadStore.rob.entries[k].tag.issued = none := by
  intro j k hj hk hsome hlt
  obtain ⟨i, hi, hid, _, hlsu, hnone, _⟩ := hkeep.issued_entry hissue
  rcases hkeep.entry_cases hj with ⟨hj', hidj, hgetj⟩ | ⟨_, _, hfresh, _⟩
  · -- the entry that holds the operation is the issued one
    have hpos : retires s.loadStore (loadPathInput s input) + j = i := by
      apply hkeep.position_eq hj' hi
      by_contra hne
      have hold := hsome
      have hother : ¬(issueAccepted s.loadStore (loadPathInput s input) = true ∧
          (loadPathInput s input).issueItem.robId =
            s.loadStore.rob.idAt (retires s.loadStore (loadPathInput s input) + j)) := fun hsame =>
        hne (hsame.2.symm.trans hid)
      rw [show (loadPathNext s input).loadStore.rob.entries[j] = _ from hgetj,
        update_elsewhere _ hother] at hold
      exact hother ⟨hissue, ((hkeep.flow.entries _ hj').issued _ hold).2.1⟩
    rcases hkeep.entry_cases hk with ⟨hk', _, hgetk⟩ | ⟨_, _, hfresh, _⟩
    · rw [show (loadPathNext s input).loadStore.rob.entries[k] = _ from hgetk, update_elsewhere]
      · by_contra hsome'
        exact hkeep.flow.order i _ hi hk' (by omega) hlsu hsome' hnone
      · rintro ⟨_, hidk⟩
        have := hkeep.position_eq hk' hi (hidk.symm.trans hid)
        omega
    · exact hfresh
  · rw [show (loadPathNext s input).loadStore.rob.entries[j].tag.issued = none from hfresh] at hsome
    cases hsome

theorem loadAnswered_issued (hload : isCleanLoad (issueDataConverted input.issueItem) = true) :
    LoadAnswered (loadPathNext s input) (issueDataConverted input.issueItem) := by
  obtain ⟨hsub, hrd⟩ := issued_reads h hkeep hissue hload
  have hreg : stbufReadRegLoad s.loadStore.stbuf (loadPathStbufInput s input) = true :=
    (readRegLoad_eq h).trans hrd
  have hread : loadPathRead s input =
      ⟨issueLsuAddr input.issueItem, accessSize input.issueItem.subOp, true⟩ := by
    have hsize : issueStbufReadSize input.issueItem = accessSize input.issueItem.subOp :=
      if_pos hsub
    rw [loadPathRead, hrd, ← hsize]
    rfl
  have hbus : busTcmStbufRd (loadPathRead s input) = inTcm (issueLsuAddr input.issueItem) := by
    rw [hread, busTcmStbufRd, Bool.true_and]
  refine ⟨hrd, if_pos hreg, (if_pos hreg).trans (if_pos hsub), hbus, fun hin => ?_,
    issued_youngest hkeep hissue⟩
  have hin' : inTcm (issueLsuAddr input.issueItem) = true := hin
  have htcm : (loadPathNext s input).tcm = tcmCopyNext s.tcm
      (busTcmAddr (issueLsuAddr input.issueItem)) true (loadPathTcmWrite s input) := by
    rw [loadPathNext]
    dsimp only
    rw [hbus, hin', hread]
  rw [htcm, tcmBusData_next]
  rfl

end Issued

/-! ## One cycle -/

/-- What a cycle of the load path relies on: the assumptions on its inputs, exact grants,
and instructions that reach `rob.sv` on its first channels. -/
structure LoadPathStep (s : LoadPathState) (input : LoadStoreInput) : Prop
    extends LoadPathAllowed s input where
  ring : RobAllowed s.loadStore (loadPathInput s input)

theorem loadPathInv_next (h : LoadPathInv s) (hstep : LoadPathStep s input) :
    LoadPathInv (loadPathNext s input) := by
  have hallowed := hstep.toLoadPathAllowed
  have hloadStore : LoadStoreInv (loadPathNext s input).loadStore :=
    loadStoreInv_next h.loadStore hstep.ring hallowed.loadStore
  -- what stays in the FIFO is no load: an answered one would have left
  have hfifo : (loadPathNext s input).loadStore.lsuFifo.hasData = true →
      AccessOk (loadPathNext s input).loadStore.lsuFifo.data ∧
        (isCleanLoad (loadPathNext s input).loadStore.lsuFifo.data = true →
          LoadAnswered (loadPathNext s input) (loadPathNext s input).loadStore.lsuFifo.data) := by
    intro hdata
    have hflush : (loadStoreFeedback s.loadStore (loadPathInput s input)).flushing = false := by
      rw [Bool.eq_false_iff]
      exact fun hflush => Bool.false_ne_true ((lsuFifo_flush hflush).symm.trans hdata)
    have hstate : s.loadStore.commit.curState = .normal := by
      by_contra hne
      have hwalk := (walking_quiet
        (c := loadStoreCommitInput s.loadStore (loadPathInput s input)) hne).1
      exact Bool.false_ne_true (hflush.symm.trans hwalk)
    have hkeep : KeepsStores s.loadStore (loadPathInput s input) :=
      ⟨h.loadStore.normal hstate, hstate, hallowed.loadStore, hstep.ring, hflush⟩
    have hnext : (loadPathNext s input).loadStore =
      loadStoreNext s.loadStore (loadPathInput s input) := rfl
    rcases lsuFifo_keep hflush with ⟨hissue, hin⟩ | ⟨_, hpop, hstay⟩ | ⟨_, hempty, _⟩
    · rw [hnext, hin]
      exact ⟨accessOk_issued h hkeep hissue, loadAnswered_issued h hkeep hissue⟩
    · rw [hnext, hstay] at hdata ⊢
      refine ⟨h.access hdata, fun hload => ?_⟩
      have hpops := (h.load hdata hload).pops hdata rfl (by
        rw [isCleanLoad, Bool.and_eq_true, Bool.and_eq_true] at hload
        exact hload.1.2) hflush
      exact absurd (hpop.symm.trans hpops) Bool.false_ne_true
    · exact absurd (hempty.symm.trans hdata) Bool.false_ne_true
  exact ⟨hloadStore, decoded_next h hallowed, fun hdata => (hfifo hdata).1, stores_next h,
    answered_next h, fun hdata => (hfifo hdata).2⟩

theorem loadPathReset_inv (mem : Nat → Nat → BitVec 8) (outData : Nat → BitVec 8)
    (robBuffer : Nat → RobItem) (buffer : Nat → StoreBufferItem) :
    LoadPathInv (loadPathReset mem outData robBuffer buffer) where
  loadStore := loadStoreReset_inv (some robBuffer) buffer
  decoded := fun _ he => absurd he List.not_mem_nil
  access := fun hdata => absurd hdata Bool.false_ne_true
  stores := fun _ hx => absurd (storeContents_reset buffer ▸ hx) List.not_mem_nil
  answered := fun hlock => absurd hlock Bool.false_ne_true
  load := fun hdata => absurd hdata Bool.false_ne_true

/-! ## The result of a load -/

theorem olderWrite_eq {id : Nat} {e : Entry LsuInFlight} (hok : EntryOk id e) :
    olderWrite e = (entryStore e).map itemWrite := by
  cases hissued : e.tag.issued with
  | none => simp [olderWrite, entryStore, hissued]
  | some p =>
      obtain ⟨hlsu, _, henable, hvalid, hsub⟩ := hok.issued p hissued
      simp only [olderWrite, entryStore, storeItem, isStore, hissued, hlsu, henable, hvalid, hsub,
        Option.bind_some, decide_true, Bool.and_true, Bool.true_and]
      cases hstore : (e.tag.op.valid && !isLoad e.tag.op.subOp) with
      | false => rfl
      | true =>
          cases p.hasException with
          | true => rfl
          | false => simp [packWrite, itemWrite, hsub]

/-- The stores in flight in front of a completing load are those the buffer still holds. -/
theorem pendingStores_load (h : Flowing s.loadStore) {p : IssueExecutePack}
    (hanswered : LoadAnswered s p) (hload : isLoad p.subOp = true)
    (hp : s.loadStore.lsuFifo.data = p) {k : Nat} (hk : k < s.loadStore.rob.entries.length)
    (hissued : s.loadStore.rob.entries[k].tag.issued = some p) :
    (pendingStores s.loadStore).map itemWrite =
      (s.loadStore.rob.entries.take k).filterMap olderWrite := by
  have hnone : storeItem p = none := by
    rw [storeItem, hload, Bool.not_true, Bool.and_false, Bool.false_and, if_neg Bool.false_ne_true]
  have hfifo : fifoStores s.loadStore = [] := by
    unfold fifoStores
    split
    · rw [hp, hnone]
      rfl
    · rfl
  have hbehind : inFlightStores (s.loadStore.rob.entries.drop k) = [] := by
    rw [inFlightStores, List.filterMap_eq_nil_iff]
    intro e he
    obtain ⟨i, hi, rfl⟩ := List.mem_iff_getElem.1 he
    rw [List.length_drop] at hi
    rw [List.getElem_drop, entryStore]
    cases i with
    | zero =>
        rw [show s.loadStore.rob.entries[k + 0].tag.issued = some p from hissued]
        exact hnone
    | succ i =>
        rw [hanswered.youngest k (k + (i + 1)) hk (by omega) hissued (by omega)]
        rfl
  have hstores := h.stores
  rw [hfifo, List.append_nil, inFlightStores_split _ k, hbehind, List.append_nil] at hstores
  rw [hstores, inFlightStores, List.map_filterMap]
  refine List.filterMap_congr fun e he => ?_
  obtain ⟨i, hi, rfl⟩ := List.mem_iff_getElem.1 he
  rw [List.length_take] at hi
  rw [List.getElem_take]
  exact (olderWrite_eq (h.entries i (by omega))).symm

/-- The result is the extension of the lowest bytes of the overlaid data. -/
theorem rdValue_eq (x : ExecuteLsuInput) (hload : isLoad x.revPack.subOp = true)
    {byte : Nat → BitVec 8} (hbytes : ∀ k, k < accessSize x.revPack.subOp →
      byteAt x.stbufExlsuBusDataFeedback k = byte k) :
    x.rdValue = loadValue x.revPack.subOp byte := by
  have hlow : ∀ n, n ≤ accessSize x.revPack.subOp →
      ofBytes byte n = x.stbufExlsuBusDataFeedback.toNat % 2 ^ (8 * n) := fun n hn =>
    (ofBytes_congr fun k hk => (hbytes k (by omega)).symm).trans (ofBytes_byteAt _ n)
  rw [isLoad, decide_eq_true_iff] at hload
  have hcases : x.revPack.subOp = 0 ∨ x.revPack.subOp = 1 ∨ x.revPack.subOp = 2 ∨
      x.revPack.subOp = 3 ∨ x.revPack.subOp = 4 := by
    have : x.revPack.subOp ≤ 4 := hload
    omega
  rcases hcases with hop | hop | hop | hop | hop <;> rw [hop] at hlow
  · simp [ExecuteLsuInput.rdValue, loadValue, hop, hlow 1 (by decide)]
  · simp [ExecuteLsuInput.rdValue, loadValue, hop, hlow 1 (by decide)]
  · simp [ExecuteLsuInput.rdValue, loadValue, hop, hlow 2 (by decide)]
  · simp [ExecuteLsuInput.rdValue, loadValue, hop, hlow 2 (by decide)]
  · simp [ExecuteLsuInput.rdValue, loadValue, hop, hlow 4 (by decide)]

/-- A completing load has the bytes of the memory after the committed stores and the
stores in flight in front of it. -/
theorem load_value (h : LoadPathInv s) (hcompletes : loadCompletes s input = true)
    (hin : inTcm s.loadStore.lsuFifo.data.lsuAddr = true) :
    ∃ k, ∃ hk : k < s.loadStore.rob.entries.length,
      s.loadStore.rob.entries[k].tag.issued = some s.loadStore.lsuFifo.data ∧
      (loadPathExecuteInput s input).rdValue =
        loadValue s.loadStore.lsuFifo.data.subOp fun i =>
          applyWrites (tcmByte s.tcm) (bufferedWrites s.loadStore ++
            (s.loadStore.rob.entries.take k).filterMap olderWrite)
              (busTcmAddr s.loadStore.lsuFifo.data.lsuAddr + i) := by
  rw [loadCompletes, Bool.and_eq_true, Bool.and_eq_true, Bool.and_eq_true, Bool.not_eq_true']
    at hcompletes
  obtain ⟨⟨⟨hinst, hload⟩, hexc⟩, _⟩ := hcompletes
  rw [ExecuteLsuInput.instValid, Bool.and_eq_true, Bool.and_eq_true] at hinst
  obtain ⟨⟨hdata, _⟩, hvalid⟩ := hinst
  have hdata' : s.loadStore.lsuFifo.hasData = true := hdata
  generalize hp : s.loadStore.lsuFifo.data = p at hin ⊢
  have hrev : (loadPathExecuteInput s input).revPack = p := hp
  rw [hrev] at hload hexc hvalid
  have hclean : isCleanLoad p = true := by
    rw [isCleanLoad, hvalid, hload, hexc]
    rfl
  have hanswered : LoadAnswered s p := by
    have := h.load hdata'
    rw [hp] at this
    exact this hclean
  have haccess : AccessOk p := hp ▸ h.access hdata'
  have hflow := h.loadStore.normal (h.normal hdata')
  obtain ⟨k, hk, hissued, _⟩ := hflow.fifo hdata'
  rw [hp] at hissued
  refine ⟨k, hk, hissued, ?_⟩
  have hread : ReadOk s.loadStore.stbuf.issueStbufReadAddrR s.loadStore.stbuf.issueStbufReadSizeR := by
    rw [hanswered.addr, hanswered.size]
    exact readOk_of_aligned hin (accessSize_cases (haccess.subOp hvalid))
      (haccess.aligned hvalid hexc)
  have hsize := hread.size
  have hbounds := hread.bounds
  rw [hanswered.size] at hsize hbounds
  rw [hanswered.addr] at hbounds
  rw [← hrev]
  refine rdValue_eq _ (hrev ▸ hload) fun i hi => ?_
  rw [hrev] at hi ⊢
  have hin' : inTcm (p.lsuAddr + i) = true := inTcm_iff.2 ⟨by omega, by omega⟩
  have haddr : busTcmAddr p.lsuAddr + i = busTcmAddr (p.lsuAddr + i) := by
    rw [busTcmAddr_eq hin, busTcmAddr_eq hin']
    omega
  -- the word on the bus has the bytes of the memory
  have hbus : byteAt (busStbufData s.bus (tcmBusData s.tcm) s.clint.clintBusData) i =
      tcmByte s.tcm (busTcmAddr (p.lsuAddr + i)) := by
    rw [busStbufData, if_pos (hanswered.port.trans hin), hanswered.memory hin,
      byteAt_ofBytes _ (Nat.lt_trans (by omega : i < 4) (by decide)) (by omega), haddr]
  have hitems : ∀ x ∈ storeContents s.loadStore.stbuf, StoreItemOk x :=
    fun x hx => (h.stores x hx).toStoreItemOk
  have hfeedback : (loadPathExecuteInput s input).stbufExlsuBusDataFeedback =
      stbufExlsuBusDataFeedback s.loadStore.stbuf
        (busStbufData s.bus (tcmBusData s.tcm) s.clint.clintBusData) := rfl
  rw [hfeedback, stbufExlsuBusDataFeedback_eq h.loadStore.ring hitems hread,
    byteAt_setWidth _ (by omega), byteAt_overlayAll hitems hread _ (hanswered.size ▸ hi),
    hanswered.addr, hbus, youngestByte_applyWrites h.stores hin', haddr, storeContents_split,
    List.map_append, pendingStores_load hflow hanswered hload hp hk hissued, bufferedWrites]

/-! ## Runs -/

theorem tcmByte_loadPath (s : LoadPathState) (input : LoadStoreInput) :
    tcmByte (loadPathNext s input).tcm =
      applyWrites (tcmByte s.tcm) (loadPathBusWrites s input) := by
  have hnext : tcmByte (loadPathNext s input).tcm = _ := tcmByte_next s.tcm _ _
    (loadPathTcmWrite s input)
  rw [hnext, loadPathBusWrites, busWrites, loadPathTcmWrite, loadPathWrite]
  cases stbufBusWriteReq s.loadStore.stbuf
    (loadStoreFeedback s.loadStore (loadPathInput s input)) with
  | true => rfl
  | false => exact writeBytes_none _ _ _ _

theorem tcmByte_loadPath_run (s : LoadPathState) (inputs : List LoadStoreInput) :
    tcmByte (run loadPathNext s inputs).tcm =
      applyWrites (tcmByte s.tcm) (outputs loadPathNext loadPathBusWrites s inputs) := by
  induction inputs generalizing s with
  | nil => rfl
  | cons input inputs ih => rw [run_cons, ih, tcmByte_loadPath, outputs, applyWrites_append]

/-- A completing load hands its result to write-back. -/
theorem lsuWbPort_completes (h : loadCompletes s input = true) :
    (loadPathNext s input).loadStore.lsuWbPort = (loadPathExecuteInput s input).sendPack := by
  rw [loadCompletes, Bool.and_eq_true] at h
  have hflush := h.2
  rw [ExecuteLsuInput.lsuWbPortWe, Bool.not_eq_true'] at hflush
  show portNext s.loadStore.lsuWbPort (loadPathExecuteInput s input).sendPack
    (loadPathExecuteInput s input).lsuWbPortWe (loadPathExecuteInput s input).lsuWbPortFlush = _
  rw [portNext, hflush, h.2, if_neg Bool.false_ne_true, if_pos rfl]

/-- A load from the memory that completes gets, byte by byte, what the latest older store
put there: the stores that have retired, then those in flight in front of it. -/
theorem loads_return_newest (mem : Nat → Nat → BitVec 8) (outData : Nat → BitVec 8)
    (robBuffer : Nat → RobItem) (buffer : Nat → StoreBufferItem) (inputs : List LoadStoreInput)
    (input : LoadStoreInput)
    (h : Along loadPathNext LoadPathStep (loadPathReset mem outData robBuffer buffer) inputs)
    (hcompletes : loadCompletes
      (run loadPathNext (loadPathReset mem outData robBuffer buffer) inputs) input = true)
    (hin : inTcm (run loadPathNext (loadPathReset mem outData robBuffer buffer)
      inputs).loadStore.lsuFifo.data.lsuAddr = true) :
    let s := run loadPathNext (loadPathReset mem outData robBuffer buffer) inputs
    let load := s.loadStore.lsuFifo.data
    let result := (loadPathNext s input).loadStore.lsuWbPort
    ∃ k, ∃ hk : k < s.loadStore.rob.entries.length,
      s.loadStore.rob.entries[k].tag.issued = some load ∧
      result.robId = s.loadStore.rob.idAt k ∧
      result.rdValue = loadValue load.subOp fun i =>
        applyWrites (initialByte mem)
          (outputs loadPathNext loadPathRetiredStores
              (loadPathReset mem outData robBuffer buffer) inputs ++
            (s.loadStore.rob.entries.take k).filterMap olderWrite)
          (busTcmAddr load.lsuAddr + i) := by
  have hreset := loadPathReset_inv mem outData robBuffer buffer
  have hinv := invariant_run (fun _ _ => loadPathInv_next) hreset h
  let pending (s : LoadPathState) := bufferedWrites s.loadStore
  have hflow : ∀ s input, LoadPathInv s → LoadPathStep s input →
      pending s ++ loadPathRetiredStores s input =
        loadPathBusWrites s input ++ pending (loadPathNext s input) :=
    fun s input hinv _ =>
      @stores_conserved_next s.loadStore (loadPathInput s input) hinv.loadStore
  have hstores := outputs_conserved (fun _ _ => loadPathInv_next) hflow hreset h
  have hstart : pending (loadPathReset mem outData robBuffer buffer) = [] :=
    bufferedWrites_reset buffer
  dsimp only
  rw [hstart, List.nil_append] at hstores
  have hmem := tcmByte_loadPath_run (loadPathReset mem outData robBuffer buffer) inputs
  have hinitial : tcmByte (loadPathReset mem outData robBuffer buffer).tcm = initialByte mem := rfl
  rw [hinitial] at hmem
  obtain ⟨k, hk, hissued, hvalue⟩ := load_value hinv hcompletes hin
  have hdata := hcompletes
  rw [loadCompletes, Bool.and_eq_true, Bool.and_eq_true, Bool.and_eq_true,
    ExecuteLsuInput.instValid, Bool.and_eq_true, Bool.and_eq_true] at hdata
  have hentry := (hinv.loadStore.normal (hinv.normal hdata.1.1.1.1.1)).entries k hk
  refine ⟨k, hk, hissued, ?_, ?_⟩
  · rw [lsuWbPort_completes hcompletes]
    exact (hentry.issued _ hissued).2.1
  · rw [lsuWbPort_completes hcompletes]
    refine hvalue.trans ?_
    rw [hmem, ← applyWrites_append, ← List.append_assoc, ← hstores]

/-! ## A load behind a store to its address -/

def loadHalf : DecodeRenamePack :=
  { IssueExecutePack.zero.toDecodeRenamePack with
    enable := true, valid := true, opUnit := .lsu, subOp := LsuOp.lh }

/-- Both are renamed, the store is issued, then the load. -/
def loadBehindStore : List LoadStoreInput :=
  [{ quietLoadStore with
      renamed := [(RobItem.zero, storeWord), (RobItem.zero, loadHalf)]
      offer := ⟨fun _ => RobItem.zero, fun i => decide (i < 2), true⟩ },
    { quietLoadStore with
      issueItem :=
        { IssueExecutePack.zero.toReadregIssueOpInfo with
          toDecodeRenamePack := storeWord, src1Value := 0x80000010, src2Value := 0x8123ffff }
      issueLsuFifoPush := true },
    { quietLoadStore with
      issueItem :=
        { IssueExecutePack.zero.toReadregIssueOpInfo with
          toDecodeRenamePack := loadHalf, robId := 1, src1Value := 0x80000012 }
      issueLsuFifoPush := true }]

def zeroLoadPath : LoadPathState :=
  loadPathReset (fun _ _ => 0) (fun _ => 0) (fun _ => RobItem.zero) noStores

theorem robAllowed_nothing (hexact : GrantsExact s.loadStore.rob)
    (hpush : input.offer.renameRobPush = false) (hnone : input.renamed = []) :
    RobAllowed s.loadStore (loadPathInput s input) := by
  refine ⟨hexact, fun rob _ => ?_⟩
  have hpushed : loadStorePushed s.loadStore (loadPathInput s input) = [] := by
    simp [loadStorePushed, loadPathInput, hnone]
  rw [hpushed]
  exact offersInOrder_nothing hpush

theorem loads_return_newest_behind :
    let s := run loadPathNext zeroLoadPath loadBehindStore
    let result := (loadPathNext s quietLoadStore).loadStore.lsuWbPort
    result.rdValue = 0xffff8123 ∧ ∃ k, ∃ hk : k < s.loadStore.rob.entries.length,
      s.loadStore.rob.entries[k].tag.issued = some s.loadStore.lsuFifo.data ∧
      result.robId = s.loadStore.rob.idAt k ∧
      result.rdValue = loadValue s.loadStore.lsuFifo.data.subOp fun i =>
        applyWrites (initialByte fun _ _ => 0)
          (outputs loadPathNext loadPathRetiredStores zeroLoadPath loadBehindStore ++
            (s.loadStore.rob.entries.take k).filterMap olderWrite)
          (busTcmAddr s.loadStore.lsuFifo.data.lsuAddr + i) := by
  refine ⟨by decide +kernel, loads_return_newest (fun _ _ => 0) (fun _ => 0)
    (fun _ => RobItem.zero) noStores loadBehindStore quietLoadStore
    ⟨⟨⟨⟨?_, othersAnswer_none rfl, ?_⟩, ?_⟩, ?_⟩,
      ⟨⟨⟨?_, othersAnswer_none rfl, ?_⟩, ?_⟩, ?_⟩,
      ⟨⟨⟨?_, othersAnswer_none rfl, ?_⟩, ?_⟩, ?_⟩, trivial⟩
    (by decide +kernel) (by decide +kernel)⟩
  · exact ⟨by decide +kernel, by decide +kernel⟩
  · exact fun hissue => by simp [issueAccepted, loadPathInput, quietLoadStore] at hissue
  · intro x hx _ _
    rcases List.mem_cons.1 hx with rfl | hx
    · decide
    · rw [List.mem_singleton.1 hx]
      decide
  · refine ⟨by decide +kernel, fun rob hrob => ?_⟩
    cases hrob
    exact ⟨by decide +kernel, by decide +kernel, by decide +kernel⟩
  · exact ⟨by decide +kernel, by decide +kernel⟩
  · refine fun _ => ⟨0, by decide +kernel, by decide +kernel, by decide +kernel,
      by decide +kernel, by decide +kernel, fun j _ hj => absurd hj (Nat.not_lt_zero j)⟩
  · exact fun x hx => absurd hx List.not_mem_nil
  · exact robAllowed_nothing (by decide +kernel) rfl rfl
  · exact ⟨by decide +kernel, by decide +kernel⟩
  · refine fun _ => ⟨1, by decide +kernel, by decide +kernel, by decide +kernel,
      by decide +kernel, by decide +kernel, fun j hlt hj _ => ?_⟩
    obtain rfl : j = 0 := by omega
    revert hlt
    decide +kernel
  · exact fun x hx => absurd hx List.not_mem_nil
  · exact robAllowed_nothing (by decide +kernel) rfl rfl

end DreamCore.Proofs
