import DreamCore.Model.ReorderBuffer
import DreamCore.Proofs.Results
import DreamCore.Proofs.RobGrants

/-!
# The ring represents the list

The live entries of `rob.sv`, from the read pointer on, are the entries of the list.  Its
answers to commit are those of the list in every such state, those to rename while a
wrapped window leaves a bundle free; then one cycle of `rob.sv` is one of the list, if
rename offers its instructions without a gap.
-/

namespace DreamCore.Proofs

open DreamCore.Model DreamCore.Ring DreamCore.Rtl

variable {γ : Type}

/-- The ring holds the entries of the list. -/
structure HoldsList (rob : RobState) (r : IdealRob γ) : Prop where
  ring : RobWellFormed rob
  headId : r.headId = slot robSize rob.rptr
  items : r.entries.map (·.item) = contents robSize rob.buffer rob.rptr rob.wptr

/-- Rename offers the pushed entries on the first channels, all of them granted. -/
structure OffersInOrder (rob : RobState) (offer : RenameOffer) (pushed : List (Entry γ)) :
    Prop where
  channels : ∀ i, i < renameWidth →
    (offer.renameRobPush && (offer.renameRobDataValid i && robRenameNewIdValid rob i)) =
      decide (i < pushed.length)
  length_le : pushed.length ≤ renameWidth
  data : ∀ i (hi : i < pushed.length), offer.renameRobData i = pushed[i].item

theorem offersInOrder_nothing {rob : RobState} {offer : RenameOffer}
    (hpush : offer.renameRobPush = false) :
    OffersInOrder rob offer ([] : List (Entry γ)) where
  channels := fun i _ => by rw [hpush, Bool.false_and]; rfl
  length_le := Nat.zero_le _
  data := fun _ hi => absurd hi (Nat.not_lt_zero _)

/-! ## Answers -/

section Answers

variable {rob : RobState} {r : IdealRob γ} (h : HoldsList rob r)
include h

theorem HoldsList.length : r.entries.length = robOccupancy rob := by
  have := congrArg List.length h.items
  rwa [List.length_map, length_contents] at this

theorem HoldsList.wf : r.WellFormed :=
  ⟨h.headId ▸ slot_lt (by decide), h.length ▸ h.ring.fits⟩

theorem HoldsList.idAt (k : Nat) : r.idAt k = slot robSize (rob.rptr + k) := by
  rw [IdealRob.idAt, h.headId]
  exact Nat.mod_add_mod _ _ _

theorem HoldsList.item {k : Nat} (hk : k < r.entries.length) :
    rob.buffer (r.idAt k) = r.entries[k].item := by
  have hget := congrArg (·[k]?) h.items
  simp only [List.getElem?_map, List.getElem?_eq_getElem hk, Option.map_some,
    contents_getElem? (h.length ▸ hk)] at hget
  rw [h.idAt]
  exact (Option.some_inj.1 hget).symm

theorem HoldsList.newId (i : Nat) : robRenameNewId rob i = r.newId i := by
  rw [robNewId_eq h.ring, IdealRob.newId, h.idAt, h.length]

/-- While a wrapped window leaves a bundle free the grants are those of the list. -/
theorem HoldsList.newIdValid (hleaves : WrapLeavesBundle rob) {i : Nat} (hi : i < renameWidth) :
    robRenameNewIdValid rob i = r.newIdValid i := by
  rw [Bool.eq_iff_iff, robNewIdValid_iff h.ring hi, IdealRob.newIdValid, decide_eq_true_iff,
    h.length]
  rcases hleaves with hstage | hfree
  · simp [hstage]
  · exact ⟨fun _ => by omega, Or.inr⟩

theorem HoldsList.live {k : Nat} (hk : k < robSize) :
    ptrInRange robSize (r.idAt k) rob.rptr rob.wptr = decide (k < r.entries.length) := by
  rw [Bool.eq_iff_iff, h.idAt, ptrInRange_iff h.ring (slot_lt (by decide)), decide_eq_true_iff,
    h.length]
  constructor
  · rintro ⟨j, hj, heq⟩
    have hsame := slot_add_inj hk (Nat.lt_of_lt_of_le hj h.ring.fits) heq
    exact hsame ▸ hj
  · exact live_slot

theorem HoldsList.flushTailId (hne : r.entries ≠ []) :
    robCommitFlushTailId rob = r.idAt (r.entries.length - 1) := by
  have hpos := List.length_pos_iff.2 hne
  have hslot : slot robSize rob.wptr = slot robSize (rob.rptr + robOccupancy rob) :=
    slot_wptr h.ring
  rw [h.length] at hpos
  rw [robCommitFlushTailId, h.idAt, h.length, hslot]
  generalize robOccupancy rob = n at hpos ⊢
  simp only [slot, robSize]
  omega

/-- Commit cannot tell the ring from the list. -/
theorem HoldsList.shows : Shows (robView rob) r where
  wf := h.wf
  data := fun _ hk => h.item hk
  retireIdValid := fun _ hk => h.live hk
  retireHeadId := h.headId.symm
  flushTailId := h.flushTailId
  flushNextIdValid := fun k hk => by
    have hsize := h.wf.2
    show robCommitFlushNextIdValid rob (r.idAt (k + 1)) = true
    rw [robCommitFlushNextIdValid, robCommitFlushNextId_idAt, h.live (by omega),
      h.flushTailId (List.length_pos_iff.1 (by omega)), Bool.and_eq_true, decide_eq_true_iff,
      decide_eq_true_iff]
    refine ⟨by omega, fun heq => ?_⟩
    have := idAt_inj h.wf (by omega) (by omega) heq
    omega
  empty := by
    have hiff := occupancy_eq_zero_iff h.ring.rptr_lt h.ring.wptr_lt
    show robEmpty rob = _
    rw [robEmpty, Bool.eq_iff_iff, decide_eq_true_iff, List.isEmpty_iff,
      ← List.length_eq_zero_iff, h.length, ← hiff]

end Answers

/-! ## One cycle -/

/-- Channels without a request in front of the others add nothing. -/
theorem dataSelector_skip {α : Type} [Packed α] (hleft : ∀ x : α, Packed.or Packed.zero x = x)
    {first rest : Nat} {selIn : Nat → Bool} {dataIn : Nat → α} (hrest : 0 < rest)
    (h : ∀ j, j < first → selIn j = false) :
    dataSelector (first + rest) selIn dataIn =
      dataSelector rest (fun j => selIn (first + j)) fun j => dataIn (first + j) := by
  have hzero : ∀ j, j < first → dataOutTemp selIn dataIn j = Packed.zero := by
    intro j hj
    induction j with
    | zero => simp [dataOutTemp, dataInFilter, h 0 hj]
    | succ j ih =>
        rw [dataOutTemp, ih (by omega), dataInFilter, h _ hj, hleft]
        rfl
  have hchain : ∀ j, dataOutTemp selIn dataIn (first + j) =
      dataOutTemp (fun j => selIn (first + j)) (fun j => dataIn (first + j)) j := by
    intro j
    induction j with
    | zero =>
        cases first with
        | zero => rfl
        | succ first =>
            show Packed.or (dataOutTemp selIn dataIn first) _ = _
            rw [hzero first (Nat.lt_succ_self _), hleft]
            rfl
    | succ j ih =>
        rw [← Nat.add_assoc, dataOutTemp, ih]
        rfl
  rw [dataSelector, dataSelector, Nat.add_sub_assoc hrest, hchain]

theorem anyBit_skip {first rest : Nat} {v : Nat → Bool} (h : ∀ j, j < first → v j = false) :
    anyBit (first + rest) v = anyBit rest fun j => v (first + j) := by
  rw [Bool.eq_iff_iff, anyBit_iff, anyBit_iff]
  constructor
  · rintro ⟨j, hj, hbit⟩
    have hge : first ≤ j := by
      by_contra hlt
      exact Bool.false_ne_true ((h j (by omega)).symm.trans hbit)
    exact ⟨j - first, by omega, by rwa [Nat.add_sub_cancel' hge]⟩
  · rintro ⟨j, hj, hbit⟩
    exact ⟨first + j, by omega, hbit⟩

section Step

variable {rob : RobState} {r : IdealRob γ} {s : CommitState} {c : CommitInput}
  {offer : RenameOffer} {pushed : List (Entry γ)} {update : Nat → Entry γ → Entry γ}

/-- Every result commit writes is for an entry in flight. -/
def WritesInFlight (s : CommitState) (c : CommitInput) (r : IdealRob γ) : Prop :=
  ∀ j, j < wbWidth → commitRobInputDataWe s c j = true →
    ∃ k, k < r.entries.length ∧ (c.wbCommitPortDataOut j).robId = r.idAt k

theorem writesInFlight_of_answers {R : Entry γ → ExecuteWbPack → Prop}
    (h : Answers R r c.wbCommitPortDataOut) : WritesInFlight s c r := by
  intro j hj hwe
  obtain ⟨k, hk, hid, _⟩ := h.inFlight j hj (Bool.and_eq_true_iff.1 hwe).2
  exact ⟨k, hk, hid⟩

theorem newId_not_live (h : HoldsList rob r) (hleaves : WrapLeavesBundle rob) {i k : Nat}
    (hi : i < renameWidth) (hgrant : robRenameNewIdValid rob i = true)
    (hk : k < r.entries.length) : robRenameNewId rob i ≠ r.idAt k := by
  intro heq
  rw [h.newIdValid hleaves hi, IdealRob.newIdValid, decide_eq_true_iff] at hgrant
  rw [h.newId, IdealRob.newId] at heq
  have := idAt_inj h.wf hgrant (by omega) heq
  omega

/-- Write-back is all that changes an entry in flight. -/
theorem buffer_live (h : HoldsList rob r) (hleaves : WrapLeavesBundle rob) {k : Nat}
    (hk : k < r.entries.length) :
    robBufferNext rob (robInputOf s c offer) (r.idAt k) =
      robItemWritten s c (r.idAt k) r.entries[k].item := by
  have hrename : ∀ j, j < renameWidth →
      robWritePortAddrCmp rob (robInputOf s c offer) (r.idAt k) j = false := by
    intro j hj
    rw [Bool.eq_false_iff]
    intro hcmp
    simp only [robWritePortAddrCmp, robWriteChannelAddr, robWriteChannelEnable, if_pos hj,
      Bool.and_eq_true, decide_eq_true_eq] at hcmp
    exact newId_not_live h hleaves hj hcmp.2.2 hk hcmp.1
  have hback : ∀ j, robWritePortAddrCmp rob (robInputOf s c offer) (r.idAt k) (renameWidth + j) =
      (decide ((c.wbCommitPortDataOut j).robId = r.idAt k) && commitRobInputDataWe s c j) := by
    intro j
    have hge : ¬renameWidth + j < renameWidth := by omega
    simp only [robWritePortAddrCmp, robWriteChannelAddr, robWriteChannelEnable, if_neg hge,
      Nat.add_sub_cancel_left]
    rfl
  have hdata : ∀ j, robWriteChannelData (robInputOf s c offer) (renameWidth + j) =
      inputRobItem c j := by
    intro j
    have hge : ¬renameWidth + j < renameWidth := by omega
    simp only [robWriteChannelData, if_neg hge, Nat.add_sub_cancel_left]
    rfl
  rw [robBufferNext, anyBit_skip hrename,
    dataSelector_skip robItem_zero_or (by decide) hrename, h.item hk]
  simp only [hback, hdata]
  rfl

/-- A pushed entry is written by its channel alone. -/
theorem buffer_new (h : HoldsList rob r) (hleaves : WrapLeavesBundle rob)
    (hwrites : WritesInFlight s c r) (hoffers : OffersInOrder rob offer pushed) {i : Nat}
    (hi : i < pushed.length) :
    robBufferNext rob (robInputOf s c offer) (robRenameNewId rob i) = pushed[i].item := by
  have hwidth : i < renameWidth := Nat.lt_of_lt_of_le hi hoffers.length_le
  have hchannel := hoffers.channels i hwidth
  rw [decide_eq_true hi] at hchannel
  simp only [Bool.and_eq_true] at hchannel
  obtain ⟨_, hvalid, hgrant⟩ := hchannel
  have hany : anyBit renameWidth offer.renameRobDataValid = true :=
    anyBit_iff.2 ⟨i, hwidth, hvalid⟩
  have hfree : r.entries.length + i < robSize :=
    of_decide_eq_true ((h.newIdValid hleaves hwidth).symm.trans hgrant)
  have hcmp : ∀ j, j < renameWidth + wbWidth →
      (robWritePortAddrCmp rob (robInputOf s c offer) (robRenameNewId rob i) j = true ↔ j = i) := by
    intro j hj
    by_cases hj' : j < renameWidth
    · simp only [robWritePortAddrCmp, robWriteChannelAddr, robWriteChannelEnable, if_pos hj',
        Bool.and_eq_true, decide_eq_true_eq]
      constructor
      · rintro ⟨heq, _⟩
        simp only [robRenameNewId, robSize, renameWidth] at heq hj' hwidth
        omega
      · rintro rfl
        exact ⟨rfl, hany, hgrant⟩
    · simp only [robWritePortAddrCmp, robWriteChannelAddr, robWriteChannelEnable, if_neg hj',
        Bool.and_eq_true, decide_eq_true_eq]
      constructor
      · rintro ⟨heq, hwe⟩
        obtain ⟨k, hk, hid⟩ := hwrites (j - renameWidth) (by omega) hwe
        exact absurd (heq.symm.trans hid) (newId_not_live h hleaves hwidth hgrant hk)
      · exact fun heq => absurd (heq ▸ hwidth) hj'
  have hlt : i < renameWidth + wbWidth := by omega
  rw [robBufferNext, if_pos (anyBit_iff.2 ⟨i, hlt, (hcmp i hlt).2 rfl⟩),
    dataSelector_single robItem_zero_or robItem_or_zero hlt hcmp, robWriteChannelData,
    if_pos hwidth]
  exact hoffers.data i hi

/-- The write pointer moves behind the pushed entries. -/
theorem wptr_next (h : HoldsList rob r) (hleaves : WrapLeavesBundle rob)
    (hoffers : OffersInOrder rob offer pushed) :
    robWptrNext rob (robInputOf s c offer) = (rob.wptr + pushed.length) % (2 * robSize) := by
  have hnum : offer.renameRobPush = true →
      robNewNum rob (robInputOf s c offer) = pushed.length := fun hpush =>
    countOne_block hoffers.length_le fun i hi => by
      have := hoffers.channels i hi
      rwa [hpush, Bool.true_and] at this
  have hnone : offer.renameRobPush = false → pushed.length = 0 := fun hpush => by
    have := hoffers.channels 0 (by decide)
    rw [hpush, Bool.false_and] at this
    have := of_decide_eq_false this.symm
    omega
  have hfull : robFull rob = false := by
    rw [Bool.eq_false_iff]
    intro hfull
    simp only [robFull, Bool.and_eq_true, decide_eq_true_eq] at hfull
    have hocc := (full_iff h.ring.rptr_lt h.ring.wptr_lt).1 hfull
    rcases hleaves with hstage | hfree
    · exact hfull.1 hstage
    · simp only [robOccupancy, hocc, renameWidth] at hfree
      omega
  rw [robWptrNext, hfull, if_neg Bool.false_ne_true]
  cases hpush : offer.renameRobPush with
  | true => rw [← hnum hpush]; exact if_pos hpush
  | false =>
      rw [hnone hpush, Nat.add_zero, Nat.mod_eq_of_lt h.ring.wptr_lt]
      exact if_neg fun hp => Bool.false_ne_true (hpush.symm.trans hp)

theorem holdsList_flushed (rob : RobState) (hflush : commitRobFlush s c = true) :
    HoldsList (robNext rob (robInputOf s c offer))
      (r.next update (popCount s c) pushed (commitRobFlush s c)) := by
  have hin : (robInputOf s c offer).commitRobFlush = true := hflush
  refine ⟨?_, ?_, ?_⟩
  · simp only [RobWellFormed, robNext, hin, if_true]
    exact ⟨by decide, by decide, by decide⟩
  · simp [IdealRob.next, hflush, robNext, hin, slot]
  · simp [IdealRob.next, hflush, robNext, hin, contents, occupancy]

/-- What is pushed fits. -/
theorem pushed_fits (h : HoldsList rob r) (hleaves : WrapLeavesBundle rob)
    (hoffers : OffersInOrder rob offer pushed) : robOccupancy rob + pushed.length ≤ robSize := by
  rcases Nat.eq_zero_or_pos pushed.length with hzero | hpos
  · have : robOccupancy rob ≤ robSize := h.ring.fits
    omega
  · have hwidth := hoffers.length_le
    have hchannel := hoffers.channels (pushed.length - 1) (by omega)
    rw [decide_eq_true (by omega)] at hchannel
    simp only [Bool.and_eq_true] at hchannel
    rw [h.newIdValid hleaves (by omega)] at hchannel
    have := of_decide_eq_true hchannel.2.2
    rw [h.length] at this
    omega

/-- The live entries after the cycle's writes, before any of them leaves. -/
theorem contents_written (h : HoldsList rob r) (hleaves : WrapLeavesBundle rob)
    (hwrites : WritesInFlight s c r)
    (hupdate : ∀ k e, (update k e).item = robItemWritten s c (r.idAt k) e.item)
    (hoffers : OffersInOrder rob offer pushed) :
    contents robSize (robBufferNext rob (robInputOf s c offer)) rob.rptr
        ((rob.wptr + pushed.length) % (2 * robSize)) =
      (r.entries.mapIdx update ++ pushed).map (·.item) := by
  have hnew : ∀ j, j < pushed.length →
      robBufferNext rob (robInputOf s c offer) (slot robSize (rob.wptr + j)) =
        (pushed.map (·.item)).getD j RobItem.zero := by
    intro j hj
    have hid : robRenameNewId rob j = slot robSize (rob.wptr + j) := Nat.mod_add_mod _ _ _
    rw [← hid, buffer_new h hleaves hwrites hoffers hj]
    simp [hj]
  rw [contents_append h.ring (pushed_fits h hleaves hoffers) (fun _ _ => rfl) hnew,
    List.map_append]
  congr 1
  · refine List.ext_getElem? fun k => ?_
    rcases Nat.lt_or_ge k r.entries.length with hk | hk
    · rw [contents_getElem? (Nat.lt_of_lt_of_eq hk h.length), ← h.idAt, buffer_live h hleaves hk]
      simp [hk, hupdate]
    · rw [List.getElem?_eq_none, List.getElem?_eq_none]
      · simpa using hk
      · rw [length_contents]
        exact h.length.symm.trans_le hk
  · refine List.ext_getElem? fun j => ?_
    rcases Nat.lt_or_ge j pushed.length with hj | hj
    · simp [hj]
    · rw [List.getElem?_eq_none (by simpa using hj), List.getElem?_eq_none (by simpa using hj)]

/-- One cycle of `rob.sv` is one of the list. -/
theorem holdsList_next (h : HoldsList rob r) (hleaves : WrapLeavesBundle rob)
    (hview : Shows c.rob r) (hwrites : WritesInFlight s c r)
    (hupdate : ∀ k e, (update k e).item = robItemWritten s c (r.idAt k) e.item)
    (hoffers : OffersInOrder rob offer pushed) :
    HoldsList (robNext rob (robInputOf s c offer))
      (r.next update (popCount s c) pushed (commitRobFlush s c)) := by
  cases hflush : commitRobFlush s c with
  | true => exact hflush ▸ holdsList_flushed rob hflush
  | false =>
      have hin : (robInputOf s c offer).commitRobFlush = false := hflush
      have hsize : 0 < robSize := by decide
      have hpops : popCount s c ≤ occupancy robSize rob.rptr rob.wptr :=
        (popCount_le hview).trans h.length.le
      have hwptr := wptr_next (s := s) (c := c) h hleaves hoffers
      have hrptr : robRptrNext rob (robInputOf s c offer) =
          (rob.rptr + popCount s c) % (2 * robSize) := by
        rw [robRptrNext]
        split
        · have hzero : occupancy robSize rob.rptr rob.wptr = 0 :=
            (occupancy_eq_zero_iff h.ring.rptr_lt h.ring.wptr_lt).2
              (by simpa [robEmpty] using ‹robEmpty rob = true›)
          have : popCount s c = 0 := by omega
          rw [this, Nat.add_zero, Nat.mod_eq_of_lt h.ring.rptr_lt]
        · rfl
      have hfit : occupancy robSize rob.rptr rob.wptr + pushed.length ≤ robSize :=
        pushed_fits h hleaves hoffers
      have hlen : occupancy robSize rob.rptr ((rob.wptr + pushed.length) % (2 * robSize)) =
          occupancy robSize rob.rptr rob.wptr + pushed.length :=
        occupancy_push h.ring.rptr_lt h.ring.wptr_lt (by omega)
      have hpush : WellFormed robSize rob.rptr ((rob.wptr + pushed.length) % (2 * robSize)) :=
        ⟨h.ring.rptr_lt, Nat.mod_lt _ (by decide), hlen ▸ hfit⟩
      refine ⟨?_, ?_, ?_⟩
      · simp only [RobWellFormed, robNext, hin, Bool.false_eq_true, if_false, hrptr, hwptr]
        refine ⟨Nat.mod_lt _ (by decide), hpush.wptr_lt, ?_⟩
        rw [occupancy_pop h.ring.rptr_lt hpush.wptr_lt (by omega)]
        omega
      · simp only [IdealRob.next, robNext, hin, Bool.false_eq_true, if_false, hrptr, slot_mod,
          h.headId]
        exact Nat.mod_add_mod _ _ _
      · simp only [IdealRob.next, robNext, hin, Bool.false_eq_true, if_false, hrptr, hwptr]
        rw [contents_pop hpush (by omega), contents_written h hleaves hwrites hupdate hoffers,
          List.map_append, List.map_append, List.map_drop, List.drop_append_of_le_length]
        rw [List.length_map, List.length_mapIdx, h.length]
        exact hpops

end Step

/-! ## What rename offers -/

theorem renameRobDataValid_eq (r : RenameInput) : r.renameRobDataValid = r.sendEnable := by
  funext i
  simp only [RenameInput.renameRobDataValid, RenameInput.sendEnable]
  cases r.robRenameNewIdValid i <;> simp

/-- The slots sent without a gap are the first ones. -/
theorem sent_slots {r : RenameInput} (horder : SendsInOrder r) :
    ∃ n, n ≤ renameWidth ∧ (∀ i, i < renameWidth → r.sendEnable i = decide (i < n)) ∧
      (List.range renameWidth).filter r.renameRobDataValid = List.range n := by
  have hblock : ∀ i, i < renameWidth →
      r.sendEnable i = decide (i < countOne renameWidth r.sendEnable) :=
    countOne_block_of_closed fun i hi hsend => horder (i + 1) hi hsend i (Nat.lt_succ_self i)
  refine ⟨_, countOne_le renameWidth r.sendEnable, hblock, ?_⟩
  rw [renameRobDataValid_eq, filter_range_prefix (q := fun _ => true)
    (countOne_le renameWidth r.sendEnable) fun i hi => by rw [hblock i hi, Bool.and_true]]
  exact List.filter_eq_self.2 fun _ _ => rfl

theorem offersInOrder_rename {rob : RobState} {r : RenameInput}
    (hgrant : r.robRenameNewIdValid = robRenameNewIdValid rob)
    (horder : r.renameRobPush = true → SendsInOrder r) {entry : Nat → Entry γ}
    (hitem : ∀ i, (entry i).item = r.robItem i) :
    OffersInOrder rob (renameOffer r)
      (if r.renameRobPush then ((List.range renameWidth).filter r.renameRobDataValid).map entry
        else []) := by
  by_cases hpush : r.renameRobPush = true
  · obtain ⟨n, hn, hsend, hslots⟩ := sent_slots (horder hpush)
    rw [if_pos hpush, hslots]
    refine ⟨fun i hi => ?_, by simpa using hn, fun i hi => by simp [renameOffer, hitem]⟩
    rw [List.length_map, List.length_range, ← hsend i hi, ← hgrant]
    simp only [renameOffer, hpush, renameRobDataValid_eq, Bool.true_and, RenameInput.sendEnable]
    cases r.robRenameNewIdValid i <;> simp
  · rw [if_neg hpush]
    exact ⟨fun i _ => by simp [renameOffer, hpush], Nat.zero_le _,
      fun i hi => absurd hi (Nat.not_lt_zero i)⟩

/-! ## The reorder buffer of a pipeline -/

/-- The list is well formed and `rob.sv`, where it is in place, represents it. -/
structure RobSound (r : ReorderBuffer γ) : Prop where
  wf : r.WellFormed
  rtl : ∀ rob, r.rtl = some rob → HoldsList rob r.toIdealRob

/-- A wrapped window of `rob.sv` leaves a bundle free. -/
def GrantsExact (r : ReorderBuffer γ) : Prop := ∀ rob, r.rtl = some rob → WrapLeavesBundle rob

instance (r : ReorderBuffer γ) : Decidable (GrantsExact r) :=
  match h : r.rtl with
  | none => isTrue fun _ hrob => by rw [h] at hrob; cases hrob
  | some rob => decidable_of_iff (WrapLeavesBundle rob)
      ⟨fun hleaves _ hrob => by rw [h] at hrob; cases hrob; exact hleaves, fun hall => hall rob h⟩

/-- The list alone has nothing to be exact about. -/
theorem grantsExact_list {r : ReorderBuffer γ} (h : r.rtl = none) : GrantsExact r :=
  fun _ hrob => absurd (h.symm.trans hrob) (by simp)

theorem robSound_reset (buffer : Option (Nat → RobItem)) :
    RobSound (.reset buffer : ReorderBuffer γ) := by
  refine ⟨⟨Nat.zero_lt_succ 63, Nat.zero_le _⟩, fun rob hrob => ?_⟩
  obtain ⟨content, _, rfl⟩ := Option.map_eq_some_iff.1 hrob
  exact ⟨robReset_wellFormed content, rfl,
    by simp [ReorderBuffer.reset, robReset, contents, occupancy]⟩

section Buffer

variable {r : ReorderBuffer γ}

theorem RobSound.shows (h : RobSound r) (stale : Nat → RobItem) :
    Shows (r.view stale) r.toIdealRob := by
  rw [ReorderBuffer.view]
  split
  · exact shows_list h.wf stale
  · exact (h.rtl _ ‹_›).shows

theorem RobSound.newId_eq (h : RobSound r) : r.newId = r.toIdealRob.newId := by
  rw [ReorderBuffer.newId]
  split
  · rfl
  · exact funext (h.rtl _ ‹_›).newId

theorem RobSound.newIdValid_eq (h : RobSound r) (hexact : GrantsExact r) {i : Nat}
    (hi : i < renameWidth) : r.newIdValid i = r.toIdealRob.newIdValid i := by
  cases hrob : r.rtl with
  | none => simp only [ReorderBuffer.newIdValid, hrob]
  | some rob =>
      simp only [ReorderBuffer.newIdValid, hrob]
      exact (h.rtl rob hrob).newIdValid (hexact rob hrob) hi

variable {s : CommitState} {c : CommitInput} {offer : RenameOffer} {pushed : List (Entry γ)}
  {update : Nat → Entry γ → Entry γ}

theorem RobSound.next (h : RobSound r) (hexact : GrantsExact r)
    (hview : Shows c.rob r.toIdealRob) (hwrites : WritesInFlight s c r.toIdealRob)
    (hupdate : ∀ k e, (update k e).item = robItemWritten s c (r.idAt k) e.item)
    (hoffers : ∀ rob, r.rtl = some rob → OffersInOrder rob offer pushed)
    (hfit : r.entries.length - popCount s c + pushed.length ≤ robSize) :
    RobSound (r.next update (popCount s c) pushed (commitRobFlush s c) (robInputOf s c offer)) where
  wf := by
    show (r.toIdealRob.next update _ pushed (commitRobFlush s c)).WellFormed
    cases commitRobFlush s c with
    | true => exact wellFormed_cleared
    | false => exact wellFormed_next_list hfit
  rtl := fun rob' hrob' => by
    obtain ⟨rob, hrob, rfl⟩ := Option.map_eq_some_iff.1 hrob'
    exact holdsList_next (h.rtl rob hrob) (hexact rob hrob) hview hwrites hupdate
      (hoffers rob hrob)

/-- A full flush restores soundness whatever the grants were. -/
theorem robSound_flushed (hflush : commitRobFlush s c = true) :
    RobSound (r.next update (popCount s c) pushed (commitRobFlush s c) (robInputOf s c offer)) where
  wf := by
    show (r.toIdealRob.next update _ pushed (commitRobFlush s c)).WellFormed
    rw [hflush]
    exact wellFormed_cleared
  rtl := fun rob' hrob' => by
    obtain ⟨rob, _, rfl⟩ := Option.map_eq_some_iff.1 hrob'
    exact holdsList_flushed rob hflush

end Buffer

end DreamCore.Proofs
