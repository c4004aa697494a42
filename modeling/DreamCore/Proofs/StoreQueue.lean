import DreamCore.Rtl.StoreBuffer
import Mathlib.Data.List.TakeWhile

/-!
# The store buffer as a queue

What the ring holds, oldest store first.  A cycle marks the entries commit names,
lets a marked head leave and takes the pushed store; a flushing cycle keeps the
marked entries in front of the first unmarked one.
-/

namespace DreamCore.Proofs

open DreamCore.Ring DreamCore.Rtl

section StoreQueue

variable {s : StoreBufferState} {input : StoreBufferInput} {fb : CommitFeedbackPack}

def storeContents (s : StoreBufferState) : List StoreBufferItem :=
  contents storeBufferSize s.buffer s.rptr s.wptr

abbrev StoreRing (s : StoreBufferState) : Prop := WellFormed storeBufferSize s.rptr s.wptr

/-- Commit names the instruction of this entry. -/
def namedBy (fb : CommitFeedbackPack) (x : StoreBufferItem) : Bool :=
  anyBit commitWidth fun j => fb.committedRobIdValid j && decide (fb.committedRobId j = x.robId)

def markItem (fb : CommitFeedbackPack) (x : StoreBufferItem) : StoreBufferItem :=
  if fb.enable && namedBy fb x then { x with committed := true } else x

theorem markItem_of_committed {x : StoreBufferItem} (h : x.committed = true) :
    markItem fb x = x := by
  unfold markItem
  split
  · rw [← h]
  · rfl

/-! ## Signals -/

theorem stbufExlsuFull_iff (h : StoreRing s) :
    stbufExlsuFull s = true ↔ (storeContents s).length = storeBufferSize := by
  rw [stbufExlsuFull, Bool.and_eq_true, decide_eq_true_iff, decide_eq_true_iff, storeContents,
    length_contents]
  exact full_iff h.rptr_lt h.wptr_lt

theorem stbufAllEmpty_iff (h : StoreRing s) :
    stbufAllEmpty s = true ↔ storeContents s = [] := by
  rw [stbufAllEmpty, decide_eq_true_iff, ← List.length_eq_zero_iff, storeContents,
    length_contents]
  exact (occupancy_eq_zero_iff h.rptr_lt h.wptr_lt).symm

theorem stbufCurItem_eq (hpos : 0 < (storeContents s).length) :
    (storeContents s).head? = some (stbufCurItem s) := by
  rw [storeContents, length_contents] at hpos
  rw [List.head?_eq_getElem?, storeContents, contents_getElem? hpos]
  rfl

/-- A write is issued for a marked head, unless commit flushes. -/
theorem stbufBusWriteReq_iff (h : StoreRing s) :
    stbufBusWriteReq s fb = true ↔ fb.flushing = false ∧
      ∃ x rest, storeContents s = x :: rest ∧ x.enable = true ∧ x.committed = true := by
  have hempty := stbufAllEmpty_iff h
  constructor
  · intro hreq
    simp only [stbufBusWriteReq, Bool.and_eq_true, Bool.not_eq_true'] at hreq
    obtain ⟨⟨⟨henable, hcommitted⟩, hflush⟩, hnonempty⟩ := hreq
    cases hcontents : storeContents s with
    | nil => exact absurd (hempty.2 hcontents) (by simp [hnonempty])
    | cons x rest =>
        have hcur := stbufCurItem_eq (s := s) (by simp [hcontents])
        rw [hcontents, List.head?_cons, Option.some.injEq] at hcur
        subst hcur
        exact ⟨hflush, _, rest, rfl, henable, hcommitted⟩
  · rintro ⟨hflush, x, rest, hcontents, henable, hcommitted⟩
    have hcur := stbufCurItem_eq (s := s) (by simp [hcontents])
    rw [hcontents, List.head?_cons, Option.some.injEq] at hcur
    have hnonempty : stbufAllEmpty s = false := by
      rw [Bool.eq_false_iff]
      intro hnil
      rw [hempty.1 hnil] at hcontents
      cases hcontents
    simp [stbufBusWriteReq, ← hcur, henable, hcommitted, hflush, hnonempty]

/-! ## Registers -/

theorem readyToCommit_slot (h : StoreRing s) {k : Nat}
    (hk : k < occupancy storeBufferSize s.rptr s.wptr) :
    readyToCommit s fb (slot storeBufferSize (s.rptr + k)) =
      namedBy fb (s.buffer (slot storeBufferSize (s.rptr + k))) := by
  have hlive : ptrInRange storeBufferSize (slot storeBufferSize (s.rptr + k)) s.rptr s.wptr =
      true := (ptrInRange_iff h (slot_lt (by decide))).2 (live_slot hk)
  unfold readyToCommit namedBy readyToCommitCmp
  simp only [hlive, Bool.true_and]

/-- A live slot keeps its store, marked if commit names it. -/
theorem stbufBufferNext_slot (h : StoreRing s) {k : Nat}
    (hk : k < occupancy storeBufferSize s.rptr s.wptr) :
    stbufBufferNext s input (slot storeBufferSize (s.rptr + k)) =
      markItem input.commitFeedbackPack (s.buffer (slot storeBufferSize (s.rptr + k))) := by
  have hpush : (input.exlsuStbufPush && !stbufExlsuFull s &&
      decide (slot storeBufferSize (s.rptr + k) = slot storeBufferSize s.wptr)) = false := by
    rw [Bool.eq_false_iff]
    intro hpush
    rw [Bool.and_eq_true, Bool.and_eq_true, Bool.not_eq_true', decide_eq_true_iff] at hpush
    have hfull : ¬(storeContents s).length = storeBufferSize := fun hlen =>
      Bool.false_ne_true (hpush.1.2.symm.trans ((stbufExlsuFull_iff h).2 hlen))
    rw [storeContents, length_contents] at hfull
    exact slot_wptr_ne h (Nat.lt_of_le_of_ne h.fits hfull) hk hpush.2
  rw [stbufBufferNext, hpush, if_neg Bool.false_ne_true, readyToCommit_slot h hk, markItem]

theorem contents_marked (h : StoreRing s) :
    contents storeBufferSize (stbufBufferNext s input) s.rptr s.wptr =
      (storeContents s).map (markItem input.commitFeedbackPack) :=
  contents_map fun _ hk => stbufBufferNext_slot h hk

/-- The number of stores that leave for the bus. -/
def leaves (s : StoreBufferState) (fb : CommitFeedbackPack) : Nat :=
  if stbufBusWriteReq s fb then 1 else 0

def stbufTakes (s : StoreBufferState) (input : StoreBufferInput) : Bool :=
  input.exlsuStbufPush && !stbufExlsuFull s

theorem stbufRptrNext_eq (h : StoreRing s) :
    stbufRptrNext s fb = (s.rptr + leaves s fb) % (2 * storeBufferSize) := by
  have hsame : s.rptr = (s.rptr + 0) % (2 * storeBufferSize) :=
    (Nat.mod_eq_of_lt h.rptr_lt).symm
  unfold stbufRptrNext leaves
  cases hempty : stbufAllEmpty s with
  | true =>
      have hno : stbufBusWriteReq s fb = false := by simp [stbufBusWriteReq, hempty]
      simpa [hno] using hsame
  | false =>
      cases stbufBusWriteReq s fb with
      | false => exact hsame
      | true => rfl

theorem leaves_le (fb : CommitFeedbackPack) (h : StoreRing s) : leaves s fb ≤ (storeContents s).length := by
  unfold leaves
  split
  · obtain ⟨_, _, _, hcontents, _⟩ := (stbufBusWriteReq_iff h).1 ‹_›
    simp [hcontents]
  · exact Nat.zero_le _

/-! ## One cycle -/

section Keep

theorem stbufWptrNext_keep (hflush : input.commitFeedbackPack.flushing = false) :
    stbufWptrNext s input =
      if stbufTakes s input then (s.wptr + 1) % (2 * storeBufferSize) else s.wptr := by
  unfold stbufWptrNext stbufTakes
  rw [hflush]
  cases stbufExlsuFull s <;> cases input.exlsuStbufPush <;> rfl

variable (h : StoreRing s) (hflush : input.commitFeedbackPack.flushing = false)
include h hflush

/-- The ring after the push and before a store leaves. -/
theorem contents_pushed :
    WellFormed storeBufferSize s.rptr (stbufWptrNext s input) ∧
      contents storeBufferSize (stbufBufferNext s input) s.rptr (stbufWptrNext s input) =
        (storeContents s).map (markItem input.commitFeedbackPack) ++
          (if stbufTakes s input then [stbufNewItem input] else []) := by
  rw [stbufWptrNext_keep hflush]
  cases htakes : stbufTakes s input with
  | false => exact ⟨h, by simpa using contents_marked h⟩
  | true =>
      have hpush := htakes
      rw [stbufTakes, Bool.and_eq_true, Bool.not_eq_true'] at hpush
      have hfull : ¬(storeContents s).length = storeBufferSize := fun hlen =>
        Bool.false_ne_true (hpush.2.symm.trans ((stbufExlsuFull_iff h).2 hlen))
      rw [storeContents, length_contents] at hfull
      have hfit := Nat.lt_of_le_of_ne h.fits hfull
      have hnew : stbufBufferNext s input (slot storeBufferSize s.wptr) = stbufNewItem input := by
        simp [stbufBufferNext, hpush]
      refine ⟨⟨h.rptr_lt, Nat.mod_lt _ (by decide), ?_⟩, ?_⟩
      · simp only [if_true]
        rw [occupancy_push h.rptr_lt h.wptr_lt (by omega)]
        omega
      · simp only [if_true]
        rw [contents_push h hfit, contents_marked h, hnew]

theorem storeContents_keep :
    storeContents (storeBufferNext s input) =
      ((storeContents s).map (markItem input.commitFeedbackPack) ++
        (if stbufTakes s input then [stbufNewItem input] else [])).drop
          (leaves s input.commitFeedbackPack) := by
  obtain ⟨hwf, hcontents⟩ := contents_pushed h hflush
  have hle := leaves_le input.commitFeedbackPack h
  show contents storeBufferSize (stbufBufferNext s input)
    (stbufRptrNext s input.commitFeedbackPack) (stbufWptrNext s input) = _
  rw [stbufRptrNext_eq h, contents_pop hwf, hcontents]
  rw [← length_contents storeBufferSize (stbufBufferNext s input), hcontents,
    List.length_append, List.length_map]
  omega

theorem storeRing_keep : StoreRing (storeBufferNext s input) := by
  obtain ⟨hwf, hcontents⟩ := contents_pushed h hflush
  have hle : leaves s input.commitFeedbackPack ≤
      occupancy storeBufferSize s.rptr (stbufWptrNext s input) := by
    have := leaves_le input.commitFeedbackPack h
    rw [← length_contents storeBufferSize (stbufBufferNext s input), hcontents,
      List.length_append, List.length_map]
    omega
  show WellFormed storeBufferSize (stbufRptrNext s input.commitFeedbackPack)
    (stbufWptrNext s input)
  rw [stbufRptrNext_eq h]
  refine ⟨Nat.mod_lt _ (by decide), hwf.wptr_lt, ?_⟩
  rw [occupancy_pop hwf.rptr_lt hwf.wptr_lt hle]
  exact Nat.le_trans (Nat.sub_le _ _) hwf.fits

end Keep

theorem takeWhile_eq_take {α : Type} {p : α → Bool} {l : List α} {i : Nat} (hi : i < l.length)
    (hbefore : ∀ j, ∀ hj : j < l.length, j < i → p l[j] = true) (hat : p l[i] = false) :
    l.takeWhile p = l.take i := by
  have hall : ∀ x ∈ l.take i, p x = true := by
    intro x hx
    obtain ⟨j, hj, rfl⟩ := List.mem_iff_getElem.1 hx
    rw [List.length_take] at hj
    rw [List.getElem_take]
    exact hbefore j (by omega) (by omega)
  conv_lhs => rw [← List.take_append_drop i l, List.drop_eq_getElem_cons hi]
  rw [List.takeWhile_append_of_pos hall, List.takeWhile_cons, hat]
  simp

theorem leaves_flush (hflush : fb.flushing = true) : leaves s fb = 0 := by
  simp [leaves, stbufBusWriteReq, hflush]

section Flush

variable (h : StoreRing s) (hflush : input.commitFeedbackPack.flushing = true)
include h hflush

/-- The cut falls in front of the first entry that is neither marked nor being marked. -/
theorem flushCommitCmp_eq {k : Nat} (hk : k < storeBufferSize) :
    flushCommitCmp s input.commitFeedbackPack k = true ↔
      ∃ hlt : k < ((storeContents s).map (markItem input.commitFeedbackPack)).length,
        ((storeContents s).map (markItem input.commitFeedbackPack))[k].committed = false := by
  have henable : input.commitFeedbackPack.enable = true := (Bool.and_eq_true_iff.1 hflush).1
  have hlen : ((storeContents s).map (markItem input.commitFeedbackPack)).length =
      occupancy storeBufferSize s.rptr s.wptr := by
    rw [List.length_map, storeContents, length_contents]
  have hcommitted : ∀ hlt : k < occupancy storeBufferSize s.rptr s.wptr,
      flushCommitCmp s input.commitFeedbackPack k =
        !(markItem input.commitFeedbackPack
          (s.buffer (slot storeBufferSize (s.rptr + k)))).committed := by
    intro hlt
    have hlive : ptrInRange storeBufferSize (flushCurPtr s k) s.rptr s.wptr = true :=
      (ptrInRange_iff h (slot_lt (by decide))).2 (live_slot hlt)
    rw [flushCommitCmp, hlive, henable, flushCurPtr, readyToCommit_slot h hlt, markItem, henable]
    cases namedBy input.commitFeedbackPack (s.buffer (slot storeBufferSize (s.rptr + k))) <;>
      simp
  constructor
  · intro hcmp
    have hlive := hcmp
    simp only [flushCommitCmp, Bool.and_eq_true] at hlive
    obtain ⟨k', hk', heq⟩ := (ptrInRange_iff h (slot_lt (by decide))).1 hlive.1.1
    have hkk : k = k' := slot_add_inj hk (Nat.lt_of_lt_of_le hk' h.fits) heq
    subst hkk
    refine ⟨hlen ▸ hk', ?_⟩
    rw [hcommitted hk', Bool.not_eq_true'] at hcmp
    simpa [storeContents, contents] using hcmp
  · rintro ⟨hlt, hno⟩
    rw [hlen] at hlt
    rw [hcommitted hlt, Bool.not_eq_true']
    simpa [storeContents, contents] using hno

theorem flushNextWptr_cut :
    ∃ k, k ≤ occupancy storeBufferSize s.rptr s.wptr ∧
      flushNextWptr s input.commitFeedbackPack = (s.rptr + k) % (2 * storeBufferSize) ∧
      ((storeContents s).map (markItem input.commitFeedbackPack)).takeWhile (·.committed) =
        ((storeContents s).map (markItem input.commitFeedbackPack)).take k := by
  have hlen : ((storeContents s).map (markItem input.commitFeedbackPack)).length =
      occupancy storeBufferSize s.rptr s.wptr := by
    rw [List.length_map, storeContents, length_contents]
  unfold flushNextWptr
  cases hany : anyBit storeBufferSize (flushCommitCmp s input.commitFeedbackPack) with
  | true =>
      obtain ⟨k, hk, hbit, hbefore⟩ := anyBit_first hany
      obtain ⟨hlt, hno⟩ := (flushCommitCmp_eq h hflush hk).1 hbit
      refine ⟨k, by omega, ?_, takeWhile_eq_take hlt (fun j hj hjk => ?_) hno⟩
      · rw [if_pos rfl, flushCommitIndex, priorityFinderFirst_eq hk hbit hbefore]
      · have := h.fits
        by_contra hfalse
        have := (flushCommitCmp_eq h hflush (by omega)).2 ⟨hj, Bool.eq_false_iff.2 hfalse⟩
        exact Bool.false_ne_true ((hbefore j hjk).symm.trans this)
  | false =>
      refine ⟨_, Nat.le_refl _, ?_, ?_⟩
      · rw [if_neg Bool.false_ne_true]
        exact wptr_eq h
      · rw [List.take_of_length_le (Nat.le_of_eq hlen), List.takeWhile_eq_self_iff]
        intro x hx
        obtain ⟨j, hj, rfl⟩ := List.mem_iff_getElem.1 hx
        have hfits := h.fits
        by_contra hfalse
        have hcmp := (flushCommitCmp_eq h hflush (by omega)).2 ⟨hj, Bool.eq_false_iff.2 hfalse⟩
        exact Bool.false_ne_true ((anyBit_eq_false_iff.1 hany j (by omega)).symm.trans hcmp)

theorem storeContents_flush :
    storeContents (storeBufferNext s input) =
      ((storeContents s).map (markItem input.commitFeedbackPack)).takeWhile (·.committed) := by
  obtain ⟨k, hk, hwptr, htake⟩ := flushNextWptr_cut h hflush
  have hsize : 0 < storeBufferSize := by decide
  have hfits := h.fits
  show contents storeBufferSize (stbufBufferNext s input)
    (stbufRptrNext s input.commitFeedbackPack) (stbufWptrNext s input) = _
  rw [stbufRptrNext_eq h, leaves_flush hflush, Nat.add_zero, Nat.mod_eq_of_lt h.rptr_lt,
    stbufWptrNext, if_pos hflush, hwptr, contents_cut h.rptr_lt hk (by omega),
    contents_marked h, htake]

theorem storeRing_flush : StoreRing (storeBufferNext s input) := by
  obtain ⟨k, hk, hwptr, _⟩ := flushNextWptr_cut h hflush
  have hsize : 0 < storeBufferSize := by decide
  have hfits := h.fits
  show WellFormed storeBufferSize (stbufRptrNext s input.commitFeedbackPack)
    (stbufWptrNext s input)
  rw [stbufRptrNext_eq h, leaves_flush hflush, Nat.add_zero, Nat.mod_eq_of_lt h.rptr_lt,
    stbufWptrNext, if_pos hflush, hwptr]
  refine ⟨h.rptr_lt, Nat.mod_lt _ (by decide), ?_⟩
  rw [occupancy_cut h.rptr_lt (by omega)]
  omega

end Flush

end StoreQueue

end DreamCore.Proofs
