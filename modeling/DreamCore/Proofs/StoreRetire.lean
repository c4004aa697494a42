import DreamCore.Proofs.StoreFlow

/-!
# The buffer when stores retire

Commit marks the stores of the entries that retire, which are the oldest pending
ones.  A flushing cycle keeps them and drops the other pending stores; any other
cycle takes the executed store in and lets the oldest committed one leave.
-/

namespace DreamCore.Proofs

open DreamCore.Model DreamCore.Rtl

variable {s : LoadStoreState} {input : LoadStoreInput}

/-- The number of entries that retire. -/
abbrev retires (s : LoadStoreState) (input : LoadStoreInput) : Nat :=
  popCount s.commit (loadStoreCommitInput s input)

theorem loadStore_view (input : LoadStoreInput) (h : RobSound s.rob) :
    Shows (loadStoreCommitInput s input).rob s.rob.toIdealRob := h.shows input.stale

def itemWrite (x : StoreBufferItem) : StoreWrite := ⟨x.addr, x.size, x.data⟩

@[simp] theorem itemWrite_markItem (fb : CommitFeedbackPack) (x : StoreBufferItem) :
    itemWrite (markItem fb x) = itemWrite x := by
  unfold markItem
  split <;> rfl

/-! ## The buffer in the normal state -/

theorem storeContents_split (s : LoadStoreState) :
    storeContents s.stbuf = committedStores s ++ pendingStores s :=
  List.takeWhile_append_dropWhile.symm

theorem committedStores_committed {x : StoreBufferItem} (hx : x ∈ committedStores s) :
    x.committed = true := List.mem_takeWhile_imp hx

theorem storeItem_some {p : IssueExecutePack} {x : StoreBufferItem}
    (h : storeItem p = some x) :
    x.enable = true ∧ x.committed = false ∧ x.robId = p.robId ∧ p.hasException = false := by
  unfold storeItem at h
  split at h
  · rename_i hstore
    simp only [Bool.and_eq_true, Bool.not_eq_true'] at hstore
    cases h
    exact ⟨rfl, rfl, rfl, hstore.2⟩
  · cases h

theorem mem_inFlightStores {entries : List (Entry LsuInFlight)} {x : StoreBufferItem}
    (hx : x ∈ inFlightStores entries) : ∃ k, ∃ hk : k < entries.length, ∃ p,
      entries[k].tag.issued = some p ∧ storeItem p = some x := by
  obtain ⟨e, he, hstore⟩ := List.mem_filterMap.1 hx
  obtain ⟨k, hk, rfl⟩ := List.mem_iff_getElem.1 he
  obtain ⟨p, hissued, hitem⟩ := Option.bind_eq_some_iff.1 hstore
  exact ⟨k, hk, p, hissued, hitem⟩

theorem inFlightStores_split (entries : List (Entry LsuInFlight)) (n : Nat) :
    inFlightStores entries =
      inFlightStores (entries.take n) ++ inFlightStores (entries.drop n) := by
  rw [inFlightStores, inFlightStores, inFlightStores, ← List.filterMap_append,
    List.take_append_drop]

theorem inFlightStores_uncommitted {entries : List (Entry LsuInFlight)} {x : StoreBufferItem}
    (hx : x ∈ inFlightStores entries) : x.committed = false := by
  obtain ⟨_, _, _, _, hitem⟩ := mem_inFlightStores hx
  exact (storeItem_some hitem).2.1

section Normal

variable (h : Flowing s) (hstate : s.commit.curState = .normal)
include h

theorem popped_finished {k : Nat} (hk : k < retires s input) :
    ∃ hlt : k < s.rob.entries.length, s.rob.entries[k].item.finish = true ∧
      s.rob.entries[k].item.hasException = false := by
  obtain ⟨hlt, _, hfinish, hexc, _⟩ :=
    popped_spec (loadStore_view input h.rob) hk
  exact ⟨hlt, hfinish, hexc⟩

theorem unfinished_stays {k : Nat} {hk : k < s.rob.entries.length}
    (hfinish : s.rob.entries[k].item.finish = false) : retires s input ≤ k := by
  by_contra hlt
  obtain ⟨_, hdone, _⟩ := popped_finished h (by omega : k < retires s input)
  exact Bool.false_ne_true (hfinish.symm.trans hdone)

variable (input) in
/-- The store in the FIFO belongs to an entry that stays. -/
theorem fifoStores_stay : ∃ rest, inFlightStores (s.rob.entries.drop (retires s input)) =
    rest ++ fifoStores s := by
  unfold fifoStores
  cases hdata : s.lsuFifo.hasData with
  | false => exact ⟨_, (List.append_nil _).symm⟩
  | true =>
      obtain ⟨k, hk, hissued, hfinish⟩ := h.fifo hdata
      cases hitem : storeItem s.lsuFifo.data with
      | none => exact ⟨_, (List.append_nil _).symm⟩
      | some x =>
          have hmem : x ∈ inFlightStores (s.rob.entries.drop (retires s input)) := by
            refine List.mem_filterMap.2 ⟨s.rob.entries[k], ?_, ?_⟩
            · have hle : retires s input ≤ k := unfinished_stays h hfinish
              rw [List.mem_iff_getElem]
              refine ⟨k - retires s input, by rw [List.length_drop]; omega, ?_⟩
              rw [List.getElem_drop]
              congr 1
              omega
            · simp [entryStore, hissued, hitem]
          have hrest := (List.dropLast_append_getLast (List.ne_nil_of_mem hmem)).symm
          have hlast := h.stores
          rw [inFlightStores_split _ (retires s input), hrest, fifoStores, hdata, hitem,
            ← List.append_assoc] at hlast
          obtain ⟨_, hxy⟩ := List.append_inj' hlast rfl
          exact ⟨_, hxy ▸ hrest⟩

variable (input) in
/-- The pending part of the buffer: the stores that retire now, then the rest. -/
theorem pendingStores_split : ∃ rest,
    pendingStores s = inFlightStores (s.rob.entries.take (retires s input)) ++ rest ∧
      inFlightStores (s.rob.entries.drop (retires s input)) = rest ++ fifoStores s := by
  obtain ⟨rest, hrest⟩ := fifoStores_stay input h
  refine ⟨rest, ?_, hrest⟩
  have hstores := h.stores
  rw [inFlightStores_split _ (retires s input), hrest, ← List.append_assoc] at hstores
  exact List.append_cancel_right hstores

include hstate

/-- Commit marks exactly the stores of the entries that retire. -/
theorem namedBy_iff {k : Nat} (hk : k < s.rob.entries.length) {p : IssueExecutePack}
    {x : StoreBufferItem} (hissued : s.rob.entries[k].tag.issued = some p)
    (hitem : storeItem p = some x) :
    namedBy (loadStoreFeedback s input) x = true ↔ k < retires s input := by
  obtain ⟨_, _, hid, hexc⟩ := storeItem_some hitem
  obtain ⟨hlsu, hrob, _⟩ := (h.entries k hk).issued p hissued
  have hclean : s.rob.entries[k].item.finish = true →
      s.rob.entries[k].item.hasException = false := by
    intro hfinish
    obtain ⟨p', hissued', hexc'⟩ := (h.entries k hk).finished hfinish hlsu
    rw [hissued, Option.some.injEq] at hissued'
    rw [hexc', ← hissued', hexc]
  rw [← reported_iff (loadStore_view input h.rob) hstate hk hclean, namedBy, anyBit_iff]
  simp only [Bool.and_eq_true, decide_eq_true_eq, hid, hrob]
  rfl

theorem feedback_enable (hpos : 0 < s.rob.entries.length) :
    (loadStoreFeedback s input).enable = true := by
  have hempty := empty_of_length (loadStore_view input h.rob) hpos
  simp only [loadStoreFeedback, commitFeedbackPack, hstate, normalFeedbackPack, hempty,
    Bool.not_false]

theorem markItem_retiring {x : StoreBufferItem}
    (hx : x ∈ inFlightStores (s.rob.entries.take (retires s input))) :
    (markItem (loadStoreFeedback s input) x).committed = true := by
  obtain ⟨k, hk, p, hissued, hitem⟩ := mem_inFlightStores hx
  rw [List.length_take] at hk
  rw [List.getElem_take] at hissued
  have hnamed := (namedBy_iff h hstate (by omega) hissued hitem).2 (by omega : k < retires s input)
  have henable : (loadStoreFeedback s input).enable = true := feedback_enable h hstate (by omega)
  simp [markItem, henable, hnamed]

theorem markItem_staying {x : StoreBufferItem}
    (hx : x ∈ inFlightStores (s.rob.entries.drop (retires s input))) :
    markItem (loadStoreFeedback s input) x = x := by
  obtain ⟨k, hk, p, hissued, hitem⟩ := mem_inFlightStores hx
  rw [List.length_drop] at hk
  rw [List.getElem_drop] at hissued
  have hnot : namedBy (loadStoreFeedback s input) x = false := by
    rw [Bool.eq_false_iff]
    intro hnamed
    have := (namedBy_iff h hstate (by omega) hissued hitem).1 hnamed
    omega
  simp [markItem, hnot]

/-- The buffer after marking: what was committed, what retires now, what is pending. -/
theorem marked_contents {rest : List StoreBufferItem}
    (hpending : pendingStores s =
      inFlightStores (s.rob.entries.take (retires s input)) ++ rest)
    (hrest : inFlightStores (s.rob.entries.drop (retires s input)) = rest ++ fifoStores s) :
    (storeContents s.stbuf).map (markItem (loadStoreFeedback s input)) =
      committedStores s ++ (inFlightStores (s.rob.entries.take (retires s input))).map
        (markItem (loadStoreFeedback s input)) ++ rest := by
  have hcommitted : (committedStores s).map (markItem (loadStoreFeedback s input)) =
      committedStores s :=
    (List.map_congr_left fun x hx =>
      markItem_of_committed (committedStores_committed hx)).trans (List.map_id' _)
  have hstay : rest.map (markItem (loadStoreFeedback s input)) = rest :=
    (List.map_congr_left fun x hx =>
      markItem_staying h hstate (hrest ▸ List.mem_append_left _ hx)).trans (List.map_id' _)
  rw [storeContents_split, hpending, List.map_append, List.map_append, hcommitted, hstay,
    List.append_assoc]

omit hstate in
/-- What retires is what the retiring entries put into the buffer. -/
theorem retiredStores_eq : retiredStores s input =
    (inFlightStores (s.rob.entries.take (retires s input))).map itemWrite := by
  rw [retiredStores, inFlightStores, List.map_filterMap]
  refine List.filterMap_congr fun e he => ?_
  obtain ⟨k, hk, rfl⟩ := List.mem_iff_getElem.1 he
  rw [List.getElem_take]
  have hlt : k < retires s input := Nat.lt_of_lt_of_le hk (List.length_take_le _ _)
  obtain ⟨hlt, hfinish, hexc⟩ := popped_finished h hlt
  have hok := h.entries k hlt
  by_cases hlsu : s.rob.entries[k].tag.op.opUnit = .lsu
  · obtain ⟨p, hissued, hpack⟩ := hok.finished hfinish hlsu
    obtain ⟨_, _, henable, hvalid, hsub⟩ := hok.issued p hissued
    have hclean : p.hasException = false := hpack ▸ hexc
    simp only [entryWrite, isStore, entryStore, storeItem, hissued, hlsu, henable, hvalid, hsub,
      hclean, Option.bind_some, Option.getD_some, decide_true, Bool.and_true, Bool.true_and,
      Bool.not_false]
    split
    · simp only [Option.map_some, itemWrite, packWrite, hsub]
    · rfl
  · have hnone : s.rob.entries[k].tag.issued = none := by
      rw [Option.eq_none_iff_forall_ne_some]
      exact fun p hp => hlsu (hok.issued p hp).1
    simp [entryWrite, isStore, entryStore, hnone, hlsu]

end Normal

/-! ## One cycle of the buffer -/

theorem busWrites_eq (hring : StoreRing s.stbuf) :
    busWrites s input =
      ((storeContents s.stbuf).take (leaves s.stbuf (loadStoreFeedback s input))).map itemWrite := by
  unfold busWrites leaves
  split
  · obtain ⟨_, x, rest, hcontents, _⟩ := (stbufBusWriteReq_iff hring).1 ‹_›
    have hcur := stbufCurItem_eq (s := s.stbuf) (by simp [hcontents])
    rw [hcontents, List.head?_cons, Option.some.injEq] at hcur
    simp [hcontents, itemWrite, hcur]
  · simp

/-- Only a committed store leaves. -/
theorem leaves_committed (hring : StoreRing s.stbuf) :
    leaves s.stbuf (loadStoreFeedback s input) ≤ (committedStores s).length := by
  unfold leaves
  split
  · obtain ⟨_, x, rest, hcontents, _, hcommitted⟩ := (stbufBusWriteReq_iff hring).1 ‹_›
    simp [committedStores, hcontents, hcommitted]
  · exact Nat.zero_le _

theorem busWrites_committed (hring : StoreRing s.stbuf) : busWrites s input =
    ((committedStores s).take (leaves s.stbuf (loadStoreFeedback s input))).map itemWrite := by
  rw [busWrites_eq hring, storeContents_split, List.take_append_of_le_length
    (leaves_committed hring)]

theorem stbuf_feedback : (loadStoreStbufInput s input).commitFeedbackPack =
    loadStoreFeedback s input := rfl

/-- The store handed to the buffer in this cycle. -/
def executedStore (s : LoadStoreState) (input : LoadStoreInput) : List StoreBufferItem :=
  if stbufTakes s.stbuf (loadStoreStbufInput s input) then
    [stbufNewItem (loadStoreStbufInput s input)]
  else []

theorem executedStore_uncommitted {x : StoreBufferItem} (hx : x ∈ executedStore s input) :
    x.committed = false ∧ x.enable = true := by
  unfold executedStore at hx
  split at hx
  · rw [List.mem_singleton.1 hx]
    exact ⟨rfl, rfl⟩
  · simp at hx

section Cycle

variable (hring : StoreRing s.stbuf) (h : Flowing s) (hstate : s.commit.curState = .normal)
include hring h hstate

omit hring in
variable (input) in
theorem retiring_marked : ∀ x ∈ committedStores s ++
    (inFlightStores (s.rob.entries.take (retires s input))).map
      (markItem (loadStoreFeedback s input)), x.committed = true := by
  intro x hx
  rcases List.mem_append.1 hx with hold | hnew
  · exact committedStores_committed hold
  · obtain ⟨y, hy, rfl⟩ := List.mem_map.1 hnew
    exact markItem_retiring h hstate hy

theorem stores_flush (hflush : (loadStoreFeedback s input).flushing = true) :
    committedStores (loadStoreNext s input) = committedStores s ++
        (inFlightStores (s.rob.entries.take (retires s input))).map
          (markItem (loadStoreFeedback s input)) ∧
      pendingStores (loadStoreNext s input) = [] := by
  obtain ⟨rest, hpending, hrest⟩ := pendingStores_split input h
  have hmarked := retiring_marked input h hstate
  have huncommitted : ∀ x ∈ rest, x.committed = false := fun x hx =>
    inFlightStores_uncommitted (hrest ▸ List.mem_append_left _ hx)
  have hcontents : storeContents (loadStoreNext s input).stbuf = committedStores s ++
      (inFlightStores (s.rob.entries.take (retires s input))).map
        (markItem (loadStoreFeedback s input)) := by
    have hcut : storeContents (loadStoreNext s input).stbuf = _ :=
      storeContents_flush hring hflush
    rw [stbuf_feedback, marked_contents h hstate hpending hrest,
      (split_unique hmarked huncommitted).1] at hcut
    exact hcut
  rw [committedStores, pendingStores, hcontents]
  have hsplit := split_unique hmarked (List.forall_mem_nil _)
  rwa [List.append_nil] at hsplit

variable (input) in
theorem stores_keep (hflush : (loadStoreFeedback s input).flushing = false) :
    ∃ rest, inFlightStores (s.rob.entries.drop (retires s input)) = rest ++ fifoStores s ∧
      committedStores (loadStoreNext s input) =
        (committedStores s).drop (leaves s.stbuf (loadStoreFeedback s input)) ++
          (inFlightStores (s.rob.entries.take (retires s input))).map
            (markItem (loadStoreFeedback s input)) ∧
      pendingStores (loadStoreNext s input) = rest ++ executedStore s input := by
  obtain ⟨rest, hpending, hrest⟩ := pendingStores_split input h
  refine ⟨rest, hrest, ?_⟩
  have hmarked := retiring_marked input h hstate
  have huncommitted : ∀ x ∈ rest ++ executedStore s input, x.committed = false := by
    intro x hx
    rcases List.mem_append.1 hx with hold | hnew
    · exact inFlightStores_uncommitted (hrest ▸ List.mem_append_left _ hold)
    · exact (executedStore_uncommitted hnew).1
  have hcontents : storeContents (loadStoreNext s input).stbuf = _ :=
    storeContents_keep hring hflush
  rw [stbuf_feedback, marked_contents h hstate hpending hrest, List.append_assoc,
    List.append_assoc, List.drop_append_of_le_length (leaves_committed hring)] at hcontents
  have hcontents' : storeContents (loadStoreNext s input).stbuf =
      (committedStores s).drop (leaves s.stbuf (loadStoreFeedback s input)) ++
        (inFlightStores (s.rob.entries.take (retires s input))).map
          (markItem (loadStoreFeedback s input)) ++ (rest ++ executedStore s input) := by
    rw [List.append_assoc]
    exact hcontents
  rw [committedStores, pendingStores, hcontents']
  refine split_unique (fun x hx => hmarked x ?_) huncommitted
  rcases List.mem_append.1 hx with hold | hnew
  · exact List.mem_append_left _ (List.mem_of_mem_drop hold)
  · exact List.mem_append_right _ hnew

/-- What was committed or retires has left or is committed. -/
theorem stores_conserved : (committedStores s).map itemWrite ++ retiredStores s input =
    busWrites s input ++ (committedStores (loadStoreNext s input)).map itemWrite := by
  have hwrite : ∀ l : List StoreBufferItem,
      (l.map (markItem (loadStoreFeedback s input))).map itemWrite = l.map itemWrite := by
    intro l
    rw [List.map_map]
    exact List.map_congr_left fun x _ => itemWrite_markItem _ x
  rw [retiredStores_eq h, busWrites_committed hring]
  cases hflush : (loadStoreFeedback s input).flushing with
  | true =>
      rw [(stores_flush hring h hstate hflush).1, leaves_flush hflush, List.map_append, hwrite]
      rfl
  | false =>
      obtain ⟨_, _, hcommitted, _⟩ := stores_keep input hring h hstate hflush
      rw [hcommitted, List.map_append, hwrite, ← List.append_assoc]
      congr 1
      rw [← List.map_append, List.take_append_drop]

end Cycle

end DreamCore.Proofs
