import DreamCore.Rtl.Rat
import DreamCore.Lib.Renaming

/-!
# The alias table as a map with pending bindings

`RatSound` relates the three bit vectors of the table to a register map and the
bindings of the instructions in flight.  One lemma for each thing a cycle can do
to the table: retire and rename together, restore a checkpoint, undo one entry.
-/

namespace DreamCore.Proofs

open DreamCore.Renaming DreamCore.Rtl

/-- The renamed architectural registers, 1 to 31. -/
def archRegs : List Nat := List.range' 1 31

theorem mem_archRegs {a : Nat} : a ∈ archRegs ↔ 1 ≤ a ∧ a < archRegNum := by
  rw [archRegs, List.mem_range'_1]

theorem archRegs_nodup : archRegs.Nodup := List.nodup_range'

abbrev RegMap := Nat → Nat

abbrev RegBinding := Binding Nat Nat

def RatSound (s : RatState) (m : RegMap) (bs : List RegBinding) : Prop :=
  Sound archRegs s.mapTable (fun p => s.mapValid p = true) (fun p => s.mapVisible p = true) m bs

/-- Only the rows of the table are ever in use, and no name is mapped outside 1 to 31. -/
structure RatBounded (s : RatState) (m : RegMap) : Prop where
  row_lt : ∀ p, s.mapValid p = true → p < phyRegNum
  outside : ∀ a, a ∉ archRegs → m a = 0

theorem ratReset_sound : RatSound ratReset (fun a => if a ∈ archRegs then a else 0) [] := by
  have hmap : archRegs.map (fun a => if a ∈ archRegs then a else 0) = archRegs := by
    rw [List.map_congr_left fun a ha => if_pos ha, List.map_id']
  have hreset : ∀ p, isResetMapping p = true ↔ p ∈ archRegs := by
    simp [isResetMapping, mem_archRegs]
  refine ⟨?_, by simp, fun p => ?_, fun p => ?_, fun a ha => ?_, by simp⟩
  · simpa [allocated, hmap] using archRegs_nodup
  · simpa [allocated, hmap, ratReset] using hreset p
  · simpa [hmap, ratReset] using hreset p
  · simp [ratReset, if_pos ha, (hreset a).2 ha]

theorem ratReset_bounded : RatBounded ratReset (fun a => if a ∈ archRegs then a else 0) := by
  refine ⟨fun p hp => ?_, fun a ha => if_neg ha⟩
  have hlt : p < archRegNum := by
    have : isResetMapping p = true := hp
    simp only [isResetMapping, Bool.and_eq_true, decide_eq_true_eq] at this
    exact this.2
  simp only [archRegNum, phyRegNum] at *
  omega

/-! ## Lookup -/

/-- The associative lookup returns the current map. -/
theorem ratReadPhyId_eq {s : RatState} {m : RegMap} {bs : List RegBinding}
    (h : RatSound s m bs) (hb : RatBounded s m) : ratReadPhyId s = bindAll m bs := by
  have hvalid : ∀ {p}, s.mapVisible p = true → s.mapValid p = true :=
    fun hp => h.valid_of_visible archRegs_nodup hp
  funext a
  by_cases ha : a ∈ archRegs
  · refine parallelFinder_unique (hb.row_lt _ (hvalid (h.visible_current ha))) fun p _ => ?_
    rw [← h.lookup_iff ha]
    simp only [camArchIdCmp, Bool.and_eq_true, decide_eq_true_eq]
    exact ⟨fun ⟨⟨_, hvis⟩, htable⟩ => ⟨hvis, htable⟩,
      fun ⟨hvis, htable⟩ => ⟨⟨hvalid hvis, hvis⟩, htable⟩⟩
  · rw [bindAll_of_not_mem h.arch_mem ha, hb.outside a ha]
    refine parallelFinder_none fun p _ => ?_
    rw [Bool.eq_false_iff]
    intro hcmp
    simp only [camArchIdCmp, Bool.and_eq_true, decide_eq_true_eq] at hcmp
    exact ha (hcmp.2 ▸ h.table_visible hcmp.1.2)

/-! ## The free list -/

/-- The scan finds the first free rows, in increasing order, at most four. -/
theorem newPhyIdTemp_spec (mapValid : Nat → Bool) (i : Nat) :
    (newPhyIdTemp mapValid i).2 = min renameWidth (countOne (i + 1) fun p => !mapValid p) ∧
      (∀ k, k < (newPhyIdTemp mapValid i).2 →
        (newPhyIdTemp mapValid i).1 k ≤ i ∧ mapValid ((newPhyIdTemp mapValid i).1 k) = false) ∧
      ∀ j k, j < k → k < (newPhyIdTemp mapValid i).2 →
        (newPhyIdTemp mapValid i).1 j < (newPhyIdTemp mapValid i).1 k := by
  induction i with
  | zero =>
      cases hv : mapValid 0 <;> simp [newPhyIdTemp, countOne, hv]
      omega
  | succ i ih =>
      rw [newPhyIdTemp]
      generalize newPhyIdTemp mapValid i = found at ih ⊢
      obtain ⟨ids, count⟩ := found
      obtain ⟨hcount, hfree, hmono⟩ := ih
      dsimp only at hcount hfree hmono ⊢
      split
      · rename_i hnew
        simp only [Bool.and_eq_true, Bool.not_eq_true', decide_eq_true_eq] at hnew
        dsimp only
        refine ⟨?_, fun k hk => ?_, fun j k hjk hk => ?_⟩
        · rw [countOne, hnew.1]
          simp only [renameWidth, Bool.not_false, Bool.toNat_true] at *
          omega
        · by_cases heq : k = count
          · rw [if_pos heq]
            exact ⟨Nat.le_refl _, hnew.1⟩
          · rw [if_neg heq]
            have := hfree k (by omega)
            exact ⟨by omega, this.2⟩
        · rw [if_neg (by omega : j ≠ count)]
          by_cases heq : k = count
          · rw [if_pos heq]
            have := (hfree j (by omega)).1
            omega
          · rw [if_neg heq]
            exact hmono j k hjk (by omega)
      · rename_i hold
        dsimp only
        refine ⟨?_, fun k hk => ⟨by have := (hfree k hk).1; omega, (hfree k hk).2⟩, hmono⟩
        rw [countOne]
        cases hv : mapValid (i + 1) with
        | true => simpa [hv] using hcount
        | false =>
            simp only [hv, Bool.not_false, Bool.true_and, decide_eq_true_eq] at hold
            simp only [renameWidth, Bool.not_false, Bool.toNat_true] at *
            omega

theorem ratNewPhyId_free {s : RatState} {k : Nat} (hk : ratRenameNewPhyIdValid s k = true) :
    ratRenameNewPhyId s k < phyRegNum ∧ s.mapValid (ratRenameNewPhyId s k) = false := by
  obtain ⟨_, hfree, _⟩ := newPhyIdTemp_spec s.mapValid (phyRegNum - 1)
  obtain ⟨hle, hinvalid⟩ := hfree k (of_decide_eq_true hk)
  exact ⟨by simp only [ratRenameNewPhyId, phyRegNum] at *; omega, hinvalid⟩

theorem ratNewPhyId_ne {s : RatState} {j k : Nat} (hjk : j < k)
    (hk : ratRenameNewPhyIdValid s k = true) : ratRenameNewPhyId s j ≠ ratRenameNewPhyId s k := by
  obtain ⟨_, _, hmono⟩ := newPhyIdTemp_spec s.mapValid (phyRegNum - 1)
  exact Nat.ne_of_lt (hmono j k hjk (of_decide_eq_true hk))

/-- With few enough bindings in flight every channel is offered a register. -/
theorem ratNewPhyIdValid_of_few {s : RatState} {m : RegMap} {bs : List RegBinding}
    (h : RatSound s m bs) (hfew : bs.length ≤ 93) {k : Nat} (hk : k < renameWidth) :
    ratRenameNewPhyIdValid s k = true := by
  obtain ⟨hcount, _, _⟩ := newPhyIdTemp_spec s.mapValid (phyRegNum - 1)
  have hused : countOne phyRegNum s.mapValid ≤ (allocated archRegs m bs).length :=
    countOne_le_length fun p _ hp => (h.valid_iff p).1 hp
  have hlength : (allocated archRegs m bs).length = 31 + bs.length := by
    simp [allocated, archRegs]
  have hsplit := countOne_add_not phyRegNum s.mapValid
  have hwidth : phyRegNum - 1 + 1 = phyRegNum := rfl
  rw [hwidth] at hcount
  have hfree : renameWidth ≤ countOne phyRegNum fun p => !s.mapValid p := by
    simp only [phyRegNum, renameWidth] at *
    omega
  rw [ratRenameNewPhyIdValid, hcount, Nat.min_eq_left hfree]
  exact decide_eq_true hk

/-! ## Updates -/

section Updates

variable {s : RatState} {input : RatInput} {m : RegMap} {bs cs : List RegBinding}

/-- Rename's requests, as the table sees them. -/
def ratRequest (input : RatInput) (j : Nat) : Bool :=
  input.renameRatPhyIdValid j && input.renameRatMap

def requestedBindings (input : RatInput) : List RegBinding :=
  channelBindings (ratRequest input) input.renameRatArchId input.renameRatPhyId renameWidth

theorem newArchIdValid_iff {p : Nat} :
    (newArchIdValid input p && input.renameRatMap) = true ↔
      ∃ j, j < renameWidth ∧ ratRequest input j = true ∧ p = input.renameRatPhyId j := by
  simp only [newArchIdValid, Bool.and_eq_true, anyBit_iff, newArchIdCmp, decide_eq_true_eq,
    ratRequest]
  constructor
  · rintro ⟨⟨j, hj, heq, hreq⟩, hmap⟩
    exact ⟨j, hj, ⟨hreq, hmap⟩, heq.symm⟩
  · rintro ⟨j, hj, ⟨hreq, hmap⟩, heq⟩
    exact ⟨⟨j, hj, heq.symm, hreq⟩, hmap⟩

theorem hidePhyId_iff {p : Nat} :
    (hidePhyId s input p && input.renameRatMap) = true ↔
      (∃ j, j < renameWidth ∧ ratRequest input j = true ∧
        input.renameRatArchId j = s.mapTable p) ∧ s.mapValid p = true ∧ s.mapVisible p = true := by
  simp only [hidePhyId, Bool.and_eq_true, anyBit_iff, hidePhyIdCmp, decide_eq_true_eq, ratRequest]
  constructor
  · rintro ⟨⟨j, hj, ⟨⟨heq, hvalid⟩, hvis⟩, hreq⟩, hmap⟩
    exact ⟨⟨j, hj, ⟨hreq, hmap⟩, heq⟩, hvalid, hvis⟩
  · rintro ⟨⟨j, hj, ⟨hreq, hmap⟩, heq⟩, hvalid, hvis⟩
    exact ⟨⟨j, hj, ⟨⟨heq, hvalid⟩, hvis⟩, hreq⟩, hmap⟩

theorem visibleEnable_iff {p : Nat} :
    (visibleEnable input p && input.renameRatMap) = true ↔
      ∃ j, j < renameWidth ∧ ratRequest input j = true ∧ p = input.renameRatPhyId j ∧
        ∀ k, j < k → k < renameWidth → ratRequest input k = true →
          input.renameRatArchId k ≠ input.renameRatArchId j := by
  simp only [visibleEnable, Bool.and_eq_true, anyBit_iff, visibleEnableCmp, decide_eq_true_eq,
    Bool.not_eq_true', anyBit_eq_false_iff, visibleChannelDisableCmp, ratRequest]
  constructor
  · rintro ⟨⟨j, hj, ⟨heq, hreq⟩, hlast⟩, hmap⟩
    refine ⟨j, hj, ⟨hreq, hmap⟩, heq.symm, fun k hk hk' hreqk harch => ?_⟩
    have := hlast k hk'
    simp [hk, harch, hreqk.1] at this
  · rintro ⟨j, hj, ⟨hreq, hmap⟩, heq, hlast⟩
    refine ⟨⟨j, hj, ⟨heq.symm, hreq⟩, fun k hk => ?_⟩, hmap⟩
    rw [Bool.eq_false_iff]
    intro hcmp
    simp only [Bool.and_eq_true, decide_eq_true_eq] at hcmp
    exact hlast k hcmp.1.1 hk ⟨hcmp.2, hmap⟩ hcmp.1.2.symm

/-- What rename may ask for: free rows, all different, for registers 1 to 31. -/
structure RequestsFresh (s : RatState) (input : RatInput) : Prop where
  row_lt : ∀ j, j < renameWidth → ratRequest input j = true →
    input.renameRatPhyId j < phyRegNum
  free : ∀ j, j < renameWidth → ratRequest input j = true →
    s.mapValid (input.renameRatPhyId j) = false
  distinct : ∀ i j, i < j → j < renameWidth → ratRequest input i = true →
    ratRequest input j = true → input.renameRatPhyId i ≠ input.renameRatPhyId j
  arch : ∀ j, j < renameWidth → ratRequest input j = true →
    input.renameRatArchId j ∈ archRegs

theorem newArchId_eq (hfresh : RequestsFresh s input) {j : Nat} (hj : j < renameWidth)
    (hreq : ratRequest input j = true) :
    newArchId input (input.renameRatPhyId j) = input.renameRatArchId j := by
  have hmap : input.renameRatMap = true := (Bool.and_eq_true_iff.1 hreq).2
  rw [newArchId, parallelFinder_unique hj fun i hi => ?_]
  simp only [newArchIdCmp, Bool.and_eq_true, decide_eq_true_eq]
  constructor
  · rintro ⟨heq, hvalid⟩
    have hreqi : ratRequest input i = true := by simp [ratRequest, hvalid, hmap]
    rcases Nat.lt_trichotomy i j with hlt | rfl | hgt
    · exact absurd heq (hfresh.distinct i j hlt hj hreqi hreq)
    · rfl
    · exact absurd heq.symm (hfresh.distinct j i hgt hi hreq hreqi)
  · rintro rfl
    exact ⟨rfl, (Bool.and_eq_true_iff.1 hreq).1⟩

/-- A normal cycle: the oldest bindings retire and rename's requests are bound. -/
theorem ratNext_retire_rename (h : RatSound s m (bs ++ cs))
    (hrestore : input.commitRatMapTableRestore = false)
    (hwalk : input.commitRatRestoreMap = false)
    (hrelease : ∀ p, (releasePhyIdValid input p && input.commitRatReleaseMap) = true ↔
      p ∈ displaced m bs)
    (hfresh : RequestsFresh s input) :
    RatSound (ratNext s input) (bindAll m bs) (cs ++ requestedBindings input) := by
  have hretired : Sound archRegs s.mapTable
      (fun p => s.mapValid p = true ∧ p ∉ displaced m bs) (fun p => s.mapVisible p = true)
      (bindAll m bs) cs :=
    h.retire archRegs_nodup fun p => Iff.rfl
  have hnew : ∀ p, p ∈ (requestedBindings input).map (·.phy) ↔
      (newArchIdValid input p && input.renameRatMap) = true := by
    intro p
    rw [newArchIdValid_iff, List.mem_map]
    constructor
    · rintro ⟨b, hb, rfl⟩
      obtain ⟨j, hj, hreq, rfl⟩ := mem_channelBindings.1 hb
      exact ⟨j, hj, hreq, rfl⟩
    · rintro ⟨j, hj, hreq, rfl⟩
      exact ⟨_, mem_channelBindings.2 ⟨j, hj, hreq, rfl⟩, rfl⟩
  have hnotNew : ∀ p, s.mapValid p = true → p ∉ (requestedBindings input).map (·.phy) := by
    intro p hp hmem
    obtain ⟨j, hj, hreq, rfl⟩ := newArchIdValid_iff.1 ((hnew p).1 hmem)
    exact Bool.false_ne_true ((hfresh.free j hj hreq).symm.trans hp)
  refine hretired.push ?_ (channelBindings_nodup hfresh.distinct) ?_ (fun p => ?_) (fun p => ?_)
    (fun p hp => ?_) (fun c hc => ?_)
  · intro c hc hvalid
    obtain ⟨j, hj, hreq, rfl⟩ := mem_channelBindings.1 hc
    exact Bool.false_ne_true ((hfresh.free j hj hreq).symm.trans hvalid.1)
  · intro c hc
    obtain ⟨j, hj, hreq, rfl⟩ := mem_channelBindings.1 hc
    exact hfresh.arch j hj hreq
  · rw [hnew, ← hrelease]
    have hclash : (newArchIdValid input p && input.renameRatMap) = true →
        (releasePhyIdValid input p && input.commitRatReleaseMap) = true → False := by
      intro hn hr
      have hvalid := (h.valid_split archRegs_nodup p).2
        (Or.inr (displaced_append m bs cs ▸ List.mem_append_left _ ((hrelease p).1 hr)))
      exact hnotNew p hvalid ((hnew p).2 hn)
    simp only [ratNext, mapValidNext, hrestore, hwalk, Bool.and_false, Bool.false_eq_true,
      if_false]
    by_cases hr : (releasePhyIdValid input p && input.commitRatReleaseMap) = true
    · have hn : ¬(newArchIdValid input p && input.renameRatMap) = true := fun hn => hclash hn hr
      simp [hr, hn]
    · by_cases hn : (newArchIdValid input p && input.renameRatMap) = true
      · simp [hr, hn]
      · simp [hr, hn]
  · rw [requestedBindings, mem_map_bindAll_channels hfresh.arch, ← visibleEnable_iff]
    simp only [ratNext, mapVisibleNext, hrestore, hwalk, Bool.and_false, Bool.false_eq_true,
      if_false]
    have hcurrent : (∃ a, a ∈ archRegs ∧ p = bindAll (bindAll m bs) cs a ∧
        ∀ j, j < renameWidth → ratRequest input j = true → input.renameRatArchId j ≠ a) ↔
        s.mapVisible p = true ∧ ¬(hidePhyId s input p && input.renameRatMap) = true := by
      rw [hidePhyId_iff]
      constructor
      · rintro ⟨a, ha, rfl, hnone⟩
        refine ⟨hretired.visible_current ha, fun hhide => ?_⟩
        obtain ⟨⟨j, hj, hreq, harch⟩, -⟩ := hhide
        rw [hretired.table_current ha] at harch
        exact hnone j hj hreq harch
      · rintro ⟨hvis, hhide⟩
        obtain ⟨a, ha, rfl⟩ := List.mem_map.1 ((hretired.visible_iff p).1 hvis)
        refine ⟨a, ha, rfl, fun j hj hreq harch => hhide ⟨⟨j, hj, hreq, ?_⟩, ?_, hvis⟩⟩
        · rw [hretired.table_current ha, harch]
        · exact h.valid_of_visible archRegs_nodup hvis
    rw [hcurrent]
    by_cases hhide : (hidePhyId s input p && input.renameRatMap) = true
    · have henable : ¬(visibleEnable input p && input.renameRatMap) = true := by
        intro hen
        obtain ⟨j, hj, hreq, rfl, _⟩ := visibleEnable_iff.1 hen
        exact Bool.false_ne_true ((hfresh.free j hj hreq).symm.trans (hidePhyId_iff.1 hhide).2.1)
      simp [hhide, henable]
    · by_cases henable : (visibleEnable input p && input.renameRatMap) = true
      · simp [hhide, henable]
      · simp [hhide, henable]
  · simp only [ratNext, mapTableNext]
    rw [if_neg fun hn => hnotNew p hp.1 ((hnew p).2 hn)]
  · obtain ⟨j, hj, hreq, rfl⟩ := mem_channelBindings.1 hc
    simp only [ratNext, mapTableNext]
    rw [if_pos (newArchIdValid_iff.2 ⟨j, hj, hreq, rfl⟩)]
    exact newArchId_eq hfresh hj hreq

/-- A misprediction: the table takes the vector of the branch's checkpoint. -/
theorem ratNext_restore (h : RatSound s m (bs ++ cs)) (hmap : input.renameRatMap = false)
    (hrestore : input.commitRatMapTableRestore = true)
    (hvalid : ∀ p, input.commitRatMapTableValid p = true ↔ p ∈ archRegs.map (bindAll m bs))
    (hvisible : ∀ p, input.commitRatMapTableVisible p = true ↔
      p ∈ archRegs.map (bindAll m bs)) :
    RatSound (ratNext s input) (bindAll m bs) [] := by
  have htable : (ratNext s input).mapTable = s.mapTable := by
    funext p
    simp [ratNext, mapTableNext, hmap]
  rw [RatSound, htable]
  refine h.restore archRegs_nodup (fun p => ?_) fun p => ?_
  · simp only [ratNext, mapValidNext, hrestore, if_true, hvalid]
  · simp only [ratNext, mapVisibleNext, hrestore, if_true, hvisible]

/-- A cycle that leaves the table alone. -/
theorem ratNext_idle (hmap : input.renameRatMap = false)
    (hrestore : input.commitRatMapTableRestore = false)
    (hwalk : input.commitRatRestoreMap = false)
    (hrelease : input.commitRatReleaseMap = false) : ratNext s input = s := by
  have htable : mapTableNext s input = s.mapTable := by
    funext p
    simp [mapTableNext, hmap]
  have hvalid : mapValidNext s input = s.mapValid := by
    funext p
    simp [mapValidNext, hmap, hrestore, hwalk, hrelease]
  have hvisible : mapVisibleNext s input = s.mapVisible := by
    funext p
    simp [mapVisibleNext, hmap, hrestore, hwalk]
  rw [ratNext, htable, hvalid, hvisible]

/-- One step of the walk: the youngest binding is undone. -/
theorem ratNext_undo {c : RegBinding} (h : RatSound s m (bs ++ [c]))
    (hmap : input.renameRatMap = false) (hrestore : input.commitRatMapTableRestore = false)
    (hwalk : input.commitRatRestoreMap = true) (hrelease : input.commitRatReleaseMap = false)
    (hnew : input.commitRatRestoreNewPhyId = c.phy)
    (hold : input.commitRatRestoreOldPhyId = bindAll m bs c.arch) :
    RatSound (ratNext s input) m bs := by
  have htable : (ratNext s input).mapTable = s.mapTable := by
    funext p
    simp [ratNext, mapTableNext, hmap]
  rw [RatSound, htable]
  refine h.undo archRegs_nodup (fun p => ?_) fun p => ?_
  · simp only [ratNext, mapValidNext, hmap, hrestore, hwalk, hrelease, hnew, hold,
      Bool.and_false, Bool.and_true, Bool.false_eq_true, if_false, decide_eq_true_eq]
    by_cases hn : p = c.phy <;> by_cases ho : p = bindAll m bs c.arch <;> simp_all
  · simp only [ratNext, mapVisibleNext, hmap, hrestore, hwalk, hnew, hold,
      Bool.and_false, Bool.and_true, Bool.false_eq_true, if_false, decide_eq_true_eq]
    by_cases hn : p = c.phy <;> by_cases ho : p = bindAll m bs c.arch <;> simp_all

end Updates

end DreamCore.Proofs
