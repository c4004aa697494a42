import DreamCore.Model.Backend
import DreamCore.Proofs.AliasTable

/-!
# Renaming one bundle

Up to four instructions are renamed in one cycle, each behind the earlier ones of
the bundle.  Read against the register map before the bundle, the slots bind one
after the other: the old register of a slot is its mapping right before the slot,
and its checkpoint marks exactly the map right after it.
-/

namespace DreamCore.Proofs

open DreamCore.Model DreamCore.Renaming DreamCore.Rtl

/-- What rename relies on: registers and ids offered by the other modules, a map
that the table agrees with, and only accepted instructions among those it maps. -/
structure BundleOk (r : RenameInput) (m : RegMap) : Prop where
  accepted : ∀ i, i < renameWidth → r.renameRatPhyIdValid i = true → (r.revPack i).valid = true
  destination : ∀ i, i < renameWidth → r.revEnable i = true → (r.revPack i).needRename = true →
    (r.revPack i).rd ∈ archRegs
  offered : ∀ k, k < renameWidth → r.ratRenameNewPhyIdValid k = true
  fresh : ∀ k, k < renameWidth → r.ratRenameNewPhyId k ∉ archRegs.map m
  distinct : ∀ j k, j < k → k < renameWidth → r.ratRenameNewPhyId j ≠ r.ratRenameNewPhyId k
  granted : ∀ i j, i < j → j < renameWidth → r.robRenameNewIdValid j = true →
    r.robRenameNewIdValid i = true
  read : r.ratRenameReadPhyId = m
  visible : ∀ p, r.ratRenameMapTableVisible p = true ↔ p ∈ archRegs.map m
  nodup : (archRegs.map m).Nodup

/-- The bindings of the first `n` slots. -/
def slotBindings (r : RenameInput) (n : Nat) : List RegBinding :=
  channelBindings r.renameRatPhyIdValid (fun i => (r.revPack i).rd) r.newPhyId n

theorem bundleMap_eq (r : RenameInput) (n : Nat) :
    bundleMap r n = bindAll r.ratRenameReadPhyId (slotBindings r n) := by
  induction n with
  | zero => rfl
  | succ n ih =>
      rw [bundleMap, slotBindings, bindAll_channelBindings_succ, ih]
      rfl

/-! ## Which slots take part -/

section Slots

variable {r : RenameInput} {m : RegMap}

theorem newPhyIdChannelIndex_eq (r : RenameInput) {i : Nat} (hi : i < renameWidth) :
    r.newPhyIdChannelIndex i = countOne i r.newPhyIdNeed := by
  induction i with
  | zero => rfl
  | succ i ih =>
      have hle := countOne_le i r.newPhyIdNeed
      rw [RenameInput.newPhyIdChannelIndex, countOne, ih (by omega)]
      cases r.newPhyIdNeed i with
      | true =>
          simp only [if_true, Bool.toNat_true, renameWidth] at *
          omega
      | false => rfl

theorem newPhyIdChannelIndex_lt (r : RenameInput) {i : Nat} (hi : i < renameWidth) :
    r.newPhyIdChannelIndex i < renameWidth := by
  rw [newPhyIdChannelIndex_eq r hi]
  exact Nat.lt_of_le_of_lt (countOne_le i _) hi

theorem newPhyIdChannelIndex_mono (r : RenameInput) {i j : Nat} (hij : i < j)
    (hj : j < renameWidth) (hneed : r.newPhyIdNeed i = true) :
    r.newPhyIdChannelIndex i < r.newPhyIdChannelIndex j := by
  rw [newPhyIdChannelIndex_eq r (by omega), newPhyIdChannelIndex_eq r hj]
  clear hj
  induction j with
  | zero => omega
  | succ j ih =>
      rw [countOne]
      rcases Nat.lt_succ_iff_lt_or_eq.1 hij with hlt | rfl
      · have := ih hlt
        omega
      · simp [hneed]

theorem sendEnable_iff (h : BundleOk r m) {i : Nat} (hi : i < renameWidth) :
    r.sendEnable i = true ↔ r.revEnable i = true ∧ r.robRenameNewIdValid i = true := by
  have hvalid : r.newPhyIdValid i = true := h.offered _ (newPhyIdChannelIndex_lt r hi)
  simp [RenameInput.sendEnable, hvalid]

/-- A slot that binds is one that takes a register off the free list. -/
theorem binds_iff (h : BundleOk r m) {i : Nat} (hi : i < renameWidth) :
    r.renameRatPhyIdValid i = true ↔ r.newPhyIdNeed i = true ∧ r.robRenameNewIdValid i = true := by
  constructor
  · intro hbinds
    have hvalid := h.accepted i hi hbinds
    simp only [RenameInput.renameRatPhyIdValid, Bool.and_eq_true, sendEnable_iff h hi] at hbinds
    simp [RenameInput.newPhyIdNeed, hbinds, hvalid]
  · rintro ⟨hneed, hgrant⟩
    simp only [RenameInput.newPhyIdNeed, Bool.and_eq_true] at hneed
    simp [RenameInput.renameRatPhyIdValid, sendEnable_iff h hi, hneed, hgrant]

theorem renames_eq (h : BundleOk r m) {i : Nat} (hi : i < renameWidth) :
    r.renames i = r.renameRatPhyIdValid i := by
  rw [Bool.eq_iff_iff, RenameInput.renames, Bool.and_eq_true, Bool.and_eq_true,
    RenameInput.renameRatPhyIdValid, Bool.and_eq_true]
  constructor
  · rintro ⟨⟨hsend, _⟩, hneed⟩
    exact ⟨hsend, hneed⟩
  · rintro ⟨hsend, hneed⟩
    exact ⟨⟨hsend, h.accepted i hi (by simp [RenameInput.renameRatPhyIdValid, hsend, hneed])⟩,
      hneed⟩

theorem binds_arch (h : BundleOk r m) {i : Nat} (hi : i < renameWidth)
    (hbinds : r.renameRatPhyIdValid i = true) : (r.revPack i).rd ∈ archRegs := by
  obtain ⟨hneed, _⟩ := (binds_iff h hi).1 hbinds
  simp only [RenameInput.newPhyIdNeed, Bool.and_eq_true] at hneed
  exact h.destination i hi hneed.1.1 hneed.2

theorem binds_fresh (h : BundleOk r m) {i : Nat} (hi : i < renameWidth) :
    r.newPhyId i ∉ archRegs.map m := h.fresh _ (newPhyIdChannelIndex_lt r hi)

theorem binds_distinct (h : BundleOk r m) {i j : Nat} (hij : i < j) (hj : j < renameWidth)
    (hi : r.renameRatPhyIdValid i = true) : r.newPhyId i ≠ r.newPhyId j :=
  h.distinct _ _
    (newPhyIdChannelIndex_mono r hij hj ((binds_iff h (by omega)).1 hi).1)
    (newPhyIdChannelIndex_lt r hj)

/-! ## The map behind each slot -/

/-- The map before a slot is still one register for each name, all different. -/
theorem bundleMap_nodup (h : BundleOk r m) {n : Nat} (hn : n ≤ renameWidth) :
    (archRegs.map (bundleMap r n)).Nodup := by
  have harch : ∀ b ∈ slotBindings r n, b.arch ∈ archRegs := by
    intro b hb
    obtain ⟨j, hj, hbinds, rfl⟩ := mem_channelBindings.1 hb
    exact binds_arch h (by omega) hbinds
  have hcells : (allocated archRegs m (slotBindings r n)).Nodup := by
    rw [allocated, List.nodup_append]
    refine ⟨h.nodup, channelBindings_nodup fun i j hij hj hi _ =>
      binds_distinct h hij (by omega) hi, fun p hp q hq heq => ?_⟩
    obtain ⟨b, hb, rfl⟩ := List.mem_map.1 hq
    obtain ⟨j, hj, _, rfl⟩ := mem_channelBindings.1 hb
    have hcell : p = r.newPhyId j := heq
    exact binds_fresh h (by omega : j < renameWidth) (hcell ▸ hp)
  rw [bundleMap_eq, h.read]
  exact (List.nodup_append.1 ((allocated_perm archRegs_nodup harch).nodup_iff.1 hcells)).1

/-- The register a slot binds is not mapped before it. -/
theorem newPhyId_not_mem (h : BundleOk r m) {i : Nat} (hi : i < renameWidth) :
    r.newPhyId i ∉ archRegs.map (bundleMap r i) := by
  rw [bundleMap_eq, h.read, slotBindings, mem_map_bindAll_channels fun j hj hbinds =>
    binds_arch h (by omega) hbinds]
  rintro (⟨j, hj, hbinds, heq, _⟩ | ⟨a, ha, heq, _⟩)
  · exact binds_distinct h hj hi hbinds heq.symm
  · exact binds_fresh h hi (heq ▸ List.mem_map_of_mem ha)

/-- The forwarding network finds the mapping right before the slot. -/
theorem oldPhyRegId_eq (h : BundleOk r m) {i : Nat} (hi : i < renameWidth)
    (hsend : r.sendEnable i = true) : r.oldPhyRegId i = bundleMap r i (r.revPack i).rd := by
  have hgrant := ((sendEnable_iff h hi).1 hsend).2
  generalize harch : (r.revPack i).rd = a
  have hforward : ∀ n, n ≤ i →
      r.phyFeedback (fun j => decide (j < n) && r.newPhyIdNeed j && decide ((r.revPack j).rd = a))
        a = bundleMap r n a := by
    intro n
    induction n with
    | zero =>
        intro _
        have hnone : anyBit renameWidth (fun j => decide (j < 0) && r.newPhyIdNeed j &&
            decide ((r.revPack j).rd = a)) = false := anyBit_eq_false_iff.2 fun j _ => by simp
        simp only [RenameInput.phyFeedback, hnone, Bool.false_eq_true, if_false, bundleMap]
    | succ n ih =>
        intro hn
        have hbinds : r.renameRatPhyIdValid n = r.newPhyIdNeed n := by
          rw [Bool.eq_iff_iff, binds_iff h (by omega)]
          exact and_iff_left (h.granted n i (by omega) hi hgrant)
        rw [bundleMap, hbinds]
        by_cases hmatch : r.newPhyIdNeed n = true ∧ (r.revPack n).rd = a
        · obtain ⟨hneed, hrd⟩ := hmatch
          have hany : anyBit renameWidth (fun j => decide (j < n + 1) && r.newPhyIdNeed j &&
              decide ((r.revPack j).rd = a)) = true :=
            anyBit_iff.2 ⟨n, by omega, by simp [hneed, hrd]⟩
          have hlast : priorityFinderLast renameWidth (fun j => decide (j < n + 1) &&
              r.newPhyIdNeed j && decide ((r.revPack j).rd = a)) = n := by
            refine lastIndexTemp_eq (by omega) (by simp [hneed, hrd]) fun j hj _ => ?_
            simp only [decide_eq_false (by omega : ¬j < n + 1), Bool.false_and]
          rw [RenameInput.phyFeedback, if_pos hany, hlast, if_pos hneed, ← hrd,
            Function.update_self]
        · have hsame : (fun j => decide (j < n + 1) && r.newPhyIdNeed j &&
              decide ((r.revPack j).rd = a)) = fun j => decide (j < n) && r.newPhyIdNeed j &&
                decide ((r.revPack j).rd = a) := by
            funext j
            by_cases hj : j = n
            · subst hj
              rw [not_and_or] at hmatch
              rcases hmatch with hneed | hrd
              · simp [hneed]
              · simp [hrd]
            · simp only [decide_eq_decide.2 (by omega : j < n + 1 ↔ j < n)]
          rw [hsame, ih (by omega)]
          split
          · rename_i hneed
            rw [Function.update_of_ne]
            rintro rfl
            exact hmatch ⟨hneed, rfl⟩
          · rfl
  rw [← hforward i (Nat.le_refl i), RenameInput.oldPhyRegId, harch]
  congr 1
  funext j
  rw [RenameInput.rdOldPhyFeedbackCmp, harch]

/-- The checkpoint of a slot marks the registers of the map right after it. -/
theorem newCp_visible_iff (h : BundleOk r m) {i : Nat} (hi : i < renameWidth) {p : Nat} :
    (r.newCp i).ratPhyMapTableVisible p = true ↔ p ∈ archRegs.map (bundleMap r (i + 1)) := by
  have hstep : ∀ {n table}, n < renameWidth →
      (∀ p, table p = true ↔ p ∈ archRegs.map (bundleMap r n)) → ∀ p,
      r.stepTableVisible n table p = true ↔ p ∈ archRegs.map (bundleMap r (n + 1)) := by
    intro n table hn htable p
    rw [RenameInput.stepTableVisible, renames_eq h hn, bundleMap]
    cases hbinds : r.renameRatPhyIdValid n with
    | false => simpa using htable p
    | true =>
        have hrd := binds_arch h hn hbinds
        have hsend : r.sendEnable n = true := (Bool.and_eq_true_iff.1 hbinds).1
        have hold := oldPhyRegId_eq h hn hsend
        have hnew := newPhyId_not_mem h hn
        have hinj := List.inj_on_of_nodup_map (bundleMap_nodup h (Nat.le_of_lt hn))
        simp only [Bool.not_true, Bool.false_eq_true, if_false, if_true]
        rw [List.mem_map]
        by_cases hp : p = r.newPhyId n
        · subst hp
          rw [if_pos rfl]
          exact ⟨fun _ => ⟨_, hrd, Function.update_self ..⟩, fun _ => rfl⟩
        · rw [if_neg hp]
          constructor
          · intro hvis
            split at hvis
            · simp at hvis
            · obtain ⟨a, ha, rfl⟩ := List.mem_map.1 ((htable p).1 hvis)
              refine ⟨a, ha, Function.update_of_ne ?_ _ _⟩
              rintro rfl
              exact ‹¬_› hold.symm
          · rintro ⟨a, ha, rfl⟩
            by_cases heq : a = (r.revPack n).rd
            · subst heq
              exact absurd (Function.update_self ..) hp
            · rw [Function.update_of_ne heq] at hp ⊢
              rw [if_neg]
              · exact (htable _).2 (List.mem_map_of_mem ha)
              · rw [hold]
                exact fun hsame => heq (hinj ha hrd hsame)
  have hall : ∀ n, n < renameWidth → ∀ p,
      r.newCpTableVisible n p = true ↔ p ∈ archRegs.map (bundleMap r (n + 1)) := by
    intro n
    induction n with
    | zero =>
        refine fun hn => hstep hn fun p => ?_
        rw [h.visible, bundleMap, h.read]
    | succ n ih => exact fun hn => hstep hn (ih (by omega))
  exact hall i hi p

end Slots

end DreamCore.Proofs
