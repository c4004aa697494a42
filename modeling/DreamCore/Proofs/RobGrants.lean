import DreamCore.Cpp.Rob
import DreamCore.Lib.Clocked

/-!
# Reorder-buffer grants

Rename is granted four ids a cycle from truncated pointers.  The grants are exact
while the pointers carry the same wrap bit; once they differ all four channels
are granted, whatever is left.  So the window is safe exactly as long as a
wrapped buffer keeps four free entries.
-/

namespace DreamCore.Proofs

open DreamCore.Clocked DreamCore.Ring DreamCore.Rtl DreamCore.Cpp

/-! ## Ports -/

/-- Commit pops consecutive ids from the head, and only ids reported valid. -/
def RetireAllowed (s : RobState) (input : RobInput) : Prop :=
  ∀ i, i < commitWidth → input.commitRobRetirePop i = true →
    input.commitRobRetireId i = (robCommitRetireHeadId s + i) % robSize ∧
      robCommitRetireIdValid s (input.commitRobRetireId i) = true

instance (s : RobState) (input : RobInput) : Decidable (RetireAllowed s input) :=
  inferInstanceAs (Decidable (∀ i, i < commitWidth → _ → _ ∧ _))

/-- The same cycle with nothing offered by rename. -/
def withoutRename (input : RobInput) : RobInput :=
  { input with renameRobDataValid := fun _ => false }

abbrev robOccupancy (s : RobState) : Nat := occupancy robSize s.rptr s.wptr

abbrev RobLive (s : RobState) (id : Nat) : Prop := Live robSize s.rptr s.wptr id

abbrev RobWellFormed (s : RobState) : Prop := WellFormed robSize s.rptr s.wptr

/-- No grant hits a live entry, no push touches one, and the C++ model agrees. -/
structure GrantSafe (s : RobState) : Prop where
  notLive : ∀ i, i < renameWidth → robRenameNewIdValid s i = true →
    ¬RobLive s (robRenameNewId s i)
  bounded : robOccupancy s ≤ robSize
  keeps : ∀ input id, RobLive s id →
    robBufferNext s input id = robBufferNext s (withoutRename input) id
  agrees : ∀ newId i, i < renameWidth →
    robRenameNewIdValid s i = ((robOfRtl s).publishedNewId newId i).2 ∧
      (robRenameNewIdValid s i = true →
        robRenameNewId s i = ((robOfRtl s).publishedNewId newId i).1)

/-- A wrapped window leaves at least one full rename bundle free. -/
def WrapLeavesBundle (s : RobState) : Prop :=
  stage robSize s.rptr = stage robSize s.wptr ∨ robOccupancy s + renameWidth ≤ robSize

instance (s : RobState) : Decidable (WrapLeavesBundle s) := inferInstanceAs (Decidable (_ ∨ _))

/-! ## One cycle -/

theorem robNewId_eq {s : RobState} (h : RobWellFormed s) (i : Nat) :
    robRenameNewId s i = slot robSize (s.rptr + (robOccupancy s + i)) := by
  obtain ⟨hr, hw, _⟩ := h
  have hocc := occupancy_eq hr hw
  simp only [robRenameNewId, robOccupancy, slot, robSize] at *
  split at hocc <;> omega

theorem robNewId_live_iff {s : RobState} (h : RobWellFormed s) {i : Nat} (hi : i < robSize) :
    RobLive s (robRenameNewId s i) ↔ robSize ≤ robOccupancy s + i := by
  have hfit : robOccupancy s ≤ robSize := h.fits
  rw [robNewId_eq h i]
  constructor
  · rintro ⟨k, hk, heq⟩
    by_contra hlt
    change k < robOccupancy s at hk
    have := slot_add_inj (by omega) (by omega) heq
    omega
  · intro hge
    refine ⟨robOccupancy s + i - robSize, ?_, ?_⟩
    · change _ < robOccupancy s
      omega
    · simp only [slot, robSize] at *
      omega

/-- What the grant of channel `i` computes, in both wrap states. -/
theorem robNewIdValid_iff {s : RobState} (h : RobWellFormed s) {i : Nat}
    (hi : i < renameWidth) :
    robRenameNewIdValid s i = true ↔
      stage robSize s.rptr ≠ stage robSize s.wptr ∨ robOccupancy s + i < robSize := by
  obtain ⟨hr, hw, hfit⟩ := h
  rw [occupancy_eq hr hw] at *
  simp only [robRenameNewIdValid, robRenameNewId, slot_eq hr, slot_eq hw, stage, robOccupancy,
    occupancy_eq hr hw, robSize, renameWidth, Bool.or_eq_true, decide_eq_true_eq, ne_eq,
    decide_eq_decide] at *
  repeat' split
  all_goals (repeat' split at hfit)
  all_goals omega

/-- The published ids of the C++ model are exact in every window. -/
theorem published_spec {s : RobState} (h : RobWellFormed s) (newId : Nat) {i : Nat}
    (hi : i < robSize) :
    let published := (robOfRtl s).publishedNewId newId i
    published.2 = decide (robOccupancy s + i < robSize) ∧
      (published.2 = true → published.1 = robRenameNewId s i) ∧
      (published.2 = false → (robOfRtl s).checkNewIdValid published.1 = false) := by
  have hcheck : ∀ {k}, k < robSize → ((robOfRtl s).checkNewIdValid (robRenameNewId s k) = true ↔
      robOccupancy s + k < robSize) := by
    intro k hk
    have hid : robRenameNewId s k < robSize := Nat.mod_lt _ (by decide)
    rw [checkNewIdValid_iff h hid, not_congr (robNewId_live_iff h hk), not_le]
  induction i with
  | zero =>
      have hfull : (robOfRtl s).isFull = true ↔ robOccupancy s = robSize := by
        rw [robOccupancy, ← full_iff h.rptr_lt h.wptr_lt]
        rw [Rob.isFull, Bool.and_eq_true, decide_eq_true_iff, decide_eq_true_iff, and_comm]
        rfl
      have hzero : robRenameNewId s 0 = slot robSize s.wptr := by
        simp [robRenameNewId, slot]
      have hfit : robOccupancy s ≤ robSize := h.fits
      simp only [Rob.publishedNewId, Rob.getNewId]
      by_cases hf : (robOfRtl s).isFull = true
      · have := hfull.1 hf
        simp [hf, Rob.checkNewIdValid, this]
      · have hlt : robOccupancy s < robSize := by
          have := mt hfull.2 hf
          omega
        simp only [if_neg hf, hzero]
        simp [robOfRtl, hlt]
  | succ i ih =>
      obtain ⟨hvalid, hid, hstuck⟩ := ih (by omega)
      simp only [Rob.publishedNewId, Rob.getNextNewId]
      cases hprev : ((robOfRtl s).publishedNewId newId i).2 with
      | false =>
          rw [hprev] at hvalid
          have hno := hstuck hprev
          have hge : ¬robOccupancy s + i < robSize := by simpa using hvalid.symm
          simp only [hno, Bool.false_eq_true, if_false]
          refine ⟨?_, by simp, fun _ => trivial⟩
          simp only [decide_eq_false (by omega : ¬robOccupancy s + (i + 1) < robSize)]
      | true =>
          rw [hprev] at hvalid
          have hlt : robOccupancy s + i < robSize := by simpa using hvalid.symm
          have hyes := (hcheck (by omega : i < robSize)).2 hlt
          have hnext : (robRenameNewId s i + 1) % (robOfRtl s).size = robRenameNewId s (i + 1) := by
            simp only [robRenameNewId, robOfRtl, robSize]
            omega
          rw [hid hprev, if_pos hyes, hnext]
          refine ⟨?_, fun _ => rfl, fun hfalse => hfalse⟩
          rw [Bool.eq_iff_iff, hcheck hi, decide_eq_true_eq]

theorem robBufferNext_withoutRename {s : RobState} {input : RobInput} {id : Nat}
    (h : ∀ i, i < renameWidth → robRenameNewIdValid s i = true → robRenameNewId s i ≠ id) :
    robBufferNext s input id = robBufferNext s (withoutRename input) id := by
  have hcmp : robWritePortAddrCmp s input id =
      robWritePortAddrCmp s (withoutRename input) id := by
    funext j
    by_cases hj : j < renameWidth
    · have hnone : anyBit renameWidth (withoutRename input).renameRobDataValid = false :=
        anyBit_eq_false_iff.2 fun _ _ => rfl
      simp only [robWritePortAddrCmp, robWriteChannelAddr, robWriteChannelEnable, if_pos hj,
        hnone, Bool.false_and, Bool.and_false]
      cases hv : robRenameNewIdValid s j with
      | false => simp
      | true => simp [h j hj hv]
    · simp only [robWritePortAddrCmp, robWriteChannelAddr, robWriteChannelEnable, if_neg hj]
      rfl
  have hdata : robWriteChannelData input = robWriteChannelData (withoutRename input) := rfl
  rw [robBufferNext, robBufferNext, hcmp, hdata]

/-- In a well-formed window the grants are safe exactly when the wrapped window
leaves a bundle free. -/
theorem grantSafe_iff {s : RobState} (h : RobWellFormed s) :
    GrantSafe s ↔ WrapLeavesBundle s := by
  have hfit : robOccupancy s ≤ robSize := h.fits
  constructor
  · intro hsafe
    by_contra hbad
    obtain ⟨hstage, hocc⟩ := not_or.1 hbad
    -- The first channel past the free entries is granted and hits the head.
    have hi : robSize - robOccupancy s < renameWidth := by
      simp only [robSize, renameWidth] at *
      omega
    refine hsafe.notLive _ hi ((robNewIdValid_iff h hi).2 (Or.inl hstage)) ?_
    rw [robNewId_live_iff h (by simp only [robSize, renameWidth] at *; omega)]
    omega
  · intro hcond
    have hvalid : ∀ i, i < renameWidth →
        (robRenameNewIdValid s i = true ↔ robOccupancy s + i < robSize) := by
      intro i hi
      rw [robNewIdValid_iff h hi]
      rcases hcond with hstage | hocc
      · simp [hstage]
      · exact ⟨fun _ => by omega, Or.inr⟩
    have hlt : ∀ {i}, i < renameWidth → i < robSize := fun hi => by
      simp only [robSize, renameWidth] at *
      omega
    have hnotLive : ∀ i, i < renameWidth → robRenameNewIdValid s i = true →
        ¬RobLive s (robRenameNewId s i) := by
      intro i hi hgrant
      rw [robNewId_live_iff h (hlt hi), not_le]
      exact (hvalid i hi).1 hgrant
    refine ⟨hnotLive, hfit, ?_, ?_⟩
    · intro input id hlive
      refine robBufferNext_withoutRename fun i hi hgrant heq => ?_
      exact hnotLive i hi hgrant (heq ▸ hlive)
    · intro newId i hi
      obtain ⟨hpub, hid, _⟩ := published_spec h newId (hlt hi)
      have heq : robRenameNewIdValid s i = ((robOfRtl s).publishedNewId newId i).2 := by
        rw [hpub, Bool.eq_iff_iff, hvalid i hi, decide_eq_true_eq]
      exact ⟨heq, fun hgrant => (hid (heq ▸ hgrant)).symm⟩

/-- Commit never pops more than there is. -/
theorem robRetireNum_le {s : RobState} (h : RobWellFormed s) {input : RobInput}
    (hport : RetireAllowed s input) : robRetireNum input ≤ robOccupancy s := by
  refine countOne_le_bound fun i hi hpop => ?_
  obtain ⟨hid, hvalid⟩ := hport i hi hpop
  have hsize : i < robSize := by simp only [robSize, commitWidth] at *; omega
  have hslot : input.commitRobRetireId i = slot robSize (s.rptr + i) := by
    rw [hid]
    simp only [robCommitRetireHeadId, slot, robSize]
    omega
  rw [robCommitRetireIdValid, hslot, ptrInRange_iff h (slot_lt (by decide))] at hvalid
  obtain ⟨k, hk, heq⟩ := hvalid
  have hfit := h.fits
  have := slot_add_inj hsize (by omega) heq
  change i < occupancy robSize s.rptr s.wptr
  omega

theorem robNewNum_le {s : RobState} (h : RobWellFormed s) (hcond : WrapLeavesBundle s)
    (input : RobInput) : robNewNum s input ≤ robSize - robOccupancy s := by
  refine countOne_le_bound fun i hi hnew => ?_
  have hgrant : robRenameNewIdValid s i = true := by simp_all
  have := (robNewIdValid_iff h hi).1 hgrant
  rcases hcond with hstage | hocc
  · have := this.resolve_left fun hne => hne hstage
    omega
  · omega

theorem robNext_wellFormed {s : RobState} {input : RobInput} (h : RobWellFormed s)
    (hcond : WrapLeavesBundle s) (hport : RetireAllowed s input) :
    RobWellFormed (robNext s input) := by
  by_cases hflush : input.commitRobFlush = true
  · simp only [RobWellFormed, robNext, hflush, if_true]
    exact ⟨by decide, by decide, by decide⟩
  · have hpop := robRetireNum_le h hport
    have hpush := robNewNum_le h hcond input
    obtain ⟨hr, hw, hfit⟩ := h
    have hfit' : robOccupancy s ≤ robSize := hfit
    have hrnext : robRptrNext s input = (s.rptr + robRetireNum input) % (2 * robSize) := by
      rw [robRptrNext]
      split
      · have hz : robOccupancy s = 0 :=
          (occupancy_eq_zero_iff hr hw).2 (by simpa [robEmpty] using ‹robEmpty s = true›)
        have : robRetireNum input = 0 := by omega
        rw [this, Nat.add_zero, Nat.mod_eq_of_lt hr]
      · rfl
    have hwnext : ∃ k, k ≤ robSize - robOccupancy s ∧
        robWptrNext s input = (s.wptr + k) % (2 * robSize) := by
      rw [robWptrNext]
      have hstay : s.wptr = (s.wptr + 0) % (2 * robSize) := by
        rw [Nat.add_zero, Nat.mod_eq_of_lt hw]
      split
      · exact ⟨0, Nat.zero_le _, hstay⟩
      · split
        · exact ⟨_, hpush, rfl⟩
        · exact ⟨0, Nat.zero_le _, hstay⟩
    obtain ⟨k, hk, hwnext⟩ := hwnext
    have hr' : (s.rptr + robRetireNum input) % (2 * robSize) < 2 * robSize :=
      Nat.mod_lt _ (by decide)
    have hocc := occupancy_pop hr hw hpop
    simp only [RobWellFormed, robNext, Bool.not_eq_true] at hflush ⊢
    simp only [hflush, Bool.false_eq_true, if_false, hrnext, hwnext]
    refine ⟨hr', Nat.mod_lt _ (by decide), ?_⟩
    change occupancy _ _ _ ≤ _ at hfit'
    rw [occupancy_push hr' hw (by rw [hocc]; simp only [robOccupancy] at *; omega), hocc]
    simp only [robOccupancy] at *
    omega

/-! ## Every run -/

theorem robReset_wellFormed (buffer : Nat → RobItem) : RobWellFormed (robReset buffer) :=
  (⟨by decide, by decide, by decide⟩ : WellFormed robSize 0 0)

/-- From reset the grants are safe in every visited state if and only if no
visited state is wrapped with fewer than four free entries. -/
theorem robGrants_safe_iff (buffer : Nat → RobItem) (inputs : List RobInput)
    (hport : Along robNext RetireAllowed (robReset buffer) inputs) :
    Always robNext GrantSafe (robReset buffer) inputs ↔
      Always robNext WrapLeavesBundle (robReset buffer) inputs := by
  have hstep : ∀ s input, RobWellFormed s → WrapLeavesBundle s → RetireAllowed s input →
      RobWellFormed (robNext s input) :=
    fun _ _ hinv hcond hallowed => robNext_wellFormed hinv hcond hallowed
  exact always_iff_of_step hstep (fun _ hinv => grantSafe_iff hinv) (robReset_wellFormed buffer)
    hport

/-- Rename offers four entries with program counter `pc`; nothing else happens. -/
def pushBundle (pc : Nat) : RobInput where
  renameRobData := fun _ => { RobItem.zero with pc := pc }
  renameRobDataValid := fun _ => true
  renameRobPush := true
  commitRobInputId := fun _ => 0
  commitRobInputData := fun _ => RobItem.zero
  commitRobInputDataWe := fun _ => false
  commitRobRetireId := fun _ => 0
  commitRobRetirePop := fun _ => false
  commitRobFlush := false

/-- The same, while the four oldest entries retire. -/
def slideBundle (pc headId : Nat) : RobInput :=
  { pushBundle pc with
    commitRobRetireId := fun i => headId + i
    commitRobRetirePop := fun _ => true }

/-- Fifteen bundles, then bundle by bundle in place of the four oldest entries: the window
comes to wrap around and is left with four free entries. -/
def slidingWindow : List RobInput :=
  List.replicate 15 (pushBundle 4) ++ [slideBundle 8 0, slideBundle 12 4]

theorem robGrants_safe_iff_sliding :
    Always robNext GrantSafe (robReset fun _ => RobItem.zero) slidingWindow ∧
      stage robSize (run robNext (robReset fun _ => RobItem.zero) slidingWindow).rptr ≠
        stage robSize (run robNext (robReset fun _ => RobItem.zero) slidingWindow).wptr :=
  ⟨(robGrants_safe_iff _ _ (by decide +kernel)).2 (by decide +kernel), by decide +kernel⟩

/-- Sixteen bundles fill the buffer. -/
def filledRob : RobState :=
  run robNext (robReset fun _ => RobItem.zero) (List.replicate 16 (pushBundle 4))

/-- The full buffer still grants the id of its head, and the next bundle
overwrites that entry. -/
theorem robGrants_full_overwrites :
    Along robNext RetireAllowed (robReset fun _ => RobItem.zero)
        (List.replicate 16 (pushBundle 4)) ∧
      robFull filledRob = true ∧ robRenameNewIdValid filledRob 0 = true ∧
      RobLive filledRob (robRenameNewId filledRob 0) ∧
      (filledRob.buffer 0).pc = 4 ∧ ((robNext filledRob (pushBundle 8)).buffer 0).pc = 8 ∧
      ¬Always robNext GrantSafe (robReset fun _ => RobItem.zero)
        (List.replicate 16 (pushBundle 4)) := by
  have hgrant : robRenameNewIdValid filledRob 0 = true := by decide +kernel
  have hlive : RobLive filledRob (robRenameNewId filledRob 0) :=
    ⟨0, by decide +kernel, by decide +kernel⟩
  have hquiet : Along robNext RetireAllowed (robReset fun _ => RobItem.zero)
      (List.replicate 16 (pushBundle 4)) := by
    refine along_of_forall fun s input hmem i _ hpop => ?_
    rw [List.eq_of_mem_replicate hmem] at hpop
    exact absurd hpop Bool.false_ne_true
  refine ⟨hquiet, by decide +kernel, hgrant, hlive, by decide +kernel, by decide +kernel, ?_⟩
  intro halways
  exact halways.last.notLive 0 (by decide) hgrant hlive

end DreamCore.Proofs
