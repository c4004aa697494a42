import DreamCore.Model.RenameCycle
import DreamCore.Proofs.AliasTable

/-!
# The alias table after a sequence of renamings

`OneRowEach` is what `rat.h` asserts of its table.  A renaming keeps it and moves one
register; the table after a sequence of renamings is described row by row, by the last
instruction that took the row or hid it.
-/

namespace DreamCore.Proofs

open DreamCore.Model DreamCore.Rtl

/-- One row stands for each register, and only allocated rows stand for one. -/
structure OneRowEach (s : RatState) : Prop where
  row : ∀ a ∈ archRegs, ∃ p, p < phyRegNum ∧
    ∀ q, q < phyRegNum → (camArchIdCmp s a q = true ↔ q = p)
  allocated : ∀ p, p < phyRegNum → s.mapVisible p = true → s.mapValid p = true

theorem cam_iff {s : RatState} {a p : Nat} : camArchIdCmp s a p = true ↔
    s.mapValid p = true ∧ s.mapVisible p = true ∧ s.mapTable p = a := by
  rw [camArchIdCmp, Bool.and_eq_true, Bool.and_eq_true, decide_eq_true_iff, and_assoc]

section Read

variable {s : RatState} {a p : Nat}

theorem readPhyId_lt (h : OneRowEach s) (ha : a ∈ archRegs) : ratReadPhyId s a < phyRegNum := by
  obtain ⟨p, hp, hrow⟩ := h.row a ha
  rw [ratReadPhyId, parallelFinder_unique hp hrow]
  exact hp

theorem cam_iff_read (h : OneRowEach s) (ha : a ∈ archRegs) (hp : p < phyRegNum) :
    camArchIdCmp s a p = true ↔ p = ratReadPhyId s a := by
  obtain ⟨q, hq, hrow⟩ := h.row a ha
  rw [ratReadPhyId, parallelFinder_unique hq hrow]
  exact hrow p hp

theorem read_row (h : OneRowEach s) (ha : a ∈ archRegs) :
    s.mapValid (ratReadPhyId s a) = true ∧ s.mapVisible (ratReadPhyId s a) = true ∧
      s.mapTable (ratReadPhyId s a) = a :=
  cam_iff.1 ((cam_iff_read h ha (readPhyId_lt h ha)).2 rfl)

/-- The lookup finds the row that is allocated, visible and holds the register. -/
theorem read_eq (h : OneRowEach s) (ha : a ∈ archRegs) (hp : p < phyRegNum)
    (hcam : camArchIdCmp s a p = true) : ratReadPhyId s a = p :=
  ((cam_iff_read h ha hp).1 hcam).symm

/-- The invariant of the runs gives what the C++ model asserts. -/
theorem oneRowEach_of_sound {m : RegMap} {bs : List RegBinding} (h : RatSound s m bs)
    (hb : RatBounded s m) : OneRowEach s where
  row := fun a ha => by
    refine ⟨ratReadPhyId s a, ?_, fun q _ => ?_⟩
    · rw [ratReadPhyId_eq h hb]
      exact hb.row_lt _ (h.valid_of_visible archRegs_nodup (h.visible_current ha))
    · rw [ratReadPhyId_eq h hb, cam_iff, ← h.lookup_iff ha]
      exact ⟨fun hcam => ⟨hcam.2.1, hcam.2.2⟩, fun hrow =>
        ⟨h.valid_of_visible archRegs_nodup hrow.1, hrow.1, hrow.2⟩⟩
  allocated := fun _ _ hvisible => h.valid_of_visible archRegs_nodup hvisible

end Read

/-! ## One renaming -/

section Remap

variable {s : RatState} {a p : Nat}

theorem ne_of_free (hp : s.mapValid p = false) {q : Nat} (hq : s.mapValid q = true) : q ≠ p := by
  rintro rfl
  exact Bool.false_ne_true (hp.symm.trans hq)

theorem cam_remap (h : OneRowEach s) (ha : a ∈ archRegs) (hfree : s.mapValid p = false)
    {b q : Nat} : camArchIdCmp (remap s a p) b q = true ↔
      (q = p ∧ a = b) ∨ (q ≠ p ∧ q ≠ ratReadPhyId s a ∧ camArchIdCmp s b q = true) := by
  have hne : ratReadPhyId s a ≠ p := ne_of_free hfree (read_row h ha).1
  rw [cam_iff, cam_iff]
  simp only [remap]
  by_cases hq : q = p
  · subst hq
    simp [Function.update_of_ne hne.symm]
  · by_cases hold : q = ratReadPhyId s a
    · subst hold
      simp [hq]
    · simp [hq, hold]

theorem read_remap (h : OneRowEach s) (ha : a ∈ archRegs) (hfree : s.mapValid p = false)
    {b q : Nat} (hb : b ∈ archRegs) (hq : q < phyRegNum) :
    camArchIdCmp (remap s a p) b q = true ↔ q = if b = a then p else ratReadPhyId s b := by
  rw [cam_remap h ha hfree, cam_iff_read h hb hq]
  split
  · subst b
    exact ⟨fun hcases => hcases.elim And.left fun hold => absurd hold.2.2 hold.2.1,
      fun heq => Or.inl ⟨heq, rfl⟩⟩
  · rename_i hba
    have hfresh : ratReadPhyId s b ≠ p := ne_of_free hfree (read_row h hb).1
    have hother : ratReadPhyId s b ≠ ratReadPhyId s a := fun heq =>
      hba (((read_row h hb).2.2.symm.trans (congrArg s.mapTable heq)).trans (read_row h ha).2.2)
    constructor
    · rintro (⟨-, rfl⟩ | hold)
      · exact absurd rfl hba
      · exact hold.2.2
    · rintro rfl
      exact Or.inr ⟨hfresh, hother, rfl⟩

theorem oneRow_remap (h : OneRowEach s) (ha : a ∈ archRegs) (hp : p < phyRegNum)
    (hfree : s.mapValid p = false) : OneRowEach (remap s a p) where
  row := fun b hb => by
    refine ⟨if b = a then p else ratReadPhyId s b, ?_, fun q hq => read_remap h ha hfree hb hq⟩
    split
    · exact hp
    · exact readPhyId_lt h hb
  allocated := fun q hq hvisible => by
    simp only [remap] at hvisible ⊢
    by_cases hqp : q = p
    · simp [hqp]
    · rw [Function.update_of_ne hqp]
      refine h.allocated q hq ?_
      by_cases hold : q = ratReadPhyId s a
      · simp [hold] at hvisible
      · simpa [hold, hqp] using hvisible

/-- A renaming moves the register it renames and no other. -/
theorem readPhyId_remap (h : OneRowEach s) (ha : a ∈ archRegs) (hp : p < phyRegNum)
    (hfree : s.mapValid p = false) {b : Nat} (hb : b ∈ archRegs) :
    ratReadPhyId (remap s a p) b = if b = a then p else ratReadPhyId s b := by
  refine read_eq (oneRow_remap h ha hp hfree) hb ?_ ((read_remap h ha hfree hb ?_).2 rfl)
  all_goals
    split
    · exact hp
    · exact readPhyId_lt h hb

end Remap

/-! ## A sequence of renamings -/

/-- The renamed instructions take different free rows. -/
structure FreshSlots (s : RatState) (need : Nat → Bool) (arch phy : Nat → Nat) (n : Nat) :
    Prop where
  arch_mem : ∀ j, j < n → need j = true → arch j ∈ archRegs
  row_lt : ∀ j, j < n → need j = true → phy j < phyRegNum
  free : ∀ j, j < n → need j = true → s.mapValid (phy j) = false
  distinct : ∀ i j, i < j → j < n → need i = true → need j = true → phy i ≠ phy j

section InOrder

variable {s : RatState} {need : Nat → Bool} {arch phy : Nat → Nat} {n : Nat}

theorem FreshSlots.before (h : FreshSlots s need arch phy n) {m : Nat} (hm : m ≤ n) :
    FreshSlots s need arch phy m where
  arch_mem := fun j hj => h.arch_mem j (by omega)
  row_lt := fun j hj => h.row_lt j (by omega)
  free := fun j hj => h.free j (by omega)
  distinct := fun i j hij hj => h.distinct i j hij (by omega)

theorem inOrder_valid (p : Nat) : (inOrder s need arch phy n).mapValid p = true ↔
    s.mapValid p = true ∨ ∃ j, j < n ∧ need j = true ∧ phy j = p := by
  induction n with
  | zero => simp [inOrder]
  | succ n ih =>
      rw [inOrder]
      cases hneed : need n with
      | false =>
          rw [if_neg Bool.false_ne_true, ih]
          refine or_congr_right ⟨fun ⟨j, hj, h⟩ => ⟨j, by omega, h⟩, fun ⟨j, hj, h⟩ => ?_⟩
          refine ⟨j, Nat.lt_of_le_of_ne (Nat.le_of_lt_succ hj) ?_, h⟩
          rintro rfl
          exact Bool.false_ne_true (hneed.symm.trans h.1)
      | true =>
          rw [if_pos rfl]
          simp only [remap]
          by_cases hp : p = phy n
          · simp only [hp, Function.update_self, true_iff]
            exact Or.inr ⟨n, Nat.lt_succ_self n, hneed, rfl⟩
          · rw [Function.update_of_ne hp, ih]
            refine or_congr_right ⟨fun ⟨j, hj, h⟩ => ⟨j, by omega, h⟩, fun ⟨j, hj, h⟩ => ?_⟩
            refine ⟨j, Nat.lt_of_le_of_ne (Nat.le_of_lt_succ hj) ?_, h⟩
            rintro rfl
            exact hp h.2.symm

/-- The row of a later instruction is still free. -/
theorem inOrder_free (h : FreshSlots s need arch phy (n + 1)) (hneed : need n = true) :
    (inOrder s need arch phy n).mapValid (phy n) = false := by
  rw [Bool.eq_false_iff]
  intro hvalid
  rcases (inOrder_valid (phy n)).1 hvalid with hold | ⟨j, hj, hneedj, heq⟩
  · exact Bool.false_ne_true ((h.free n (Nat.lt_succ_self n) hneed).symm.trans hold)
  · exact h.distinct j n hj (Nat.lt_succ_self n) hneedj hneed heq

theorem oneRow_inOrder (hs : OneRowEach s) (h : FreshSlots s need arch phy n) :
    OneRowEach (inOrder s need arch phy n) := by
  induction n with
  | zero => exact hs
  | succ n ih =>
      have hprev := ih (h.before (Nat.le_succ n))
      rw [inOrder]
      split
      · rename_i hneed
        exact oneRow_remap hprev (h.arch_mem n (Nat.lt_succ_self n) hneed)
          (h.row_lt n (Nat.lt_succ_self n) hneed) (inOrder_free h hneed)
      · exact hprev

theorem read_inOrder_succ (hs : OneRowEach s) (h : FreshSlots s need arch phy (n + 1)) {a : Nat}
    (ha : a ∈ archRegs) : ratReadPhyId (inOrder s need arch phy (n + 1)) a =
      if need n = true ∧ arch n = a then phy n
      else ratReadPhyId (inOrder s need arch phy n) a := by
  have hprev := oneRow_inOrder hs (h.before (Nat.le_succ n))
  rw [inOrder]
  cases hneed : need n with
  | false => simp
  | true =>
      rw [if_pos rfl, readPhyId_remap hprev (h.arch_mem n (Nat.lt_succ_self n) hneed)
        (h.row_lt n (Nat.lt_succ_self n) hneed) (inOrder_free h hneed) ha]
      simp only [true_and, eq_comm]

theorem inOrder_table_other {p : Nat} (h : ∀ j, j < n → need j = true → phy j ≠ p) :
    (inOrder s need arch phy n).mapTable p = s.mapTable p := by
  induction n with
  | zero => rfl
  | succ n ih =>
      rw [inOrder]
      split
      · rename_i hneed
        simp only [remap]
        rw [Function.update_of_ne (h n (Nat.lt_succ_self n) hneed).symm]
        exact ih fun j hj => h j (by omega)
      · exact ih fun j hj => h j (by omega)

theorem inOrder_table_slot (h : FreshSlots s need arch phy n) {j : Nat} (hj : j < n)
    (hneed : need j = true) : (inOrder s need arch phy n).mapTable (phy j) = arch j := by
  induction n with
  | zero => omega
  | succ n ih =>
      rw [inOrder]
      by_cases hjn : j = n
      · subst hjn
        rw [if_pos hneed]
        exact Function.update_self ..
      · have hprev := ih (h.before (Nat.le_succ n)) (by omega)
        split
        · rename_i hlast
          simp only [remap]
          rw [Function.update_of_ne (h.distinct j n (by omega) (Nat.lt_succ_self n) hneed hlast)]
          exact hprev
        · exact hprev

/-- A row stands for a register if it was taken for one that no later instruction
renames, or if it stood for one that no instruction renames. -/
theorem inOrder_visible (hs : OneRowEach s) (h : FreshSlots s need arch phy n) {p : Nat}
    (hp : p < phyRegNum) : (inOrder s need arch phy n).mapVisible p = true ↔
      (∃ j, j < n ∧ need j = true ∧ phy j = p ∧
        ∀ k, j < k → k < n → need k = true → arch k ≠ arch j) ∨
      (s.mapVisible p = true ∧ ∀ j, j < n → need j = true → arch j ≠ s.mapTable p) := by
  induction n with
  | zero => simp [inOrder]
  | succ n ih =>
      have hbefore := h.before (Nat.le_succ n)
      have hprev := oneRow_inOrder hs hbefore
      have hih := ih hbefore
      cases hneed : need n with
      | false =>
          have hsame : ∀ {j}, need j = true → j < n + 1 → j < n := fun {j} hj hlt =>
            Nat.lt_of_le_of_ne (Nat.le_of_lt_succ hlt) fun heq =>
              Bool.false_ne_true (hneed.symm.trans (heq ▸ hj))
          rw [inOrder, hneed, if_neg Bool.false_ne_true, hih]
          refine or_congr ⟨?_, ?_⟩ (and_congr_right fun _ => ⟨?_, ?_⟩)
          · exact fun ⟨j, hj, hneedj, heq, hlast⟩ => ⟨j, by omega, hneedj, heq,
              fun k hjk hk hneedk => hlast k hjk (hsame hneedk hk) hneedk⟩
          · exact fun ⟨j, hj, hneedj, heq, hlast⟩ => ⟨j, hsame hneedj hj, hneedj, heq,
              fun k hjk hk => hlast k hjk (by omega)⟩
          · exact fun hall j hj hneedj => hall j (hsame hneedj hj) hneedj
          · exact fun hall j hj => hall j (by omega)
      | true =>
          have harch := h.arch_mem n (Nat.lt_succ_self n) hneed
          have hfree := inOrder_free h hneed
          have hnot : ratReadPhyId (inOrder s need arch phy n) (arch n) ≠ phy n :=
            ne_of_free hfree (read_row hprev harch).1
          rw [inOrder, hneed, if_pos rfl]
          simp only [remap]
          by_cases hpn : p = phy n
          · subst hpn
            rw [Function.update_of_ne hnot.symm, Function.update_self]
            exact iff_of_true rfl (Or.inl ⟨n, Nat.lt_succ_self n, hneed, rfl, fun k _ _ => by omega⟩)
          · -- the row is hidden exactly if it holds the register renamed last
            have hhide : (inOrder s need arch phy n).mapVisible p = true →
                (p = ratReadPhyId (inOrder s need arch phy n) (arch n) ↔
                  (inOrder s need arch phy n).mapTable p = arch n) := fun hvisible => by
              rw [← cam_iff_read hprev harch hp, cam_iff]
              exact ⟨fun hcam => hcam.2.2, fun htable =>
                ⟨hprev.allocated p hp hvisible, hvisible, htable⟩⟩
            have hstep : Function.update (Function.update (inOrder s need arch phy n).mapVisible
                (phy n) true) (ratReadPhyId (inOrder s need arch phy n) (arch n)) false p = true ↔
                (inOrder s need arch phy n).mapVisible p = true ∧
                  (inOrder s need arch phy n).mapTable p ≠ arch n := by
              by_cases hold : p = ratReadPhyId (inOrder s need arch phy n) (arch n)
              · have htable := (read_row hprev harch).2.2
                rw [hold, Function.update_self]
                simp [htable]
              · rw [Function.update_of_ne hold, Function.update_of_ne hpn]
                exact ⟨fun hvisible => ⟨hvisible, fun htable => hold ((hhide hvisible).2 htable)⟩,
                  And.left⟩
            rw [hstep, hih]
            constructor
            · rintro ⟨⟨j, hj, hneedj, rfl, hlast⟩ | ⟨hvisible, hall⟩, htable⟩
              · rw [inOrder_table_slot hbefore hj hneedj] at htable
                refine Or.inl ⟨j, by omega, hneedj, rfl, fun k hjk hk hneedk => ?_⟩
                by_cases hkn : k = n
                · exact hkn ▸ htable.symm
                · exact hlast k hjk (by omega) hneedk
              · have hrow : ∀ j, j < n → need j = true → phy j ≠ p := fun j hj hneedj heq =>
                  Bool.false_ne_true ((heq ▸ hbefore.free j hj hneedj).symm.trans
                    (hs.allocated p hp hvisible))
                rw [inOrder_table_other hrow] at htable
                refine Or.inr ⟨hvisible, fun j hj hneedj => ?_⟩
                by_cases hjn : j = n
                · exact hjn ▸ htable.symm
                · exact hall j (by omega) hneedj
            · rintro (⟨j, hj, hneedj, rfl, hlast⟩ | ⟨hvisible, hall⟩)
              · have hjn : j < n := Nat.lt_of_le_of_ne (Nat.le_of_lt_succ hj) fun heq =>
                  hpn (congrArg phy heq)
                rw [inOrder_table_slot hbefore hjn hneedj]
                exact ⟨Or.inl ⟨j, hjn, hneedj, rfl, fun k hjk hk => hlast k hjk (by omega)⟩,
                  (hlast n hjn (Nat.lt_succ_self n) hneed).symm⟩
              · have hrow : ∀ j, j < n → need j = true → phy j ≠ p := fun j hj hneedj heq =>
                  Bool.false_ne_true ((heq ▸ hbefore.free j hj hneedj).symm.trans
                    (hs.allocated p hp hvisible))
                rw [inOrder_table_other hrow]
                exact ⟨Or.inr ⟨hvisible, fun j hj => hall j (by omega)⟩,
                  (hall n (Nat.lt_succ_self n) hneed).symm⟩

end InOrder

end DreamCore.Proofs
