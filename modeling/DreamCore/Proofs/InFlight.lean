import DreamCore.Proofs.RenameBundle
import DreamCore.Proofs.RetireCycle

/-!
# The instructions in flight

What the entries of the reorder buffer say about the register map: each entry was
renamed against the map the older ones left, and holds the binding it made.  The
chain is kept when write-back rewrites entries, when the oldest retire and when a
bundle is pushed.
-/

namespace DreamCore.Proofs

open DreamCore.Model DreamCore.Renaming DreamCore.Rtl

/-! ## Bindings of entries -/

def entryBinding (e : Entry InFlight) : List RegBinding :=
  if e.item.oldPhyRegIdValid then [⟨e.tag.op.rd, e.item.newPhyRegId⟩] else []

def bindings (es : List (Entry InFlight)) : List RegBinding := es.flatMap entryBinding

@[simp] theorem bindings_nil : bindings [] = [] := rfl

@[simp] theorem bindings_cons (e : Entry InFlight) (es : List (Entry InFlight)) :
    bindings (e :: es) = entryBinding e ++ bindings es := rfl

theorem bindings_append (es fs : List (Entry InFlight)) :
    bindings (es ++ fs) = bindings es ++ bindings fs := List.flatMap_append

theorem bindings_split (es : List (Entry InFlight)) (n : Nat) :
    bindings es = bindings (es.take n) ++ bindings (es.drop n) := by
  rw [← bindings_append, List.take_append_drop]

theorem bindings_length_le (es : List (Entry InFlight)) : (bindings es).length ≤ es.length := by
  induction es with
  | nil => exact Nat.le_refl 0
  | cons e es ih =>
      rw [bindings_cons, List.length_append, List.length_cons, entryBinding]
      split <;> simp <;> omega

theorem mem_bindings {b : RegBinding} {es : List (Entry InFlight)} :
    b ∈ bindings es ↔ ∃ e ∈ es, e.item.oldPhyRegIdValid = true ∧
      b = ⟨e.tag.op.rd, e.item.newPhyRegId⟩ := by
  rw [bindings, List.mem_flatMap]
  refine exists_congr fun e => and_congr_right fun _ => ?_
  rw [entryBinding]
  cases e.item.oldPhyRegIdValid <;> simp

/-! ## The chain of maps -/

/-- The entry was renamed when the register map was `m`. -/
structure RenamedFrom (m : RegMap) (e : Entry InFlight) : Prop where
  mapBefore : e.tag.mapBefore = m
  destination : e.item.oldPhyRegIdValid = true → e.tag.op.rd ∈ archRegs
  oldPhyRegId : e.item.oldPhyRegIdValid = true → e.item.oldPhyRegId = m e.tag.op.rd
  checkpoint : ∀ p, e.tag.checkpoint.ratPhyMapTableVisible p = true ↔
    p ∈ archRegs.map (bindAll m (entryBinding e))

/-- Each entry was renamed against the map the older ones left. -/
def Chain : RegMap → List (Entry InFlight) → Prop
  | _, [] => True
  | m, e :: es => RenamedFrom m e ∧ Chain (bindAll m (entryBinding e)) es

theorem chain_append {m : RegMap} {es fs : List (Entry InFlight)} :
    Chain m (es ++ fs) ↔ Chain m es ∧ Chain (bindAll m (bindings es)) fs := by
  induction es generalizing m with
  | nil => simp [Chain]
  | cons e es ih =>
      rw [List.cons_append, Chain, Chain, ih, bindings_cons, bindAll_append, and_assoc]

theorem Chain.get {m : RegMap} {es : List (Entry InFlight)} (h : Chain m es) {k : Nat}
    (hk : k < es.length) : RenamedFrom (bindAll m (bindings (es.take k))) es[k] := by
  induction es generalizing m k with
  | nil => simp at hk
  | cons e es ih =>
      cases k with
      | zero => exact h.1
      | succ k =>
          simp only [List.getElem_cons_succ, List.take_succ_cons, bindings_cons, bindAll_append]
          exact ih h.2 (by simpa using hk)

theorem Chain.split {m : RegMap} {es : List (Entry InFlight)} (h : Chain m es) (n : Nat) :
    Chain m (es.take n) ∧ Chain (bindAll m (bindings (es.take n))) (es.drop n) :=
  chain_append.1 ((List.take_append_drop n es).symm ▸ h)

theorem bindings_take_succ {es : List (Entry InFlight)} {k : Nat} (hk : k < es.length) :
    bindings (es.take (k + 1)) = bindings (es.take k) ++ entryBinding es[k] := by
  rw [List.take_succ_eq_append_getElem hk, bindings_append, bindings_cons, bindings_nil,
    List.append_nil]

theorem Chain.arch_mem {m : RegMap} {es : List (Entry InFlight)} (h : Chain m es) :
    ∀ b ∈ bindings es, b.arch ∈ archRegs := by
  intro b hb
  obtain ⟨e, he, hold, rfl⟩ := mem_bindings.1 hb
  obtain ⟨k, hk, rfl⟩ := List.mem_iff_getElem.1 he
  exact (h.get hk).destination hold

/-- What the entries displaced is what they recorded as their old registers. -/
theorem Chain.displaced_eq {m : RegMap} {es : List (Entry InFlight)} (h : Chain m es) :
    displaced m (bindings es) =
      (es.filter (·.item.oldPhyRegIdValid)).map (·.item.oldPhyRegId) := by
  induction es generalizing m with
  | nil => rfl
  | cons e es ih =>
      rw [bindings_cons, displaced_append, ih h.2]
      cases hold : e.item.oldPhyRegIdValid with
      | false => simp [entryBinding, hold, displaced]
      | true => simp [entryBinding, hold, displaced, h.1.oldPhyRegId hold]

theorem Chain.mem_displaced {m : RegMap} {es : List (Entry InFlight)} (h : Chain m es) {p : Nat} :
    p ∈ displaced m (bindings es) ↔
      ∃ e ∈ es, e.item.oldPhyRegIdValid = true ∧ e.item.oldPhyRegId = p := by
  simp [h.displaced_eq, List.mem_map, List.mem_filter, and_assoc]

/-! ## Rewriting entries in place -/

/-- An entry after write-back: the same instruction with the same registers. -/
structure SameRenaming (e e' : Entry InFlight) : Prop where
  tag : e'.tag = e.tag
  newPhyRegId : e'.item.newPhyRegId = e.item.newPhyRegId
  oldPhyRegId : e'.item.oldPhyRegId = e.item.oldPhyRegId
  oldPhyRegIdValid : e'.item.oldPhyRegIdValid = e.item.oldPhyRegIdValid

theorem SameRenaming.entryBinding {e e' : Entry InFlight} (h : SameRenaming e e') :
    entryBinding e' = entryBinding e := by
  rw [Proofs.entryBinding, Proofs.entryBinding, h.oldPhyRegIdValid, h.tag, h.newPhyRegId]

theorem SameRenaming.renamedFrom {e e' : Entry InFlight} (h : SameRenaming e e') {m : RegMap}
    (hfrom : RenamedFrom m e) : RenamedFrom m e' := by
  refine ⟨?_, fun hold => ?_, fun hold => ?_, ?_⟩
  · rw [h.tag, hfrom.mapBefore]
  · rw [h.oldPhyRegIdValid] at hold
    exact h.tag ▸ hfrom.destination hold
  · rw [h.oldPhyRegIdValid] at hold
    rw [h.oldPhyRegId, h.tag]
    exact hfrom.oldPhyRegId hold
  · rw [h.entryBinding, h.tag]
    exact hfrom.checkpoint

theorem sameRenaming_mapIdx {update : Nat → Entry InFlight → Entry InFlight}
    {es : List (Entry InFlight)}
    (h : ∀ k (hk : k < es.length), SameRenaming es[k] (update k es[k])) :
    List.Forall₂ SameRenaming es (es.mapIdx update) := by
  rw [List.forall₂_iff_get]
  exact ⟨by simp, fun k hk hk' => by simpa using h k hk⟩

theorem bindings_rewrite {es es' : List (Entry InFlight)} (h : List.Forall₂ SameRenaming es es') :
    bindings es' = bindings es := by
  induction h with
  | nil => rfl
  | cons he _ ih => rw [bindings_cons, bindings_cons, he.entryBinding, ih]

theorem Chain.rewrite {es es' : List (Entry InFlight)} (h : List.Forall₂ SameRenaming es es')
    {m : RegMap} (hchain : Chain m es) : Chain m es' := by
  induction h generalizing m with
  | nil => trivial
  | cons he _ ih =>
      refine ⟨he.renamedFrom hchain.1, ?_⟩
      rw [he.entryBinding]
      exact ih hchain.2

/-! ## Pushing a bundle -/

section Push

variable {r : RenameInput} {m : RegMap}

/-- The entries of the slots below `n` that are pushed. -/
def pushedTo (r : RenameInput) (n : Nat) : List (Entry InFlight) :=
  ((List.range n).filter r.renameRobDataValid).map (pushedEntry r)

theorem pushedTo_succ (r : RenameInput) (n : Nat) :
    pushedTo r (n + 1) =
      pushedTo r n ++ if r.renameRobDataValid n then [pushedEntry r n] else [] := by
  rw [pushedTo, pushedTo, List.range_succ, List.filter_append, List.map_append]
  cases hdata : r.renameRobDataValid n <;> simp [hdata]

theorem pushedEntries_eq (hpush : r.renameRobPush = true) :
    pushedEntries r = pushedTo r renameWidth := if_pos hpush

/-- A pushed slot records an old register when it binds a new one. -/
theorem oldPhyRegIdValid_eq (h : BundleOk r m) {i : Nat} (hi : i < renameWidth)
    (hdata : r.renameRobDataValid i = true) :
    r.oldPhyRegIdValid i = r.renameRatPhyIdValid i := by
  simp only [RenameInput.renameRobDataValid, Bool.and_eq_true] at hdata
  rw [Bool.eq_iff_iff, binds_iff h hi]
  exact (and_iff_left hdata.1).symm

theorem pushedEntry_binding (h : BundleOk r m) {i : Nat} (hi : i < renameWidth)
    (hdata : r.renameRobDataValid i = true) :
    entryBinding (pushedEntry r i) =
      if r.renameRatPhyIdValid i then [⟨(r.revPack i).rd, r.newPhyId i⟩] else [] := by
  simp only [entryBinding, pushedEntry, RenameInput.robItem, oldPhyRegIdValid_eq h hi hdata]

theorem bindings_pushedTo (h : BundleOk r m) {n : Nat} (hn : n ≤ renameWidth) :
    bindings (pushedTo r n) = slotBindings r n := by
  induction n with
  | zero => rfl
  | succ n ih =>
      rw [pushedTo_succ, bindings_append, ih (by omega), slotBindings, slotBindings,
        channelBindings]
      congr 1
      cases hdata : r.renameRobDataValid n with
      | true =>
          simp only [if_true, bindings_cons, bindings_nil, List.append_nil]
          exact pushedEntry_binding h (by omega) hdata
      | false =>
          have hno : r.renameRatPhyIdValid n = false := by
            rw [Bool.eq_false_iff]
            intro hbinds
            have hsend := (Bool.and_eq_true_iff.1 hbinds).1
            have hgrant := ((sendEnable_iff h (by omega)).1 hsend).2
            simp [RenameInput.renameRobDataValid, hsend, hgrant] at hdata
          simp [hno]

/-- A pushed entry was renamed against the map right before its slot. -/
theorem pushedEntry_renamedFrom (h : BundleOk r m) {i : Nat} (hi : i < renameWidth)
    (hdata : r.renameRobDataValid i = true) :
    RenamedFrom (bundleMap r i) (pushedEntry r i) := by
  have hsend : r.sendEnable i = true := (Bool.and_eq_true_iff.1 hdata).2
  refine ⟨rfl, fun hold => ?_, fun hold => oldPhyRegId_eq h hi hsend, fun p => ?_⟩
  · have hbinds : r.renameRatPhyIdValid i = true := (oldPhyRegIdValid_eq h hi hdata).symm.trans hold
    exact binds_arch h hi hbinds
  · have hcp : (pushedEntry r i).tag.checkpoint = r.newCp i := rfl
    rw [hcp, newCp_visible_iff h hi, pushedEntry_binding h hi hdata, bundleMap]
    cases r.renameRatPhyIdValid i <;> rfl

theorem chain_pushedTo (h : BundleOk r m) {n : Nat} (hn : n ≤ renameWidth) :
    Chain m (pushedTo r n) := by
  induction n with
  | zero => trivial
  | succ n ih =>
      rw [pushedTo_succ, chain_append]
      refine ⟨ih (by omega), ?_⟩
      rw [bindings_pushedTo h (by omega), ← h.read, ← bundleMap_eq]
      cases hdata : r.renameRobDataValid n with
      | true => exact ⟨pushedEntry_renamedFrom h (by omega) hdata, trivial⟩
      | false => trivial

end Push

end DreamCore.Proofs
