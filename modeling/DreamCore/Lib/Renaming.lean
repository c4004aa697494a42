import Mathlib.Data.List.Perm.Basic
import Mathlib.Data.List.Nodup
import Mathlib.Logic.Function.Basic

/-!
# Renaming with undo information

A map from names to cells changes by binding a name to a fresh cell.  The pending
bindings form a list, oldest first; each displaces the cell its name had before.
Retiring bindings from the front frees what they displaced, undoing them from the
back frees what they bound, and rolling back to the map after some binding frees
everything younger.
-/

namespace DreamCore.Renaming

variable {A P : Type} [DecidableEq A]

structure Binding (A P : Type) where
  arch : A
  phy : P

def bind (m : A → P) (b : Binding A P) : A → P := Function.update m b.arch b.phy

def bindAll (m : A → P) (bs : List (Binding A P)) : A → P := bs.foldl bind m

/-- The cells displaced by the bindings, oldest first. -/
def displaced (m : A → P) : List (Binding A P) → List P
  | [] => []
  | b :: bs => m b.arch :: displaced (bind m b) bs

/-- The cells in use: those of the oldest map and those bound since. -/
def allocated (archs : List A) (m : A → P) (bs : List (Binding A P)) : List P :=
  archs.map m ++ bs.map (·.phy)

@[simp] theorem bindAll_nil (m : A → P) : bindAll m [] = m := rfl

@[simp] theorem bindAll_cons (m : A → P) (b : Binding A P) (bs : List (Binding A P)) :
    bindAll m (b :: bs) = bindAll (bind m b) bs := rfl

theorem bindAll_append (m : A → P) (bs cs : List (Binding A P)) :
    bindAll m (bs ++ cs) = bindAll (bindAll m bs) cs := by
  simp [bindAll]

theorem bind_of_ne {m : A → P} {b : Binding A P} {a : A} (h : a ≠ b.arch) :
    bind m b a = m a := Function.update_of_ne h _ _

@[simp] theorem bind_arch (m : A → P) (b : Binding A P) : bind m b b.arch = b.phy :=
  Function.update_self ..

theorem displaced_append (m : A → P) (bs cs : List (Binding A P)) :
    displaced m (bs ++ cs) = displaced m bs ++ displaced (bindAll m bs) cs := by
  induction bs generalizing m with
  | nil => rfl
  | cons b bs ih => simp [displaced, ih]

/-- Names outside the set keep their cell. -/
theorem bindAll_of_not_mem {archs : List A} {m : A → P} {bs : List (Binding A P)}
    (hbs : ∀ b ∈ bs, b.arch ∈ archs) {a : A} (ha : a ∉ archs) : bindAll m bs a = m a := by
  induction bs generalizing m with
  | nil => rfl
  | cons b bs ih =>
      rw [bindAll_cons, ih fun b hb => hbs b (List.mem_cons_of_mem _ hb), bind_of_ne]
      rintro rfl
      exact ha (hbs b (List.mem_cons_self ..))

/-! ## Counting cells -/

/-- A name keeps its cell or got it from one of the bindings. -/
theorem bindAll_cases (m : A → P) (bs : List (Binding A P)) (a : A) :
    bindAll m bs a = m a ∨ ∃ b ∈ bs, b.arch = a ∧ bindAll m bs a = b.phy := by
  induction bs generalizing m with
  | nil => exact Or.inl rfl
  | cons b bs ih =>
      rw [bindAll_cons]
      rcases ih (bind m b) with hkept | ⟨c, hc, harch, hphy⟩
      · rw [hkept]
        by_cases heq : a = b.arch
        · exact Or.inr ⟨b, List.mem_cons_self, heq.symm, by rw [heq, bind_arch]⟩
        · exact Or.inl (bind_of_ne heq)
      · exact Or.inr ⟨c, List.mem_cons_of_mem _ hc, harch, hphy⟩

theorem bind_perm {archs : List A} (hnd : archs.Nodup) (m : A → P) {b : Binding A P}
    (hb : b.arch ∈ archs) :
    (b.phy :: archs.map m).Perm (m b.arch :: archs.map (bind m b)) := by
  induction archs with
  | nil => simp at hb
  | cons a archs ih =>
      rw [List.nodup_cons] at hnd
      by_cases ha : b.arch = a
      · subst ha
        have hsame : archs.map (bind m b) = archs.map m :=
          List.map_congr_left fun a ha => bind_of_ne fun heq => hnd.1 (heq ▸ ha)
        rw [List.map_cons, List.map_cons, hsame, bind_arch]
        exact List.Perm.swap ..
      · have hmem : b.arch ∈ archs := (List.mem_cons.1 hb).resolve_left ha
        rw [List.map_cons, List.map_cons, bind_of_ne (Ne.symm ha)]
        calc (b.phy :: m a :: archs.map m).Perm (m a :: b.phy :: archs.map m) :=
              List.Perm.swap ..
          _ |>.Perm (m a :: m b.arch :: archs.map (bind m b)) := (ih hnd.2 hmem).cons _
          _ |>.Perm (m b.arch :: m a :: archs.map (bind m b)) := List.Perm.swap ..

/-- What is in use is the current map together with everything displaced. -/
theorem allocated_perm {archs : List A} (hnd : archs.Nodup) {m : A → P}
    {bs : List (Binding A P)} (hbs : ∀ b ∈ bs, b.arch ∈ archs) :
    (allocated archs m bs).Perm (archs.map (bindAll m bs) ++ displaced m bs) := by
  induction bs generalizing m with
  | nil => simp [allocated, displaced]
  | cons b bs ih =>
      have hstep := ih (m := bind m b) fun b hb => hbs b (List.mem_cons_of_mem _ hb)
      have hb := bind_perm hnd m (hbs b (List.mem_cons_self ..))
      calc (archs.map m ++ b.phy :: bs.map (·.phy)).Perm
            (b.phy :: archs.map m ++ bs.map (·.phy)) := List.perm_middle
        _ |>.Perm (m b.arch :: archs.map (bind m b) ++ bs.map (·.phy)) := hb.append_right _
        _ |>.Perm (m b.arch :: (archs.map (bindAll (bind m b) bs) ++ displaced (bind m b) bs)) :=
            hstep.cons _
        _ |>.Perm (archs.map (bindAll (bind m b) bs) ++
              m b.arch :: displaced (bind m b) bs) := List.perm_middle.symm

/-- Retiring the front bindings takes exactly what they displaced out of use. -/
theorem allocated_retire {archs : List A} (hnd : archs.Nodup) {m : A → P}
    {bs : List (Binding A P)} (cs : List (Binding A P)) (hbs : ∀ b ∈ bs, b.arch ∈ archs) :
    (allocated archs m (bs ++ cs)).Perm (displaced m bs ++ allocated archs (bindAll m bs) cs) := by
  have h := allocated_perm hnd (m := m) hbs
  rw [allocated, List.map_append, ← List.append_assoc]
  calc (archs.map m ++ bs.map (·.phy) ++ cs.map (·.phy)).Perm
        (archs.map (bindAll m bs) ++ displaced m bs ++ cs.map (·.phy)) := h.append_right _
    _ |>.Perm (displaced m bs ++ archs.map (bindAll m bs) ++ cs.map (·.phy)) :=
        List.perm_append_comm.append_right _
    _ |>.Perm (displaced m bs ++ allocated archs (bindAll m bs) cs) := by
        rw [List.append_assoc]
        exact List.Perm.refl _

/-! ## Parallel channels -/

section Channels

variable {req : Nat → Bool} {arch : Nat → A} {phy : Nat → P}

/-- The bindings requested by the first `n` channels, lowest channel first. -/
def channelBindings (req : Nat → Bool) (arch : Nat → A) (phy : Nat → P) :
    Nat → List (Binding A P)
  | 0 => []
  | n + 1 => channelBindings req arch phy n ++ if req n then [⟨arch n, phy n⟩] else []

omit [DecidableEq A] in
theorem mem_channelBindings {n : Nat} {b : Binding A P} :
    b ∈ channelBindings req arch phy n ↔ ∃ j, j < n ∧ req j = true ∧ b = ⟨arch j, phy j⟩ := by
  induction n with
  | zero => simp [channelBindings]
  | succ n ih =>
      rw [channelBindings, List.mem_append, ih]
      constructor
      · rintro (⟨j, hj, hreq, rfl⟩ | hb)
        · exact ⟨j, by omega, hreq, rfl⟩
        · split at hb
          · exact ⟨n, by omega, ‹_›, List.mem_singleton.1 hb⟩
          · simp at hb
      · rintro ⟨j, hj, hreq, rfl⟩
        rcases Nat.lt_succ_iff_lt_or_eq.1 hj with hlt | rfl
        · exact Or.inl ⟨j, hlt, hreq, rfl⟩
        · exact Or.inr (by simp [hreq])

omit [DecidableEq A] in
theorem channelBindings_nodup {n : Nat}
    (hinj : ∀ i j, i < j → j < n → req i = true → req j = true → phy i ≠ phy j) :
    ((channelBindings req arch phy n).map (·.phy)).Nodup := by
  induction n with
  | zero => simp [channelBindings]
  | succ n ih =>
      rw [channelBindings, List.map_append, List.nodup_append]
      refine ⟨ih fun i j hij hj => hinj i j hij (by omega), ?_, ?_⟩
      · split <;> simp
      · intro p hp q hq heq
        obtain ⟨b, hb, rfl⟩ := List.mem_map.1 hp
        obtain ⟨j, hj, hreq, rfl⟩ := mem_channelBindings.1 hb
        split at hq
        · have hn := ‹req n = true›
          simp only [List.map_cons, List.map_nil, List.mem_singleton] at hq
          exact hinj j n hj (by omega) hreq hn (heq.trans hq)
        · simp at hq

theorem bindAll_channelBindings_succ (m : A → P) (n : Nat) :
    bindAll m (channelBindings req arch phy (n + 1)) =
      if req n then bind (bindAll m (channelBindings req arch phy n)) ⟨arch n, phy n⟩
      else bindAll m (channelBindings req arch phy n) := by
  rw [channelBindings, bindAll_append]
  split <;> rfl

/-- A cell is current after the bundle if the last channel for its name bound it,
or if it was current and no channel names it. -/
theorem mem_map_bindAll_channels {archs : List A} {m : A → P} {n : Nat}
    (harch : ∀ j, j < n → req j = true → arch j ∈ archs) {p : P} :
    p ∈ archs.map (bindAll m (channelBindings req arch phy n)) ↔
      (∃ j, j < n ∧ req j = true ∧ p = phy j ∧
        ∀ k, j < k → k < n → req k = true → arch k ≠ arch j) ∨
      ∃ a, a ∈ archs ∧ p = m a ∧ ∀ j, j < n → req j = true → arch j ≠ a := by
  have hlookup : ∀ a ∈ archs, p = bindAll m (channelBindings req arch phy n) a ↔
      (∃ j, j < n ∧ req j = true ∧ arch j = a ∧ p = phy j ∧
        ∀ k, j < k → k < n → req k = true → arch k ≠ a) ∨
      (p = m a ∧ ∀ j, j < n → req j = true → arch j ≠ a) := by
    intro a _
    clear harch
    induction n with
    | zero => simp [channelBindings]
    | succ n ih =>
        rw [bindAll_channelBindings_succ]
        by_cases hreq : req n = true
        · rw [if_pos hreq]
          by_cases heq : a = arch n
          · subst heq
            rw [bind_arch]
            constructor
            · rintro rfl
              exact Or.inl ⟨n, by omega, hreq, rfl, rfl, fun k hk hk' => by omega⟩
            · rintro (⟨j, hj, _, _, hp, hlast⟩ | ⟨_, hnone⟩)
              · rcases Nat.lt_succ_iff_lt_or_eq.1 hj with hlt | rfl
                · exact absurd rfl (hlast n hlt (by omega) hreq)
                · exact hp
              · exact absurd rfl (hnone n (by omega) hreq)
          · rw [bind_of_ne heq, ih]
            constructor
            · rintro (⟨j, hj, hj', ha, hp, hlast⟩ | ⟨hp, hnone⟩)
              · refine Or.inl ⟨j, by omega, hj', ha, hp, fun k hk hk' hreqk => ?_⟩
                rcases Nat.lt_succ_iff_lt_or_eq.1 hk' with hlt | rfl
                · exact hlast k hk hlt hreqk
                · exact Ne.symm heq
              · refine Or.inr ⟨hp, fun j hj hreqj => ?_⟩
                rcases Nat.lt_succ_iff_lt_or_eq.1 hj with hlt | rfl
                · exact hnone j hlt hreqj
                · exact Ne.symm heq
            · rintro (⟨j, hj, hj', ha, hp, hlast⟩ | ⟨hp, hnone⟩)
              · have hlt : j < n := by
                  rcases Nat.lt_succ_iff_lt_or_eq.1 hj with hlt | rfl
                  · exact hlt
                  · exact absurd ha.symm heq
                exact Or.inl ⟨j, hlt, hj', ha, hp, fun k hk hk' => hlast k hk (by omega)⟩
              · exact Or.inr ⟨hp, fun j hj => hnone j (by omega)⟩
        · rw [if_neg hreq, ih]
          constructor
          · rintro (⟨j, hj, hj', ha, hp, hlast⟩ | ⟨hp, hnone⟩)
            · refine Or.inl ⟨j, by omega, hj', ha, hp, fun k hk hk' hreqk => ?_⟩
              rcases Nat.lt_succ_iff_lt_or_eq.1 hk' with hlt | rfl
              · exact hlast k hk hlt hreqk
              · exact absurd hreqk hreq
            · refine Or.inr ⟨hp, fun j hj hreqj => ?_⟩
              rcases Nat.lt_succ_iff_lt_or_eq.1 hj with hlt | rfl
              · exact hnone j hlt hreqj
              · exact absurd hreqj hreq
          · rintro (⟨j, hj, hj', ha, hp, hlast⟩ | ⟨hp, hnone⟩)
            · have hlt : j < n := by
                rcases Nat.lt_succ_iff_lt_or_eq.1 hj with hlt | rfl
                · exact hlt
                · exact absurd hj' hreq
              exact Or.inl ⟨j, hlt, hj', ha, hp, fun k hk hk' => hlast k hk (by omega)⟩
            · exact Or.inr ⟨hp, fun j hj => hnone j (by omega)⟩
  rw [List.mem_map]
  constructor
  · rintro ⟨a, ha, rfl⟩
    rcases (hlookup a ha).1 rfl with ⟨j, hj, hreq, rfl, hp, hlast⟩ | ⟨hp, hnone⟩
    · exact Or.inl ⟨j, hj, hreq, hp, hlast⟩
    · exact Or.inr ⟨a, ha, hp, hnone⟩
  · rintro (⟨j, hj, hreq, hp, hlast⟩ | ⟨a, ha, hp, hnone⟩)
    · have ha := harch j hj hreq
      exact ⟨arch j, ha, ((hlookup _ ha).2 (Or.inl ⟨j, hj, hreq, rfl, hp, hlast⟩)).symm⟩
    · exact ⟨a, ha, ((hlookup a ha).2 (Or.inr ⟨hp, hnone⟩)).symm⟩

end Channels

/-! ## A table that implements a map with pending bindings -/

/-- The table's rows are cells: the name a cell was bound for, whether it is in
use and whether it is current. -/
structure Sound (archs : List A) (table : P → A) (valid visible : P → Prop) (m : A → P)
    (bs : List (Binding A P)) : Prop where
  nodup : (allocated archs m bs).Nodup
  arch_mem : ∀ b ∈ bs, b.arch ∈ archs
  valid_iff : ∀ p, valid p ↔ p ∈ allocated archs m bs
  visible_iff : ∀ p, visible p ↔ p ∈ archs.map (bindAll m bs)
  table_map : ∀ a ∈ archs, table (m a) = a
  table_phy : ∀ b ∈ bs, table b.phy = b.arch

section Table

variable {archs : List A} {table table' : P → A} {valid visible valid' visible' : P → Prop}
  {m : A → P} {bs cs : List (Binding A P)}

/-- Every map on the way names its own cells. -/
theorem table_bindAll (hmap : ∀ a ∈ archs, table (m a) = a)
    (hphy : ∀ b ∈ bs, table b.phy = b.arch) {a : A} (ha : a ∈ archs) :
    table (bindAll m bs a) = a := by
  induction bs generalizing m with
  | nil => exact hmap a ha
  | cons b bs ih =>
      refine ih (m := bind m b) (fun a' ha' => ?_) fun b hb => hphy b (List.mem_cons_of_mem _ hb)
      by_cases heq : a' = b.arch
      · subst heq
        rw [bind_arch]
        exact hphy b (List.mem_cons_self ..)
      · rw [bind_of_ne heq]
        exact hmap a' ha'

namespace Sound

theorem table_current (h : Sound archs table valid visible m bs) {a : A} (ha : a ∈ archs) :
    table (bindAll m bs a) = a := table_bindAll h.table_map h.table_phy ha

theorem visible_current (h : Sound archs table valid visible m bs) {a : A} (ha : a ∈ archs) :
    visible (bindAll m bs a) := (h.visible_iff _).2 (List.mem_map_of_mem ha)

/-- A name is looked up in exactly one current row. -/
theorem lookup_iff (h : Sound archs table valid visible m bs) {a : A} (ha : a ∈ archs) {p : P} :
    visible p ∧ table p = a ↔ p = bindAll m bs a := by
  constructor
  · rintro ⟨hvis, htable⟩
    obtain ⟨a', ha', rfl⟩ := List.mem_map.1 ((h.visible_iff p).1 hvis)
    rw [h.table_current ha'] at htable
    rw [htable]
  · rintro rfl
    exact ⟨h.visible_current ha, h.table_current ha⟩

theorem table_visible (h : Sound archs table valid visible m bs) {p : P} (hvis : visible p) :
    table p ∈ archs := by
  obtain ⟨a, ha, rfl⟩ := List.mem_map.1 ((h.visible_iff p).1 hvis)
  rwa [h.table_current ha]

theorem valid_split (h : Sound archs table valid visible m bs) (hnd : archs.Nodup) (p : P) :
    valid p ↔ visible p ∨ p ∈ displaced m bs := by
  rw [h.valid_iff, (allocated_perm hnd h.arch_mem).mem_iff, List.mem_append, h.visible_iff]

theorem valid_of_visible (h : Sound archs table valid visible m bs) (hnd : archs.Nodup) {p : P}
    (hvis : visible p) : valid p := (h.valid_split hnd p).2 (Or.inl hvis)

/-- The current cells and the displaced ones, all different. -/
theorem split_nodup (h : Sound archs table valid visible m bs) (hnd : archs.Nodup) :
    (archs.map (bindAll m bs) ++ displaced m bs).Nodup :=
  (allocated_perm hnd h.arch_mem).nodup_iff.1 h.nodup

theorem not_visible_displaced (h : Sound archs table valid visible m bs) (hnd : archs.Nodup)
    {p : P} (hp : p ∈ displaced m bs) : ¬visible p := by
  rw [h.visible_iff]
  intro hvis
  exact (List.nodup_append.1 (h.split_nodup hnd)).2.2 p hvis p hp rfl

/-- Retiring front bindings. -/
theorem retire (h : Sound archs table valid visible m (bs ++ cs)) (hnd : archs.Nodup)
    (hvalid : ∀ p, valid' p ↔ valid p ∧ p ∉ displaced m bs) :
    Sound archs table valid' visible (bindAll m bs) cs := by
  have hbs : ∀ b ∈ bs, b.arch ∈ archs := fun b hb => h.arch_mem b (List.mem_append_left _ hb)
  have hperm := allocated_retire hnd (m := m) cs hbs
  have hsplit := hperm.nodup_iff.1 h.nodup
  refine ⟨(List.nodup_append.1 hsplit).2.1,
    fun b hb => h.arch_mem b (List.mem_append_right _ hb), fun p => ?_, ?_, fun a ha => ?_,
    fun b hb => h.table_phy b (List.mem_append_right _ hb)⟩
  · rw [hvalid, h.valid_iff, hperm.mem_iff, List.mem_append]
    constructor
    · rintro ⟨hor, hno⟩
      exact hor.resolve_left hno
    · intro hp
      exact ⟨Or.inr hp, fun hd => (List.nodup_append.1 hsplit).2.2 p hd p hp rfl⟩
  · simpa only [bindAll_append] using h.visible_iff
  · exact table_bindAll h.table_map
      (fun b hb => h.table_phy b (List.mem_append_left _ hb)) ha

/-- Binding fresh cells at the back. -/
theorem push (h : Sound archs table valid visible m bs) (hfresh : ∀ c ∈ cs, ¬valid c.phy)
    (hcs : (cs.map (·.phy)).Nodup) (harch : ∀ c ∈ cs, c.arch ∈ archs)
    (hvalid : ∀ p, valid' p ↔ valid p ∨ p ∈ cs.map (·.phy))
    (hvisible : ∀ p, visible' p ↔ p ∈ archs.map (bindAll (bindAll m bs) cs))
    (hkeep : ∀ p, valid p → table' p = table p)
    (hnew : ∀ c ∈ cs, table' c.phy = c.arch) :
    Sound archs table' valid' visible' m (bs ++ cs) := by
  have hcells : allocated archs m (bs ++ cs) = allocated archs m bs ++ cs.map (·.phy) := by
    simp [allocated]
  have hmem : ∀ a ∈ archs, valid (m a) := fun a ha =>
    (h.valid_iff _).2 (List.mem_append_left _ (List.mem_map_of_mem ha))
  refine ⟨?_, fun b hb => ?_, fun p => ?_, fun p => ?_, fun a ha => ?_, fun b hb => ?_⟩
  · rw [hcells, List.nodup_append]
    refine ⟨h.nodup, hcs, fun p hp q hq heq => ?_⟩
    obtain ⟨c, hc, rfl⟩ := List.mem_map.1 hq
    exact hfresh c hc ((h.valid_iff _).2 (heq ▸ hp))
  · rcases List.mem_append.1 hb with hb | hb
    · exact h.arch_mem b hb
    · exact harch b hb
  · rw [hvalid, h.valid_iff, hcells, List.mem_append]
  · rw [hvisible, bindAll_append]
  · rw [hkeep _ (hmem a ha), h.table_map a ha]
  · rcases List.mem_append.1 hb with hb | hb
    · rw [hkeep, h.table_phy b hb]
      exact (h.valid_iff _).2 (List.mem_append_right _ (List.mem_map_of_mem hb))
    · exact hnew b hb

/-- Undoing the youngest binding. -/
theorem undo {c : Binding A P} (h : Sound archs table valid visible m (bs ++ [c]))
    (hnd : archs.Nodup)
    (hvalid : ∀ p, valid' p ↔ p ≠ c.phy ∧ (p = bindAll m bs c.arch ∨ valid p))
    (hvisible : ∀ p, visible' p ↔ p ≠ c.phy ∧ (p = bindAll m bs c.arch ∨ visible p)) :
    Sound archs table valid' visible' m bs := by
  have hc : c.arch ∈ archs := h.arch_mem c (by simp)
  have hbs : ∀ b ∈ bs, b.arch ∈ archs := fun b hb => h.arch_mem b (List.mem_append_left _ hb)
  have hcells : allocated archs m (bs ++ [c]) = allocated archs m bs ++ [c.phy] := by
    simp [allocated]
  have hnodup := h.nodup
  rw [hcells, List.nodup_append] at hnodup
  have hfresh : c.phy ∉ allocated archs m bs := fun hp =>
    hnodup.2.2 _ hp _ (List.mem_singleton.2 rfl) rfl
  have hcurrent : ∀ a ∈ archs, bindAll m bs a ∈ allocated archs m bs := fun a ha =>
    (allocated_perm hnd hbs).mem_iff.2 (List.mem_append_left _ (List.mem_map_of_mem ha))
  refine ⟨hnodup.1, hbs, fun p => ?_, fun p => ?_, h.table_map,
    fun b hb => h.table_phy b (List.mem_append_left _ hb)⟩
  · rw [hvalid, h.valid_iff, hcells, List.mem_append, List.mem_singleton]
    constructor
    · rintro ⟨hne, rfl | hp | rfl⟩
      · exact hcurrent _ hc
      · exact hp
      · exact absurd rfl hne
    · intro hp
      exact ⟨fun heq => hfresh (heq ▸ hp), Or.inr (Or.inl hp)⟩
  · rw [hvisible, h.visible_iff, bindAll_append]
    constructor
    · rintro ⟨hne, rfl | hp⟩
      · exact List.mem_map_of_mem hc
      · obtain ⟨a, ha, rfl⟩ := List.mem_map.1 hp
        by_cases heq : a = c.arch
        · subst heq
          exact absurd (bind_arch _ c) hne
        · exact List.mem_map.2 ⟨a, ha, (bind_of_ne heq).symm⟩
    · intro hp
      obtain ⟨a, ha, rfl⟩ := List.mem_map.1 hp
      refine ⟨fun heq => hfresh (heq ▸ hcurrent a ha), ?_⟩
      by_cases heq : a = c.arch
      · exact Or.inl (by rw [heq])
      · exact Or.inr (List.mem_map.2 ⟨a, ha, bind_of_ne heq⟩)

/-- Rolling back to the map after the front bindings. -/
theorem restore (h : Sound archs table valid visible m (bs ++ cs)) (hnd : archs.Nodup)
    (hvalid : ∀ p, valid' p ↔ p ∈ archs.map (bindAll m bs))
    (hvisible : ∀ p, visible' p ↔ p ∈ archs.map (bindAll m bs)) :
    Sound archs table valid' visible' (bindAll m bs) [] := by
  have hbs : ∀ b ∈ bs, b.arch ∈ archs := fun b hb => h.arch_mem b (List.mem_append_left _ hb)
  have hsplit := (allocated_retire hnd (m := m) cs hbs).nodup_iff.1 h.nodup
  have hcells := (List.nodup_append.1 (List.nodup_append.1 hsplit).2.1).1
  refine ⟨by simpa [allocated] using hcells, by simp, fun p => ?_, fun p => ?_,
    fun a ha => ?_, by simp⟩
  · rw [hvalid]
    simp [allocated]
  · rw [hvisible, bindAll_nil]
  · exact table_bindAll h.table_map
      (fun b hb => h.table_phy b (List.mem_append_left _ hb)) ha

/-- What the rollback frees: nothing bound after the front bindings stays current. -/
theorem younger_not_mem (h : Sound archs table valid visible m (bs ++ cs)) (hnd : archs.Nodup)
    {c : Binding A P} (hc : c ∈ cs) : c.phy ∉ archs.map (bindAll m bs) := by
  have hbs : ∀ b ∈ bs, b.arch ∈ archs := fun b hb => h.arch_mem b (List.mem_append_left _ hb)
  have hsplit := (allocated_retire hnd (m := m) cs hbs).nodup_iff.1 h.nodup
  have hcells := (List.nodup_append.1 hsplit).2.1
  intro hmem
  exact (List.nodup_append.1 hcells).2.2 _ hmem _ (List.mem_map_of_mem hc) rfl

end Sound

end Table

end DreamCore.Renaming
