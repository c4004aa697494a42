import DreamCore.Proofs.BackendInvariant

/-!
# One cycle keeps the invariant

A cycle in the normal state moves the oldest map over what retires and appends what
rename pushes; a misprediction falls back to the map behind the branch; a trap
starts the walk and every cycle of the walk undoes one entry.
-/

namespace DreamCore.Proofs

open DreamCore.Model DreamCore.Renaming DreamCore.Rtl

section Step

variable {cp : Nat → Checkpoint} {m : RegMap} {s : BackendState} {input : BackendInput}

/-! ## Retirement as the tables see it -/

/-- The number of entries that leave the buffer. -/
abbrev pops (cp : Nat → Checkpoint) (s : BackendState) (input : BackendInput) : Nat :=
  popCount s.commit (backendCommitInput cp s input)

/-- The map right after the entries that leave. -/
def retiredMap (m : RegMap) (s : BackendState) (n : Nat) : RegMap :=
  bindAll m (bindings (s.rob.entries.take n))

theorem pops_le (h : Settled m s) : pops cp s input ≤ s.rob.entries.length :=
  popCount_le (backend_view cp input h.rob)

/-- A slot gives its old register back when it leaves the buffer. -/
theorem commitPhyfInvalid_iff (h : Settled m s) {i : Nat} (hi : i < commitWidth) :
    commitPhyfInvalid s.commit (backendCommitInput cp s input) i = true ↔
      i < pops cp s input ∧ ∃ hlt : i < s.rob.entries.length,
        s.rob.entries[i].item.oldPhyRegIdValid = true := by
  have hsplit : commitPhyfInvalid s.commit (backendCommitInput cp s input) i =
      (commitRobRetirePop s.commit (backendCommitInput cp s input) i &&
        (retireData (backendCommitInput cp s input) i).oldPhyRegIdValid) := rfl
  rw [hsplit, retirePop_block i hi, Bool.and_eq_true, decide_eq_true_iff]
  refine and_congr_right fun hlt => ?_
  have hlen : i < s.rob.entries.length := Nat.lt_of_lt_of_le hlt (pops_le h)
  rw [retireData_eq (backend_view cp input h.rob) hlen]
  exact ⟨fun hold => ⟨hlen, hold⟩, fun ⟨_, hold⟩ => hold⟩

theorem mem_displaced_take (h : Settled m s) {p : Nat} :
    p ∈ displaced m (bindings (s.rob.entries.take (pops cp s input))) ↔
      ∃ i, i < commitWidth ∧ commitPhyfInvalid s.commit (backendCommitInput cp s input) i = true ∧
        commitRatReleasePhyId (backendCommitInput cp s input) i = p := by
  rw [(h.chain.split _).1.mem_displaced]
  constructor
  · rintro ⟨e, he, hold, rfl⟩
    obtain ⟨i, hi, rfl⟩ := List.mem_iff_getElem.1 he
    rw [List.length_take] at hi
    have hlen : i < s.rob.entries.length := by omega
    have hwidth : i < commitWidth :=
      Nat.lt_of_lt_of_le (by omega : i < pops cp s input) popCount_le_width
    rw [List.getElem_take] at hold ⊢
    refine ⟨i, hwidth, (commitPhyfInvalid_iff h hwidth).2 ⟨by omega, hlen, hold⟩, ?_⟩
    rw [commitRatReleasePhyId, retireData_eq (backend_view cp input h.rob) hlen]
  · rintro ⟨i, hi, hinvalid, rfl⟩
    obtain ⟨hlt, hlen, hold⟩ := (commitPhyfInvalid_iff h hi).1 hinvalid
    refine ⟨s.rob.entries[i], ?_, hold, ?_⟩
    · rw [List.mem_iff_getElem]
      exact ⟨i, by rw [List.length_take]; omega, List.getElem_take ..⟩
    · rw [commitRatReleasePhyId, retireData_eq (backend_view cp input h.rob) hlen]

theorem release_iff (h : Settled m s) (p : Nat) :
    (releasePhyIdValid (backendRatInput cp s input) p &&
        (backendRatInput cp s input).commitRatReleaseMap) = true ↔
      p ∈ displaced m (bindings (s.rob.entries.take (pops cp s input))) := by
  rw [mem_displaced_take h, Bool.and_eq_true, releasePhyIdValid, anyBit_iff]
  constructor
  · rintro ⟨⟨i, hi, hcmp⟩, hgate⟩
    simp only [releasePhyIdCmp, Bool.and_eq_true, decide_eq_true_eq] at hcmp
    refine ⟨i, hi, ?_, hcmp.1⟩
    have hrelease : commitRatReleasePhyIdValid s.commit (backendCommitInput cp s input) i = true :=
      hcmp.2
    have hgate' : retireGate s.commit (backendCommitInput cp s input) = true := hgate
    simp only [commitRatReleasePhyIdValid, Bool.and_eq_true] at hrelease
    simp [commitPhyfInvalid, hgate', hrelease]
  · rintro ⟨i, hi, hinvalid, heq⟩
    simp only [commitPhyfInvalid, Bool.and_eq_true] at hinvalid
    have hrelease : commitRatReleasePhyIdValid s.commit (backendCommitInput cp s input) i = true := by
      simp [commitRatReleasePhyIdValid, hinvalid]
    refine ⟨⟨i, hi, ?_⟩, hinvalid.1.1.1⟩
    simp only [releasePhyIdCmp, Bool.and_eq_true, decide_eq_true_eq]
    exact ⟨heq, hrelease⟩

/-- A cell that stays in use is not among the released ones. -/
theorem not_displaced_of_allocated (htable : RatSound s.rat m (bindings s.rob.entries))
    {n p : Nat}
    (hp : p ∈ allocated archRegs (retiredMap m s n) (bindings (s.rob.entries.drop n))) :
    p ∉ displaced m (bindings (s.rob.entries.take n)) := by
  have hsplit := bindings_split s.rob.entries n
  have harch : ∀ b ∈ bindings (s.rob.entries.take n), b.arch ∈ archRegs := fun b hb =>
    htable.arch_mem b (hsplit ▸ List.mem_append_left _ hb)
  have hnodup := htable.nodup
  rw [hsplit] at hnodup
  have hcells := (allocated_retire archRegs_nodup _ harch).nodup_iff.1 hnodup
  intro hmem
  exact (List.nodup_append.1 hcells).2.2 p hmem p hp rfl

/-! ## The register file -/

/-- A row keeps its valid bit unless it is released, undone or overwritten. -/
theorem dataValid_kept {p : Nat}
    (hrestore : commitRatMapTableRestore s.commit (backendCommitInput cp s input) = false)
    (hrelease : ∀ i, i < commitWidth →
      commitPhyfInvalid s.commit (backendCommitInput cp s input) i = true →
      commitRatReleasePhyId (backendCommitInput cp s input) i ≠ p)
    (hundo : commitRatRestoreMap s.commit (backendCommitInput cp s input) = true →
      (commitRobFlushData s.commit (backendCommitInput cp s input)).newPhyRegId ≠ p)
    (hvalid : s.phyf.dataValid p = true) :
    (backendNextWith cp s input).phyf.dataValid p = true := by
  have hnorelease : anyBit commitWidth (commitPhyfIdCmp (backendPhyfInput cp s input) p) =
      false := by
    refine anyBit_eq_false_iff.2 fun i hi => ?_
    rw [Bool.eq_false_iff]
    intro hcmp
    simp only [commitPhyfIdCmp, Bool.and_eq_true, decide_eq_true_eq] at hcmp
    exact hrelease i hi hcmp.2 hcmp.1.symm
  have hnoundo : ((backendPhyfInput cp s input).commitPhyfFlushInvalid &&
      decide (p = (backendPhyfInput cp s input).commitPhyfFlushId)) = false := by
    rw [Bool.eq_false_iff]
    intro hcmp
    rw [Bool.and_eq_true, decide_eq_true_iff] at hcmp
    exact hundo hcmp.1 hcmp.2.symm
  have hnorestore : (backendPhyfInput cp s input).commitPhyfDataValidRestore = false := hrestore
  show dataValidNext s.phyf (backendPhyfInput cp s input) p = true
  rw [dataValidNext, hnorestore, hnorelease, hnoundo]
  simp [hvalid]

/-- A written result is there in the next cycle. -/
theorem dataValid_written {j : Nat} (hj : j < wbWidth)
    (hrestore : commitRatMapTableRestore s.commit (backendCommitInput cp s input) = false)
    (hflush : flushing s.commit (backendCommitInput cp s input) = false)
    (hwrites : Writes (input.executeWb j)) :
    (backendNextWith cp s input).phyf.dataValid (input.executeWb j).rdPhy = true := by
  obtain ⟨henable, hvalid, hexc, hrd, hneed⟩ := hwrites
  have hnorestore : (backendPhyfInput cp s input).commitPhyfDataValidRestore = false := hrestore
  have hwe : wbPhyfWe (backendFeedback cp s input) input.executeWb j = true := by
    have hport : wbCommitPortFlush (backendFeedback cp s input) = false := hflush
    simp [wbPhyfWe, hport, henable, hvalid, hexc, hrd, hneed]
  have hany : anyBit wbWidth
      (wbPhyfIdCmp (backendPhyfInput cp s input) (input.executeWb j).rdPhy) = true :=
    anyBit_iff.2 ⟨j, hj, Bool.and_eq_true_iff.2 ⟨decide_eq_true rfl, hwe⟩⟩
  show dataValidNext s.phyf (backendPhyfInput cp s input) _ = true
  rw [dataValidNext, hnorestore, hany]
  rfl

/-- The registers of the map behind the retiring entries hold values: they are those of
the map before, or were written by entries that retire, which have finished. -/
theorem retired_dataValid (h : Settled m s) (hok : NormalOk m s) {a : Nat} (ha : a ∈ archRegs) :
    s.phyf.dataValid (retiredMap m s (pops cp s input) a) = true := by
  have hused : retiredMap m s (pops cp s input) a ∈
      allocated archRegs m (bindings (s.rob.entries.take (pops cp s input))) := by
    rw [(allocated_perm archRegs_nodup (h.chain.split _).1.arch_mem).mem_iff]
    exact List.mem_append_left _ (List.mem_map_of_mem ha)
  rcases List.mem_append.1 hused with hold | hnew
  · obtain ⟨a', ha', heq⟩ := List.mem_map.1 hold
    exact heq ▸ h.mapped a' ha'
  · obtain ⟨b, hb, heq⟩ := List.mem_map.1 hnew
    obtain ⟨e, he, holdValid, rfl⟩ := mem_bindings.1 hb
    obtain ⟨i, hi, rfl⟩ := List.mem_iff_getElem.1 he
    rw [List.length_take] at hi
    obtain ⟨hlen, _, hfinish, hexc, _⟩ := popped_spec (s := s.commit)
      (c := backendCommitInput cp s input) (backend_view cp input h.rob)
      (by omega : i < pops cp s input)
    rw [List.getElem_take] at holdValid heq
    exact heq ▸ hok.finished _ (List.getElem_mem hlen) hfinish hexc holdValid

/-! ## The entries that stay -/

theorem update_cases (cp : Nat → Checkpoint) (input : BackendInput) (h : Settled m s) (hport : Completes s.rob s.wbPort) {k : Nat}
    (hk : k < s.rob.entries.length) :
    (backendUpdate cp s input k s.rob.entries[k] = s.rob.entries[k] ∧
      ∀ j, j < wbWidth → commitRobInputDataWe s.commit (backendCommitInput cp s input) j = true →
        (s.wbPort j).robId ≠ s.rob.idAt k) ∨
    ∃ j, j < wbWidth ∧ commitRobInputDataWe s.commit (backendCommitInput cp s input) j = true ∧
      (s.wbPort j).robId = s.rob.idAt k ∧ ResultOf s.rob.entries[k] (s.wbPort j) ∧
      backendUpdate cp s input k s.rob.entries[k] =
        { s.rob.entries[k] with item := finishedItem s.rob.entries[k].item (s.wbPort j) } := by
  rcases robItemWritten_cases (s := s.commit) (c := backendCommitInput cp s input)
    (backend_view cp input h.rob) hport hk with
    ⟨hsame, hnone⟩ | ⟨j, hj, hwe, hid, hresult, hwritten⟩
  · left
    refine ⟨?_, hnone⟩
    rw [backendUpdate, hsame]
  · right
    refine ⟨j, hj, hwe, hid, hresult, ?_⟩
    rw [backendUpdate, hwritten]
    rfl

theorem sameRenaming_update (cp : Nat → Checkpoint) (input : BackendInput) (h : Settled m s) (hport : Completes s.rob s.wbPort) {k : Nat}
    (hk : k < s.rob.entries.length) :
    SameRenaming s.rob.entries[k] (backendUpdate cp s input k s.rob.entries[k]) := by
  rcases update_cases cp input h hport hk with
    ⟨hsame, _⟩ | ⟨j, _, _, _, _, hwritten⟩
  · rw [hsame]
    exact ⟨rfl, rfl, rfl, rfl⟩
  · rw [hwritten]
    exact sameRenaming_finished _ _

/-- The entries of the buffer after write-back. -/
abbrev written (cp : Nat → Checkpoint) (s : BackendState) (input : BackendInput) :
    List (Entry InFlight) := s.rob.entries.mapIdx (backendUpdate cp s input)

theorem written_same (cp : Nat → Checkpoint) (input : BackendInput) (h : Settled m s) (hport : Completes s.rob s.wbPort) :
    List.Forall₂ SameRenaming s.rob.entries (written cp s input) :=
  sameRenaming_mapIdx fun _ hk => sameRenaming_update cp input h hport hk

theorem entries_next
    (hflush : commitRobFlush s.commit (backendCommitInput cp s input) = false) :
    (backendNextWith cp s input).rob.entries =
      (written cp s input).drop (pops cp s input) ++
        pushedEntries (backendRenameInput cp s input) := by
  simp [backendNextWith, ReorderBuffer.next, IdealRob.next, hflush]

theorem entries_flushed
    (hflush : commitRobFlush s.commit (backendCommitInput cp s input) = true) :
    (backendNextWith cp s input).rob.entries = [] := by
  simp [backendNextWith, ReorderBuffer.next, IdealRob.next, hflush]

/-- An entry of the next cycle is an older one, perhaps rewritten, or a new one. -/
theorem mem_entries_next
    (hflush : commitRobFlush s.commit (backendCommitInput cp s input) = false)
    {e : Entry InFlight} (he : e ∈ (backendNextWith cp s input).rob.entries) :
    (∃ k, ∃ hk : k < s.rob.entries.length, pops cp s input ≤ k ∧
      e = backendUpdate cp s input k s.rob.entries[k]) ∨
    e ∈ pushedEntries (backendRenameInput cp s input) := by
  rw [entries_next hflush, List.mem_append] at he
  refine he.imp_left fun hold => ?_
  obtain ⟨k, hk, rfl⟩ := List.mem_iff_getElem.1 hold
  simp only [List.length_drop, List.length_mapIdx] at hk
  refine ⟨pops cp s input + k, by omega, Nat.le_add_right _ _, ?_⟩
  simp

theorem bindings_next (h : Settled m s) (hexact : GrantsExact s.rob)
    (hport : Completes s.rob s.wbPort) (htable : RatSound s.rat m (bindings s.rob.entries))
    (hbundle : DecodedBundle input.bundle) (haccept : NoRejectedRename cp s input)
    (hflush : commitRobFlush s.commit (backendCommitInput cp s input) = false) :
    bindings (backendNextWith cp s input).rob.entries =
      bindings (s.rob.entries.drop (pops cp s input)) ++
        requestedBindings (backendRatInput cp s input) := by
  rw [entries_next hflush, bindings_append, bindings_pushed h hexact htable hbundle haccept,
    bindings_rewrite (List.forall₂_drop _ (written_same cp input h hport))]

/-! ## A cycle in the normal state -/

/-- What a normal cycle starts from. -/
structure NormalCycle (cp : Nat → Checkpoint) (m : RegMap) (s : BackendState)
    (input : BackendInput) : Prop where
  settled : Settled m s
  exact : GrantsExact s.rob
  port : Completes s.rob s.wbPort
  ok : NormalOk m s
  state : s.commit.curState = .normal
  bundle : DecodedBundle input.bundle
  accept : NoRejectedRename cp s input
  noFlush : commitRobFlush s.commit (backendCommitInput cp s input) = false
  noRestore : commitRatMapTableRestore s.commit (backendCommitInput cp s input) = false

namespace NormalCycle

variable (h : NormalCycle cp m s input)
include h

theorem noUndo : commitRatRestoreMap s.commit (backendCommitInput cp s input) = false := by
  simp [commitRatRestoreMap, h.state]

theorem table_next :
    RatSound (backendNextWith cp s input).rat (retiredMap m s (pops cp s input))
      (bindings (backendNextWith cp s input).rob.entries) := by
  rw [bindings_next h.settled h.exact h.port h.ok.table h.bundle h.accept h.noFlush]
  have htable := h.ok.table
  rw [bindings_split s.rob.entries (pops cp s input)] at htable
  exact ratNext_retire_rename htable h.noRestore h.noUndo
    (release_iff h.settled) (requestsFresh h.settled h.exact h.ok.table h.bundle h.accept)

theorem chain_next : Chain (retiredMap m s (pops cp s input))
    (backendNextWith cp s input).rob.entries := by
  have hsame := written_same cp input h.settled h.port
  have hold := ((h.settled.chain.rewrite hsame).split (pops cp s input)).2
  rw [bindings_rewrite (List.forall₂_take _ hsame)] at hold
  rw [entries_next h.noFlush, chain_append]
  refine ⟨hold, ?_⟩
  rw [bindings_rewrite (List.forall₂_drop _ hsame), retiredMap, ← bindAll_append,
    ← bindings_split]
  exact chain_pushed h.settled h.exact h.ok.table h.bundle h.accept

theorem items_next : ∀ e ∈ (backendNextWith cp s input).rob.entries, ItemOk e := by
  intro e he
  rcases mem_entries_next h.noFlush he with ⟨k, hk, _, rfl⟩ | hnew
  · have hok := h.settled.items _ (List.getElem_mem hk)
    rcases update_cases cp input h.settled h.port hk with
      ⟨hsame, _⟩ | ⟨j, _, _, _, hresult, hwritten⟩
    · rw [hsame]
      exact hok
    · rw [hwritten]
      exact hok.finished hresult
  · exact (items_pushed h.bundle hnew).1

theorem rob_next : RobSound (backendNextWith cp s input).rob := by
  refine h.settled.rob.next h.exact (backend_view cp input h.settled.rob)
    (writesInFlight_of_answers h.port) (fun _ _ => rfl) (fun _ hrob =>
      offersInOrder_backend h.settled h.exact h.ok.table h.bundle h.accept hrob) ?_
  have hpush := length_pushed cp input h.settled.rob h.exact
  have hsize := h.settled.wf.2
  rw [Nat.max_eq_left hsize] at hpush
  omega

theorem rows_next : ∀ p ∈ allocated archRegs (retiredMap m s (pops cp s input))
    (bindings (backendNextWith cp s input).rob.entries), p < phyRegNum := by
  intro p hp
  rw [bindings_next h.settled h.exact h.port h.ok.table h.bundle h.accept h.noFlush, allocated,
    List.map_append, ← List.append_assoc, List.mem_append] at hp
  rcases hp with hold | hnew
  · refine h.settled.rows p ?_
    rw [bindings_split s.rob.entries (pops cp s input),
      (allocated_retire archRegs_nodup _ (h.settled.chain.split _).1.arch_mem).mem_iff,
      List.mem_append]
    exact Or.inr hold
  · obtain ⟨b, hb, rfl⟩ := List.mem_map.1 hnew
    obtain ⟨j, hj, hreq, rfl⟩ := mem_channelBindings.1 hb
    exact (requestsFresh h.settled h.exact h.ok.table h.bundle h.accept).row_lt j hj hreq

/-- A cell that stays in use keeps its valid bit. -/
theorem dataValid_next {p : Nat}
    (hp : p ∈ allocated archRegs (retiredMap m s (pops cp s input))
      (bindings (s.rob.entries.drop (pops cp s input))))
    (hvalid : s.phyf.dataValid p = true) :
    (backendNextWith cp s input).phyf.dataValid p = true := by
  refine dataValid_kept h.noRestore (fun i hi hinvalid heq => ?_) (fun hundo => ?_) hvalid
  · exact not_displaced_of_allocated h.ok.table hp
      ((mem_displaced_take h.settled).2 ⟨i, hi, hinvalid, heq⟩)
  · exact absurd (h.noUndo.symm.trans hundo) Bool.false_ne_true

theorem mapped_next : ∀ a ∈ archRegs,
    (backendNextWith cp s input).phyf.dataValid (retiredMap m s (pops cp s input) a) = true :=
  fun _ ha => h.dataValid_next (List.mem_append_left _ (List.mem_map_of_mem ha))
    (retired_dataValid h.settled h.ok ha)

theorem settled_next : Settled (retiredMap m s (pops cp s input)) (backendNextWith cp s input) where
  rob := h.rob_next
  outside := fun a ha => by
    rw [retiredMap, bindAll_of_not_mem (h.settled.chain.split _).1.arch_mem ha]
    exact h.settled.outside a ha
  rows := h.rows_next
  chain := h.chain_next
  items := h.items_next
  mapped := h.mapped_next

end NormalCycle

/-! ## Retire and go on -/

theorem idAt_next {n k : Nat}
    (hflush : commitRobFlush s.commit (backendCommitInput cp s input) = false)
    (hn : pops cp s input = n) : (backendNextWith cp s input).rob.idAt k = s.rob.idAt (n + k) := by
  subst hn
  simp only [IdealRob.idAt, backendNextWith, ReorderBuffer.next, IdealRob.next, hflush,
    Bool.false_eq_true, if_false, robSize, pops]
  omega

theorem getElem_next {k : Nat} (hk : k < s.rob.entries.length) (hpop : pops cp s input ≤ k)
    (hflush : commitRobFlush s.commit (backendCommitInput cp s input) = false) :
    ∃ hk' : k - pops cp s input < (backendNextWith cp s input).rob.entries.length,
      (backendNextWith cp s input).rob.entries[k - pops cp s input] =
        backendUpdate cp s input k s.rob.entries[k] := by
  have hlen : k - pops cp s input < ((written cp s input).drop (pops cp s input)).length := by
    simp only [List.length_drop, List.length_mapIdx]
    omega
  have heq := entries_next hflush
  refine ⟨by rw [heq, List.length_append]; omega, ?_⟩
  simp only [heq, List.getElem_append_left hlen, List.getElem_drop, List.getElem_mapIdx]
  congr 1
  · omega
  · congr 1
    omega

/-- The results that arrive name entries that stay and are still unfinished. -/
theorem results_next (h : NormalCycle cp m s input) (hallowed : CycleAllowed s input) :
    Completes (backendNextWith cp s input).rob input.executeWb := by
  refine ⟨fun j hj henable => ?_, hallowed.results.once⟩
  obtain ⟨k, hk, hid, hfinish, hresult⟩ := hallowed.results.inFlight j hj henable
  have hpop : pops cp s input ≤ k := by
    by_contra hlt
    obtain ⟨_, _, hdone, _⟩ := popped_spec (s := s.commit) (c := backendCommitInput cp s input)
      (backend_view cp input h.settled.rob) (by omega : k < pops cp s input)
    exact Bool.false_ne_true (hfinish.symm.trans hdone)
  obtain ⟨hk', hget⟩ := getElem_next hk hpop h.noFlush
  have hsame : backendUpdate cp s input k s.rob.entries[k] = s.rob.entries[k] := by
    rcases update_cases cp input h.settled h.port hk with
      ⟨hsame, _⟩ | ⟨i, hi, hwe, hidi, _⟩
    · exact hsame
    · exact absurd (hidi.trans hid.symm)
        (hallowed.notPending i hi j hj (Bool.and_eq_true_iff.1 hwe).2 henable)
  rw [hsame] at hget
  refine ⟨k - pops cp s input, hk', ?_, ?_, ?_⟩
  · rw [hid, idAt_next h.noFlush rfl]
    congr 1
    omega
  · rw [hget, hfinish]
  · rw [hget]
    exact hresult

theorem normalCycle_of_inv (h : BackendInv m s) (hexact : GrantsExact s.rob)
    (hstate : s.commit.curState = .normal) (hallowed : CycleAllowed s input)
    (haccept : NoRejectedRename cp s input)
    (hflush : commitRobFlush s.commit (backendCommitInput cp s input) = false)
    (hrestore : commitRatMapTableRestore s.commit (backendCommitInput cp s input) = false) :
    NormalCycle cp m s input :=
  ⟨h.toSettled, hexact, h.port, h.normal hstate, hstate, hallowed.bundle, haccept, hflush, hrestore⟩

theorem keep_next (h : BackendInv m s) (hexact : GrantsExact s.rob)
    (hstate : s.commit.curState = .normal) (hallowed : CycleAllowed s input)
    (haccept : NoRejectedRename cp s input)
    (hkeep : KeepCycle s.commit (backendCommitInput cp s input)) :
    BackendInv (retiredMap m s (pops cp s input)) (backendNextWith cp s input) := by
  have hc := normalCycle_of_inv h hexact hstate hallowed haccept hkeep.noFlush hkeep.noRestore
  have hport : (backendNextWith cp s input).wbPort = input.executeWb := by
    have : wbCommitPortFlush (backendFeedback cp s input) = false := hkeep.notFlushing
    simp [backendNextWith, wbCommitPortNext, this]
  refine ⟨hc.settled_next, ?_, fun _ => ⟨hc.table_next, fun e he hfinish hexc hold => ?_,
    fun j hj hwrites => ?_⟩, fun hne => absurd hkeep.nextState hne⟩
  · rw [hport]
    exact results_next hc hallowed
  · rcases mem_entries_next hkeep.noFlush he with ⟨k, hk, hpop, rfl⟩ | hnew
    · have hsame := sameRenaming_update cp input hc.settled hc.port hk
      rw [hsame.oldPhyRegIdValid] at hold
      rw [hsame.newPhyRegId]
      have hmem : s.rob.entries[k] ∈ s.rob.entries.drop (pops cp s input) := by
        rw [List.mem_iff_getElem]
        exact ⟨k - pops cp s input, by rw [List.length_drop]; omega,
          by rw [List.getElem_drop]; congr 1; omega⟩
      refine hc.dataValid_next (List.mem_append_right _ (List.mem_map.2
        ⟨_, mem_bindings.2 ⟨_, hmem, hold, rfl⟩, rfl⟩)) ?_
      rcases update_cases cp input hc.settled hc.port hk with
        ⟨heq, _⟩ | ⟨j, hj, hwe, _, hresult, heq⟩
      · rw [heq] at hfinish hexc
        exact hc.ok.finished _ (List.getElem_mem hk) hfinish hexc hold
      · rw [heq] at hexc
        obtain ⟨hvalid, hneed, hrd⟩ := (hc.settled.items _ (List.getElem_mem hk)).renamed hold
        rw [← hresult.rdPhy]
        exact hc.ok.results j hj ⟨(Bool.and_eq_true_iff.1 hwe).2, hresult.valid.trans hvalid, hexc,
          hresult.rdEnable.trans hrd, hresult.needRename.trans hneed⟩
    · exact absurd ((items_pushed hallowed.bundle hnew).2.symm.trans hfinish) Bool.false_ne_true
  · rw [hport] at hwrites ⊢
    exact dataValid_written hj hkeep.noRestore hkeep.notFlushing hwrites

/-! ## A misprediction -/

/-- The checkpoint of entry `k` marks the map right after it. -/
theorem checkpoint_iff (h : Settled m s) {k : Nat} (hk : k < s.rob.entries.length) (p : Nat) :
    s.rob.entries[k].tag.checkpoint.ratPhyMapTableVisible p = true ↔
      p ∈ archRegs.map (retiredMap m s (k + 1)) := by
  rw [(h.chain.get hk).checkpoint, retiredMap, bindings_take_succ hk, bindAll_append]

/-- In a flushing cycle nothing is renamed and the write-back port is cleared. -/
theorem flushing_quiet (hflush : flushing s.commit (backendCommitInput cp s input) = true) :
    (backendRenameInput cp s input).renameRatMap = false ∧
      pushedEntries (backendRenameInput cp s input) = [] ∧
      (backendNextWith cp s input).wbPort = fun _ => ExecuteWbPack.zero := by
  have hmap : (backendRenameInput cp s input).renameRatMap = false := by
    have : (backendRenameInput cp s input).readregPortFlush = true := hflush
    simp [RenameInput.renameRatMap, this]
  have hpush : (backendRenameInput cp s input).renameRobPush = false := hmap
  have hport : wbCommitPortFlush (backendFeedback cp s input) = true := hflush
  refine ⟨hmap, by rw [pushedEntries, hpush]; rfl, ?_⟩
  simp [backendNextWith, wbCommitPortNext, hport]

/-- A flushing cycle keeps the ring in step, with nothing pushed. -/
theorem quiet_rob_next (h : BackendInv m s) (hexact : GrantsExact s.rob)
    (hflush : flushing s.commit (backendCommitInput cp s input) = true) :
    RobSound (backendNextWith cp s input).rob := by
  obtain ⟨hmap, hpushed, _⟩ := flushing_quiet hflush
  refine h.rob.next hexact (backend_view cp input h.rob) (writesInFlight_of_answers h.port)
    (fun _ _ => rfl) (fun _ hrob => offersInOrder_rename
      (by simp [backendRenameInput, ReorderBuffer.newIdValid, hrob])
      (fun hpush => absurd (hmap.symm.trans hpush) Bool.false_ne_true) fun _ => rfl) ?_
  have hsize := h.wf.2
  rw [hpushed, List.length_nil]
  omega

/-- Nothing is in flight any more, and the map is settled. -/
theorem inv_empty (hsound : RobSound (backendNextWith cp s input).rob)
    (hnext : (backendNextWith cp s input).rob.toIdealRob = ⟨0, []⟩)
    (hstate : (backendNextWith cp s input).commit.curState = .normal)
    (hport : (backendNextWith cp s input).wbPort = fun _ => ExecuteWbPack.zero) {m' : RegMap}
    (houtside : ∀ a, a ∉ archRegs → m' a = 0) (hrows : ∀ p ∈ archRegs.map m', p < phyRegNum)
    (hmapped : ∀ a ∈ archRegs, (backendNextWith cp s input).phyf.dataValid (m' a) = true)
    (htable : RatSound (backendNextWith cp s input).rat m' []) :
    BackendInv m' (backendNextWith cp s input) := by
  refine ⟨⟨hsound, houtside, ?_, ?_, ?_, hmapped⟩, ?_, fun _ => ⟨?_, ?_, ?_⟩,
    fun hne => absurd hstate hne⟩
  · rw [hnext]
    simpa [allocated] using hrows
  · rw [hnext]
    trivial
  · rw [hnext]
    simp
  · rw [hport]
    exact answers_zero _ _
  · rw [hnext]
    exact htable
  · rw [hnext]
    simp
  · rw [hport]
    exact fun j _ hwrites => absurd hwrites.1 Bool.false_ne_true

theorem rows_retired (h : Settled m s) (n : Nat) :
    ∀ p ∈ archRegs.map (retiredMap m s n), p < phyRegNum := by
  intro p hp
  refine h.rows p ?_
  rw [bindings_split s.rob.entries n,
    (allocated_retire archRegs_nodup _ (h.chain.split n).1.arch_mem).mem_iff, List.mem_append]
  exact Or.inr (List.mem_append_left _ hp)

/-- A misprediction puts the map behind the branch in force. -/
theorem restored_next (h : BackendInv m s) (hstate : s.commit.curState = .normal)
    (hcp : ReadsOwnCheckpoint cp s) {i : Nat}
    (hmiss : MissCycle s.commit (backendCommitInput cp s input) s.rob.toIdealRob i) :
    (∀ p, commitRatMapTableVisible s.commit (backendCommitInput cp s input) p = true ↔
      p ∈ archRegs.map (retiredMap m s (i + 1))) ∧
    RatSound (backendNextWith cp s input).rat (retiredMap m s (i + 1)) [] := by
  obtain ⟨hlen, hbru, hpredicted⟩ := hmiss.predicted
  obtain ⟨_, _, hfinish, _⟩ := popped_spec (s := s.commit) (c := backendCommitInput cp s input)
    (backend_view cp input h.rob)
    (Nat.lt_of_lt_of_eq (Nat.lt_succ_self i) hmiss.popCount_eq.symm)
  have hvisible : ∀ p, commitRatMapTableVisible s.commit (backendCommitInput cp s input) p = true ↔
      p ∈ archRegs.map (retiredMap m s (i + 1)) := by
    intro p
    rw [← checkpoint_iff h.toSettled hlen, ← hcp i hlen hfinish hbru hpredicted,
      commitRatMapTableVisible, hmiss.index]
    rfl
  have htable := (h.normal hstate).table
  rw [bindings_split s.rob.entries (i + 1)] at htable
  exact ⟨hvisible, ratNext_restore htable (flushing_quiet hmiss.flushing).1 hmiss.restore
    hvisible hvisible⟩

theorem miss_next (h : BackendInv m s) (hstate : s.commit.curState = .normal)
    (hcp : ReadsOwnCheckpoint cp s) {i : Nat}
    (hmiss : MissCycle s.commit (backendCommitInput cp s input) s.rob.toIdealRob i) :
    BackendInv (retiredMap m s (i + 1)) (backendNextWith cp s input) := by
  obtain ⟨hvisible, htable⟩ := restored_next h hstate hcp hmiss
  obtain ⟨_, _, hport⟩ := flushing_quiet hmiss.flushing
  refine inv_empty (robSound_flushed hmiss.flush) ?_ hmiss.nextState hport (fun a ha => ?_)
    (rows_retired h.toSettled _) (fun a ha => ?_) htable
  · simp [backendNextWith, ReorderBuffer.next, IdealRob.next, hmiss.flush]
  · rw [retiredMap, bindAll_of_not_mem (h.chain.split _).1.arch_mem ha]
    exact h.outside a ha
  · have hrestore : (backendPhyfInput cp s input).commitPhyfDataValidRestore = true :=
      hmiss.restore
    show dataValidNext s.phyf (backendPhyfInput cp s input) _ = true
    rw [dataValidNext, if_pos hrestore]
    exact (hvisible _).2 (List.mem_map_of_mem ha)

/-! ## A trap -/

/-- The cycle that leaves the normal state: the trapping entry becomes the head. -/
theorem trap_next (h : BackendInv m s) (hexact : GrantsExact s.rob)
    (hstate : s.commit.curState = .normal) (hallowed : CycleAllowed s input)
    (haccept : NoRejectedRename cp s input)
    (htrap : TrapCycle s.commit (backendCommitInput cp s input) s.rob.toIdealRob) :
    Settled (retiredMap m s (pops cp s input)) (backendNextWith cp s input) ∧
      WalkOk (retiredMap m s (pops cp s input)) (backendNextWith cp s input)
        (s.rob.entries.length - pops cp s input - 1) ∧
      (backendNextWith cp s input).wbPort = fun _ => ExecuteWbPack.zero := by
  have hc := normalCycle_of_inv h hexact hstate hallowed haccept htrap.noFlush htrap.noRestore
  obtain ⟨_, hpushed, hport⟩ := flushing_quiet htrap.flushing
  have hleft : pops cp s input < s.rob.entries.length := htrap.left
  have hlength : (backendNextWith cp s input).rob.entries.length =
      s.rob.entries.length - pops cp s input := by
    rw [entries_next htrap.noFlush, hpushed, List.append_nil, List.length_drop,
      List.length_mapIdx]
  refine ⟨hc.settled_next, ⟨⟨htrap.nextState, by omega, ?_, ?_⟩, ?_, ?_⟩, hport⟩
  · rw [idAt_next htrap.noFlush rfl]
    have hrestore : (backendNextWith cp s input).commit.restoreRobItemId =
        (backendCommitInput cp s input).rob.flushTailId := if_pos ⟨hstate, htrap.nextState⟩
    rw [hrestore, (backend_view cp input h.rob).flushTailId (List.length_pos_iff.1 (by omega))]
    congr 1
    omega
  · rw [idAt_next htrap.noFlush rfl]
    exact htrap.robItemId
  · obtain ⟨hk', hget⟩ := getElem_next hleft (Nat.le_refl _) htrap.noFlush
    simp only [Nat.sub_self] at hk' hget
    have hsame : backendUpdate cp s input (pops cp s input) s.rob.entries[pops cp s input] =
        s.rob.entries[pops cp s input] := by
      rcases update_cases cp input h.toSettled h.port hleft with
        ⟨hsame, _⟩ | ⟨j, _, hwe, _⟩
      · exact hsame
      · simp [commitRobInputDataWe, htrap.nextState] at hwe
    rw [List.getElem?_eq_getElem hk', hget, hsame]
    exact congrArg some htrap.curRobItem.symm
  · rw [List.take_of_length_le (by omega)]
    exact hc.table_next

/-! ## The walk -/

/-- One cycle of the walk takes entry `k` out of the alias table. -/
theorem undone_next (h : Settled m s) {k : Nat} (hw : WalkOk m s k) :
    RatSound (backendNextWith cp s input).rat m (bindings (s.rob.entries.take k)) := by
  have hlen := hw.walk.inList
  obtain ⟨hgate, _, hnorestore, hflush⟩ := walk_quiet (c := backendCommitInput cp s input) hw.walk
  have hmap := (flushing_quiet hflush).1
  have hdata : commitRobFlushData s.commit (backendCommitInput cp s input) =
      s.rob.entries[k].item := walk_flushData (backend_view cp input h.rob) hw.walk hlen
  have hundo : commitRatRestoreMap s.commit (backendCommitInput cp s input) =
      s.rob.entries[k].item.oldPhyRegIdValid := by
    rw [commitRatRestoreMap, hdata]
    simp [hw.walk.notNormal]
  have htable := hw.table
  rw [bindings_take_succ hlen] at htable
  cases hold : s.rob.entries[k].item.oldPhyRegIdValid with
  | true =>
      rw [entryBinding, if_pos hold] at htable
      refine ratNext_undo htable hmap hnorestore (hundo.trans hold) hgate ?_ ?_
      · exact congrArg RobItem.newPhyRegId hdata
      · exact (congrArg RobItem.oldPhyRegId hdata).trans ((h.chain.get hlen).oldPhyRegId hold)
  | false =>
      rw [entryBinding, if_neg (by simp [hold]), List.append_nil] at htable
      have hidle : (backendNextWith cp s input).rat = s.rat :=
        ratNext_idle hmap hnorestore (hundo.trans hold) hgate
      rw [hidle]
      exact htable

/-- The registers of the oldest map are not the one an entry bound. -/
theorem walk_mapped_next (h : Settled m s) {k : Nat} (hw : WalkOk m s k) :
    ∀ a ∈ archRegs, (backendNextWith cp s input).phyf.dataValid (m a) = true := by
  intro a ha
  have hlen := hw.walk.inList
  obtain ⟨hgate, _, hnorestore, _⟩ := walk_quiet (c := backendCommitInput cp s input) hw.walk
  have hdata : commitRobFlushData s.commit (backendCommitInput cp s input) =
      s.rob.entries[k].item := walk_flushData (backend_view cp input h.rob) hw.walk hlen
  refine dataValid_kept hnorestore (fun i _ hinvalid => ?_) (fun hundo heq => ?_) (h.mapped a ha)
  · simp [commitPhyfInvalid, hgate] at hinvalid
  · rw [commitRatRestoreMap, hdata] at hundo
    rw [hdata] at heq
    have hold := (Bool.and_eq_true_iff.1 hundo).2
    have hmem : s.rob.entries[k].item.newPhyRegId ∈
        (bindings (s.rob.entries.take (k + 1))).map (·.phy) := by
      rw [bindings_take_succ hlen, List.map_append, List.mem_append, entryBinding, if_pos hold]
      exact Or.inr (List.mem_singleton.2 rfl)
    exact (List.nodup_append.1 hw.table.nodup).2.2 _ (List.mem_map_of_mem ha) _ hmem heq.symm

/-- The last cycle of the walk empties the buffer. -/
theorem walk_done (cp : Nat → Checkpoint) (input : BackendInput) (h : BackendInv m s) (hw : WalkOk m s 0) :
    BackendInv m (backendNextWith cp s input) ∧
      (backendNextWith cp s input).rob.toIdealRob = ⟨0, []⟩ ∧
      (backendNextWith cp s input).commit.curState = .normal := by
  obtain ⟨_, _, _, hflush⟩ := walk_quiet (c := backendCommitInput cp s input) hw.walk
  have hrobFlush : commitRobFlush s.commit (backendCommitInput cp s input) = true := by
    rw [walk_robFlush (backend_view cp input h.rob) hw.walk]
    rfl
  have hstate : (backendNextWith cp s input).commit.curState = .normal := by
    show commitNextState s.commit (backendCommitInput cp s input) = .normal
    rw [walk_nextState (backend_view cp input h.rob) hw.walk, if_pos rfl]
  have hrob : (backendNextWith cp s input).rob.toIdealRob = ⟨0, []⟩ := by
    simp [backendNextWith, ReorderBuffer.next, IdealRob.next, hrobFlush]
  refine ⟨inv_empty (robSound_flushed hrobFlush) hrob hstate (flushing_quiet hflush).2.2 h.outside
    (fun p hp => ?_) (walk_mapped_next h.toSettled hw) (undone_next h.toSettled hw), hrob,
    hstate⟩
  exact h.rows p (List.mem_append_left _ hp)

/-- A cycle of the walk before the last goes to the next older entry. -/
theorem walk_next (cp : Nat → Checkpoint) (input : BackendInput) (h : BackendInv m s)
    (hexact : GrantsExact s.rob) {k : Nat} (hw : WalkOk m s (k + 1)) :
    BackendInv m (backendNextWith cp s input) ∧ WalkOk m (backendNextWith cp s input) k ∧
      (backendNextWith cp s input).rob.toIdealRob = s.rob.toIdealRob ∧
      (backendNextWith cp s input).commit =
        { s.commit with restoreRobItemId := s.rob.idAt k } := by
  obtain ⟨_, hpop, _, hflush⟩ := walk_quiet (c := backendCommitInput cp s input) hw.walk
  obtain ⟨_, hpushed, hport⟩ := flushing_quiet hflush
  have hlen := hw.walk.inList
  have hnormal := hw.walk.notNormal
  have hrobFlush : commitRobFlush s.commit (backendCommitInput cp s input) = false := by
    rw [walk_robFlush (backend_view cp input h.rob) hw.walk]
    exact decide_eq_false (Nat.succ_ne_zero k)
  have hnext : commitNextState s.commit (backendCommitInput cp s input) = s.commit.curState := by
    rw [walk_nextState (backend_view cp input h.rob) hw.walk, if_neg (Nat.succ_ne_zero k)]
  have hwritten : written cp s input = s.rob.entries := by
    rw [List.mapIdx_eq_iff]
    intro i
    by_cases hi : i < s.rob.entries.length
    · rw [List.getElem?_eq_getElem hi, Option.map_some]
      rcases update_cases cp input h.toSettled h.port hi with
        ⟨hsame, _⟩ | ⟨j, _, hwe, _⟩
      · rw [hsame]
      · simp [commitRobInputDataWe, hnormal] at hwe
    · rw [List.getElem?_eq_none (by omega), Option.map_none]
  have hentries : (backendNextWith cp s input).rob.entries = s.rob.entries := by
    have hpops : pops cp s input = 0 := hpop
    rw [entries_next hrobFlush, hpushed, List.append_nil, hpops, List.drop_zero, hwritten]
  have hhead : (backendNextWith cp s input).rob.headId = s.rob.headId := by
    have := h.wf.1
    simp only [backendNextWith, ReorderBuffer.next, IdealRob.next, hrobFlush,
      Bool.false_eq_true, if_false, hpop, robSize] at *
    omega
  have hrob : (backendNextWith cp s input).rob.toIdealRob = s.rob.toIdealRob := by
    generalize (backendNextWith cp s input).rob.toIdealRob = r at hentries hhead
    cases r
    cases hr : s.rob.toIdealRob
    simp_all
  have hcommit : (backendNextWith cp s input).commit =
      { s.commit with restoreRobItemId := s.rob.idAt k } := by
    have hid := walk_flushId (c := backendCommitInput cp s input) hw.walk
    show commitNext s.commit (backendCommitInput cp s input) = _
    simp only [commitNext, hnext, hnormal, hid, robCommitFlushNextId_idAt, false_and, if_false,
      not_false_eq_true, if_true, ne_eq]
  have hwalk : WalkAt (backendNextWith cp s input).commit
      (backendNextWith cp s input).rob.toIdealRob k := by
    rw [hcommit, hrob]
    exact ⟨hnormal, by omega, rfl, hw.walk.robItemId⟩
  have hok : WalkOk m (backendNextWith cp s input) k := by
    refine ⟨hwalk, ?_, ?_⟩
    · rw [hcommit, hrob]
      exact hw.curRobItem
    · rw [hrob]
      exact undone_next h.toSettled hw
  refine ⟨⟨⟨?_, h.outside, ?_, ?_, ?_, walk_mapped_next h.toSettled hw⟩, ?_,
    fun hstate => absurd hstate hwalk.notNormal, fun _ => ⟨k, hok⟩⟩, hok, hrob, hcommit⟩
  · exact quiet_rob_next h hexact hflush
  · exact hrob ▸ h.rows
  · exact hrob ▸ h.chain
  · exact hrob ▸ h.items
  · rw [hport]
    exact answers_zero _ _

/-! ## Every cycle -/

/-- Every reset state is settled, whatever answers for the reorder buffer. -/
theorem backendReset_inv (buffer : Option (Nat → RobItem)) :
    BackendInv (fun a => if a ∈ archRegs then a else 0)
      { backendReset with rob := .reset buffer } := by
  have hport : Completes (ReorderBuffer.reset buffer : ReorderBuffer InFlight)
    backendReset.wbPort := answers_zero _ _
  refine ⟨⟨robSound_reset buffer, fun a ha => if_neg ha, fun p hp => ?_, trivial,
    fun e he => absurd he (List.not_mem_nil), fun a ha => ?_⟩, hport,
    fun _ => ⟨ratReset_sound, fun e he => absurd he (List.not_mem_nil),
      fun j _ hwrites => absurd hwrites.1 Bool.false_ne_true⟩, fun hne => absurd rfl hne⟩
  · exact ratReset_bounded.row_lt p ((ratReset_sound.valid_iff p).2 hp)
  · have := mem_archRegs.1 ha
    simp [backendReset, phyRegfileReset, if_pos ha, this.2]
    omega

/-- Every allowed cycle keeps the invariant, for some oldest map. -/
theorem backendInv_next (h : ∃ m, BackendInv m s) (hexact : GrantsExact s.rob)
    (hcp : ReadsOwnCheckpoint cp s) (hallowed : CycleAllowed s input)
    (haccept : NoRejectedRename cp s input) :
    ∃ m, BackendInv m (backendNextWith cp s input) := by
  obtain ⟨m, h⟩ := h
  by_cases hstate : s.commit.curState = .normal
  · rcases normal_cycle (c := backendCommitInput cp s input) (backend_view cp input h.rob)
      (branchesClean_of_items h.items) hstate with hkeep | ⟨i, hmiss⟩ | htrap
    · exact ⟨_, keep_next h hexact hstate hallowed haccept hkeep⟩
    · exact ⟨_, miss_next h hstate hcp hmiss⟩
    · obtain ⟨hsettled, hwalk, hport⟩ := trap_next h hexact hstate hallowed haccept htrap
      refine ⟨_, hsettled, ?_, fun hnormal => absurd hnormal hwalk.walk.notNormal,
        fun _ => ⟨_, hwalk⟩⟩
      rw [hport]
      exact answers_zero _ _
  · obtain ⟨k, hw⟩ := h.walking hstate
    cases k with
    | zero => exact ⟨m, (walk_done cp input h hw).1⟩
    | succ k => exact ⟨m, (walk_next cp input h hexact hw).1⟩

end Step

end DreamCore.Proofs
