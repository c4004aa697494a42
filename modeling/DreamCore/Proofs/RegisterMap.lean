import DreamCore.Proofs.BackendStep
import DreamCore.Lib.Clocked

/-!
# The register map over whole runs

Every architectural register has exactly one current physical register, and in the
normal state every physical register is current, recorded as the old register of one
entry in flight, or free.  The first needs that no rejected instruction is mapped:
rename asks the table to map it but takes no register off the free list for it.
-/

namespace DreamCore.Proofs

open DreamCore.Clocked DreamCore.Model DreamCore.Renaming DreamCore.Rtl

/-! ## One current row for each register -/

structure MapConsistent (rat : RatState) : Prop where
  unique : ∀ a, 1 ≤ a → a < archRegNum → ∃ p, p < phyRegNum ∧ ∀ q, q < phyRegNum →
    ((rat.mapValid q = true ∧ rat.mapVisible q = true ∧ rat.mapTable q = a) ↔ q = p)
  lookup : ∀ a, 1 ≤ a → a < archRegNum → ratReadPhyId rat a < phyRegNum ∧
    ∀ q, q < phyRegNum → camArchIdCmp rat a q = decide (q = ratReadPhyId rat a)
  visible_arch : ∀ p, p < phyRegNum → rat.mapVisible p = true →
    1 ≤ rat.mapTable p ∧ rat.mapTable p < archRegNum
  visible_valid : ∀ p, p < phyRegNum → rat.mapVisible p = true → rat.mapValid p = true

theorem mapConsistent_of_sound {rat : RatState} {m : RegMap} {bs : List RegBinding}
    (h : RatSound rat m bs) (hb : RatBounded rat m) : MapConsistent rat := by
  have hvalid : ∀ {p}, rat.mapVisible p = true → rat.mapValid p = true :=
    fun hp => h.valid_of_visible archRegs_nodup hp
  have hlookup : ∀ {a}, a ∈ archRegs → ∀ q,
      ((rat.mapValid q = true ∧ rat.mapVisible q = true ∧ rat.mapTable q = a) ↔
        q = bindAll m bs a) := by
    intro a ha q
    rw [← h.lookup_iff ha]
    exact ⟨fun ⟨_, hvis, htable⟩ => ⟨hvis, htable⟩, fun ⟨hvis, htable⟩ => ⟨hvalid hvis, hvis, htable⟩⟩
  have hrow : ∀ {a}, a ∈ archRegs → bindAll m bs a < phyRegNum :=
    fun ha => hb.row_lt _ (hvalid (h.visible_current ha))
  refine ⟨fun a h1 h2 => ?_, fun a h1 h2 => ?_,
    fun p _ hvis => mem_archRegs.1 (h.table_visible hvis), fun p _ hvis => hvalid hvis⟩
  · have ha := mem_archRegs.2 ⟨h1, h2⟩
    exact ⟨_, hrow ha, fun q _ => hlookup ha q⟩
  have ha := mem_archRegs.2 ⟨h1, h2⟩
  rw [ratReadPhyId_eq h hb]
  refine ⟨hrow ha, fun q _ => ?_⟩
  rw [Bool.eq_iff_iff, decide_eq_true_iff, ← hlookup ha]
  simp [camArchIdCmp, and_assoc]

/-- In every state some part of the bindings in flight is what the table implements. -/
theorem BackendInv.table {m : RegMap} {s : BackendState} (h : BackendInv m s) :
    ∃ n, RatSound s.rat m (bindings (s.rob.entries.take n)) := by
  by_cases hstate : s.commit.curState = .normal
  · refine ⟨s.rob.entries.length, ?_⟩
    rw [List.take_length]
    exact (h.normal hstate).table
  · obtain ⟨k, hw⟩ := h.walking hstate
    exact ⟨k + 1, hw.table⟩

theorem BackendInv.consistent {m : RegMap} {s : BackendState} (h : BackendInv m s) :
    MapConsistent s.rat := by
  obtain ⟨n, htable⟩ := h.table
  refine mapConsistent_of_sound htable ⟨fun p hp => h.rows p ?_, h.outside⟩
  rw [bindings_split s.rob.entries n, allocated, List.map_append, ← List.append_assoc]
  exact List.mem_append_left _ ((htable.valid_iff p).1 hp)

/-- An allowed cycle in which no rejected instruction is mapped. -/
def CycleAccepted (s : BackendState) (input : BackendInput) : Prop :=
  CycleAllowed s input ∧ NoRejectedRename (entryCheckpoint s) s input

/-- The list alone keeps the invariant: its grants are exact. -/
def ListInv (s : BackendState) : Prop := s.rob.rtl = none ∧ ∃ m, BackendInv m s

theorem listInv_reset : ListInv backendReset := ⟨rfl, _, backendReset_inv none⟩

theorem listInv_next {s : BackendState} {input : BackendInput} (h : ListInv s)
    (hc : CycleAccepted s input) : ListInv (backendNext s input) :=
  ⟨congrArg (Option.map _) h.1,
    backendInv_next h.2 (grantsExact_list h.1) (readsOwn_entryCheckpoint s) hc.1 hc.2⟩

theorem backendInv_run {inputs : List BackendInput}
    (h : Along backendNext CycleAccepted backendReset inputs) :
    Always backendNext ListInv backendReset inputs :=
  always_of_step (fun _ _ hinv hc => listInv_next hinv hc) listInv_reset h

/-- In every run in which no rejected instruction is mapped, the map is consistent in
every state, also in the middle of a walk. -/
theorem map_consistent {inputs : List BackendInput}
    (hallowed : Along backendNext CycleAllowed backendReset inputs)
    (haccept : Along backendNext (fun s input => NoRejectedRename (entryCheckpoint s) s input)
      backendReset inputs) :
    Always backendNext (fun s => MapConsistent s.rat) backendReset inputs :=
  (backendInv_run (hallowed.and haccept)).mono fun _ ⟨_, _, h⟩ => h.consistent

/-! ## Concrete instructions -/

/-- An aligned word fetched from `pc`, not predicted. -/
def fetched (pc word : Nat) : FetchDecodePack where
  enable := true
  value := word
  pc := pc
  hasException := false
  exceptionId := 0
  exceptionValue := 0
  predicted := false
  predictedJump := false
  predictedNextPc := 0
  checkpointIdValid := false
  checkpointId := 0

/-- A cycle in which rename is offered a bundle and nothing completes. -/
def offer (bundle : List DecodeRenamePack) : BackendInput where
  bundle := bundle
  issueFeedbackStall := false
  intifCommitHasInterrupt := false
  intifCommitMcauseData := 0
  intifCommitAckData := 0
  csrfCommitReadData := 0
  csrfAllMstatusData := 0
  executeWb := fun _ => ExecuteWbPack.zero
  cpbufRenameData := fun _ => Checkpoint.zero
  stale := fun _ => RobItem.zero

theorem decodedBundle_map {packs : List FetchDecodePack} (hlen : packs.length ≤ renameWidth)
    (henable : ∀ p ∈ packs, p.enable = true) (haligned : ∀ p ∈ packs, p.hasException = false)
    (hid : ∀ p ∈ packs, p.checkpointIdValid = p.predicted) :
    DecodedBundle (packs.map decode) := by
  have hmem : ∀ op ∈ packs.map decode, op.toFetchDecodePack ∈ packs ∧
      op = decode op.toFetchDecodePack := by
    intro op hop
    obtain ⟨p, hp, rfl⟩ := List.mem_map.1 hop
    exact ⟨hp, rfl⟩
  refine ⟨by simpa using hlen, fun op hop => (hmem op hop).2,
    fun op hop => henable _ (hmem op hop).1, fun op hop hexc => ?_,
    fun op hop => hid _ (hmem op hop).1⟩
  exact absurd ((haligned _ (hmem op hop).1).symm.trans hexc) Bool.false_ne_true

theorem nothing_decoded : DecodedBundle [] := ⟨by decide, by simp, by simp, by simp, by simp⟩

/-- `addi x6, x0, 1` and `addi x5, x0, 2`. -/
def twoAdds : BackendInput :=
  offer ([fetched 0x80000000 0x00100313, fetched 0x80000004 0x00200293].map decode)

/-- `ld x5, 0(x0)`, which the decoder rejects, and `addi x6, x0, 1`. -/
def rejectedLoadThenAdd : BackendInput :=
  offer ([fetched 0x80000000 0x00003283, fetched 0x80000004 0x00100313].map decode)

theorem offer_allowed {s : BackendState} {bundle : List DecodeRenamePack}
    (hbundle : DecodedBundle bundle) : CycleAllowed s (offer bundle) :=
  ⟨hbundle, answers_zero _ _, fun _ _ _ _ _ henable => absurd henable Bool.false_ne_true⟩

theorem twoAdds_allowed {s : BackendState} : CycleAllowed s twoAdds :=
  offer_allowed (decodedBundle_map (by decide) (by decide) (by decide) (by decide))

theorem rejectedLoadThenAdd_allowed {s : BackendState} : CycleAllowed s rejectedLoadThenAdd :=
  offer_allowed (decodedBundle_map (by decide) (by decide) (by decide) (by decide))

theorem map_consistent_twoAdds :
    Always backendNext (fun s => MapConsistent s.rat) backendReset [twoAdds] :=
  map_consistent ⟨twoAdds_allowed, trivial⟩
    ⟨fun _ i hi => by revert i; decide +kernel, trivial⟩

/-- The rejected load and the addition are mapped to the same register, and the second
request wins: no register stands for `x5` any more. -/
theorem rejected_load_loses_register :
    Along backendNext CycleAllowed backendReset [rejectedLoadThenAdd] ∧
      ¬Always backendNext (fun s => MapConsistent s.rat) backendReset [rejectedLoadThenAdd] := by
  refine ⟨⟨rejectedLoadThenAdd_allowed, trivial⟩, fun h => ?_⟩
  obtain ⟨p, hp, hrow⟩ := h.last.unique 5 (by decide) (by decide)
  have hnone : ∀ q, q < phyRegNum →
      ¬((backendNext backendReset rejectedLoadThenAdd).rat.mapValid q = true ∧
        (backendNext backendReset rejectedLoadThenAdd).rat.mapVisible q = true ∧
        (backendNext backendReset rejectedLoadThenAdd).rat.mapTable q = 5) := by
    decide +kernel
  exact hnone p hp ((hrow p hp).2 rfl)

/-! ## Conservation of physical registers -/

/-- The old registers the entries in flight will give back when they retire. -/
def recordedOlds (s : BackendState) : List Nat :=
  (s.rob.entries.filter (·.item.oldPhyRegIdValid)).map (·.item.oldPhyRegId)

structure Conserved (s : BackendState) : Prop where
  valid_iff : ∀ p, p < phyRegNum →
    (s.rat.mapValid p = true ↔ s.rat.mapVisible p = true ∨ p ∈ recordedOlds s)
  disjoint : ∀ p, s.rat.mapVisible p = true → p ∉ recordedOlds s
  distinct : (recordedOlds s).Nodup
  current : ((List.range phyRegNum).filter s.rat.mapVisible).length = 31
  available : ∀ k, k < renameWidth → ratRenameNewPhyIdValid s.rat k = true ∧
    s.rat.mapValid (ratRenameNewPhyId s.rat k) = false

/-- A vector that marks one register for each name has 31 bits set. -/
theorem length_filter_image {visible : Nat → Bool} {f : RegMap}
    (h : ∀ p, visible p = true ↔ p ∈ archRegs.map f) (hnodup : (archRegs.map f).Nodup)
    (hrows : ∀ p ∈ archRegs.map f, p < phyRegNum) :
    ((List.range phyRegNum).filter visible).length = 31 := by
  have hperm : ((List.range phyRegNum).filter visible).Perm (archRegs.map f) := by
    refine (List.perm_ext_iff_of_nodup (List.nodup_range.filter _) hnodup).2 fun p => ?_
    rw [List.mem_filter, List.mem_range, h p]
    exact ⟨And.right, fun hp => ⟨hrows p hp, hp⟩⟩
  rw [hperm.length_eq, List.length_map]
  rfl

theorem BackendInv.recordedOlds_eq {m : RegMap} {s : BackendState} (h : BackendInv m s) :
    recordedOlds s = displaced m (bindings s.rob.entries) := h.chain.displaced_eq.symm

theorem BackendInv.conserved {m : RegMap} {s : BackendState} (h : BackendInv m s)
    (hstate : s.commit.curState = .normal) : Conserved s := by
  have htable := (h.normal hstate).table
  have hsplit := htable.split_nodup archRegs_nodup
  refine ⟨fun p _ => ?_, fun p hvis hold => ?_, ?_, ?_, fun k hk => ?_⟩
  · rw [h.recordedOlds_eq]
    exact htable.valid_split archRegs_nodup p
  · rw [h.recordedOlds_eq] at hold
    exact htable.not_visible_displaced archRegs_nodup hold hvis
  · rw [h.recordedOlds_eq]
    exact (List.nodup_append.1 hsplit).2.1
  · refine length_filter_image htable.visible_iff (List.nodup_append.1 hsplit).1 fun p hp => ?_
    exact h.rows p ((htable.valid_iff p).1
      (htable.valid_of_visible archRegs_nodup ((htable.visible_iff p).2 hp)))
  · have hoffered := ratNewPhyIdValid_of_few htable h.few hk
    exact ⟨hoffered, (ratNewPhyId_free hoffered).2⟩

/-- Retire slot `i` gives a register back to the free list in this cycle. -/
def Releases (s : BackendState) (input : BackendInput) (i : Nat) : Prop :=
  let c := backendCommitInput (entryCheckpoint s) s input
  commitRatReleaseMap s.commit c = true ∧ commitRatReleasePhyIdValid s.commit c i = true

/-- What is given back is in use, not current, and given back by one slot only. -/
structure ReleasesOnce (s : BackendState) (input : BackendInput) : Prop where
  used : ∀ i, i < commitWidth → Releases s input i →
    s.rat.mapValid
      (commitRatReleasePhyId (backendCommitInput (entryCheckpoint s) s input) i) = true
  hidden : ∀ i, i < commitWidth → Releases s input i →
    s.rat.mapVisible
      (commitRatReleasePhyId (backendCommitInput (entryCheckpoint s) s input) i) = false
  once : ∀ i j, i < j → j < commitWidth → Releases s input i → Releases s input j →
    commitRatReleasePhyId (backendCommitInput (entryCheckpoint s) s input) i ≠
      commitRatReleasePhyId (backendCommitInput (entryCheckpoint s) s input) j

theorem BackendInv.releasesOnce {m : RegMap} {s : BackendState} (h : BackendInv m s)
    (input : BackendInput) : ReleasesOnce s input := by
  have hslot : ∀ i, i < commitWidth → Releases s input i →
      s.commit.curState = .normal ∧ ∃ hlt : i < s.rob.entries.length,
        s.rob.entries[i].item.oldPhyRegIdValid = true ∧
        commitRatReleasePhyId (backendCommitInput (entryCheckpoint s) s input) i =
          s.rob.entries[i].item.oldPhyRegId := by
    rintro i hi ⟨hgate, hrelease⟩
    simp only [commitRatReleasePhyIdValid, Bool.and_eq_true] at hrelease
    have hinvalid : commitPhyfInvalid s.commit
        (backendCommitInput (entryCheckpoint s) s input) i = true := by
      simp only [commitPhyfInvalid, Bool.and_eq_true]
      exact ⟨⟨⟨hgate, hrelease.1.1⟩, hrelease.1.2⟩, hrelease.2⟩
    obtain ⟨_, hlt, hold⟩ := (commitPhyfInvalid_iff h.toSettled hi).1 hinvalid
    refine ⟨of_decide_eq_true (Bool.and_eq_true_iff.1 hgate).1, hlt, hold, ?_⟩
    rw [commitRatReleasePhyId, retireData_eq (backend_view _ input h.rob) hlt]
  have holds : ∀ i (hlt : i < s.rob.entries.length),
      s.rob.entries[i].item.oldPhyRegIdValid = true →
      s.rob.entries[i].item.oldPhyRegId ∈ recordedOlds s := fun i hlt hold =>
    List.mem_map.2 ⟨_, List.mem_filter.2 ⟨List.getElem_mem hlt, hold⟩, rfl⟩
  refine ⟨fun i hi hr => ?_, fun i hi hr => ?_, fun i j hij hj hri hrj => ?_⟩
  · obtain ⟨hstate, hlt, hold, heq⟩ := hslot i hi hr
    have htable := (h.normal hstate).table
    rw [heq]
    exact (htable.valid_split archRegs_nodup _).2 (Or.inr (h.recordedOlds_eq ▸ holds i hlt hold))
  · obtain ⟨hstate, hlt, hold, heq⟩ := hslot i hi hr
    rw [heq, Bool.eq_false_iff]
    exact fun hvis => (h.conserved hstate).disjoint _ hvis (holds i hlt hold)
  · obtain ⟨hstate, hlti, holdi, heqi⟩ := hslot i (by omega) hri
    obtain ⟨_, hltj, holdj, heqj⟩ := hslot j hj hrj
    have hdistinct := (h.conserved hstate).distinct
    rw [recordedOlds, List.Nodup, List.pairwise_map, List.pairwise_filter,
      List.pairwise_iff_getElem] at hdistinct
    rw [heqi, heqj]
    exact hdistinct i j hlti hltj hij holdi holdj

theorem noRejected_of_valid {s : BackendState} {input : BackendInput} {cp : Nat → Checkpoint}
    (h : ∀ op ∈ input.bundle, op.valid = true) : NoRejectedRename cp s input :=
  fun _ _ _ henable _ _ => h _ (revPack_mem henable)

/-- Over instructions the decoder accepts, no physical register is ever lost, given back
twice or given back while current. -/
theorem registers_conserved {inputs : List BackendInput}
    (hallowed : Along backendNext CycleAllowed backendReset inputs)
    (hvalid : ∀ input ∈ inputs, ∀ op ∈ input.bundle, op.valid = true) :
    Always backendNext (fun s => s.commit.curState = .normal → Conserved s) backendReset inputs ∧
      Along backendNext ReleasesOnce backendReset inputs := by
  have haccept : Along backendNext CycleAccepted backendReset inputs :=
    hallowed.and (along_of_forall fun _ _ hmem => noRejected_of_valid (hvalid _ hmem))
  refine ⟨(backendInv_run haccept).mono fun _ ⟨_, _, h⟩ => h.conserved, ?_⟩
  exact (haccept.strengthen (fun _ _ hinv hc => listInv_next hinv hc) listInv_reset).mono
    fun _ input ⟨⟨_, _, h⟩, _⟩ => h.releasesOnce input

theorem registers_conserved_twoAdds :
    Always backendNext (fun s => s.commit.curState = .normal → Conserved s) backendReset
        [twoAdds] ∧
      Along backendNext ReleasesOnce backendReset [twoAdds] :=
  registers_conserved ⟨twoAdds_allowed, trivial⟩ (by decide +kernel)

end DreamCore.Proofs
