import DreamCore.Proofs.WriteBack
import DreamCore.Proofs.RobRefinement

/-!
# What holds in every cycle

In the normal state the alias table implements some register map with the bindings
of the entries in flight pending on it; while commit walks back, with the bindings
of the entries not yet undone.  The map itself is the one before the oldest entry.
One lemma for each kind of cycle, and from them the rule for runs.
-/

namespace DreamCore.Proofs

open DreamCore.Model DreamCore.Renaming DreamCore.Rtl

/-! ## The invariant -/

/-- What holds in the normal state and while walking alike. -/
structure Settled (m : RegMap) (s : BackendState) : Prop where
  rob : RobSound s.rob
  outside : ∀ a, a ∉ archRegs → m a = 0
  rows : ∀ p ∈ allocated archRegs m (bindings s.rob.entries), p < phyRegNum
  chain : Chain m s.rob.entries
  items : ∀ e ∈ s.rob.entries, ItemOk e
  mapped : ∀ a ∈ archRegs, s.phyf.dataValid (m a) = true

/-- An instruction that ends without exception and has a register to write. -/
def Writes (w : ExecuteWbPack) : Prop :=
  w.enable = true ∧ w.valid = true ∧ w.hasException = false ∧ w.rdEnable = true ∧
    w.needRename = true

structure NormalOk (m : RegMap) (s : BackendState) : Prop where
  table : RatSound s.rat m (bindings s.rob.entries)
  finished : ∀ e ∈ s.rob.entries, e.item.finish = true → e.item.hasException = false →
    e.item.oldPhyRegIdValid = true → s.phyf.dataValid e.item.newPhyRegId = true
  results : ∀ j, j < wbWidth → Writes (s.wbPort j) → s.phyf.dataValid (s.wbPort j).rdPhy = true

/-- The walk has reached position `k`; the entries up to it are still bound. -/
structure WalkOk (m : RegMap) (s : BackendState) (k : Nat) : Prop where
  walk : WalkAt s.commit s.rob.toIdealRob k
  curRobItem : s.rob.entries[0]?.map (·.item) = some s.commit.curRobItem
  table : RatSound s.rat m (bindings (s.rob.entries.take (k + 1)))

structure BackendInv (m : RegMap) (s : BackendState) : Prop extends Settled m s where
  port : Completes s.rob s.wbPort
  normal : s.commit.curState = .normal → NormalOk m s
  walking : s.commit.curState ≠ .normal → ∃ k, WalkOk m s k

/-! ## The assumptions on a cycle -/

/-- The decode FIFO delivers decoder outputs, and the execution units answer for
instructions in flight, each once. -/
structure CycleAllowed (s : BackendState) (input : BackendInput) : Prop where
  bundle : DecodedBundle input.bundle
  results : Completes s.rob input.executeWb
  notPending : ∀ i, i < wbWidth → ∀ j, j < wbWidth → (s.wbPort i).enable = true →
    (input.executeWb j).enable = true → (s.wbPort i).robId ≠ (input.executeWb j).robId

instance (s : BackendState) (input : BackendInput) : Decidable (CycleAllowed s input) :=
  decidable_of_iff
    (DecodedBundle input.bundle ∧ Completes s.rob input.executeWb ∧
      ∀ i, i < wbWidth → ∀ j, j < wbWidth → (s.wbPort i).enable = true →
        (input.executeWb j).enable = true → (s.wbPort i).robId ≠ (input.executeWb j).robId)
    ⟨fun ⟨h1, h2, h3⟩ => ⟨h1, h2, h3⟩, fun ⟨h1, h2, h3⟩ => ⟨h1, h2, h3⟩⟩

/-- The checkpoint that commit reads for a retiring predicted branch is its own. -/
def ReadsOwnCheckpoint (cp : Nat → Checkpoint) (s : BackendState) : Prop :=
  ∀ k (hk : k < s.rob.entries.length), s.rob.entries[k].item.finish = true →
    s.rob.entries[k].item.bruOp = true → s.rob.entries[k].item.predicted = true →
    (cp k).ratPhyMapTableVisible = s.rob.entries[k].tag.checkpoint.ratPhyMapTableVisible

theorem readsOwn_entryCheckpoint (s : BackendState) :
    ReadsOwnCheckpoint (entryCheckpoint s) s := by
  intro k hk _ _ _
  simp [entryCheckpoint, List.getElem?_eq_getElem hk]

/-- No instruction the decoder rejected is mapped to a register in this cycle. -/
def NoRejectedRename (cp : Nat → Checkpoint) (s : BackendState) (input : BackendInput) : Prop :=
  (backendRenameInput cp s input).renameRatMap = true → ∀ i, i < renameWidth →
    (backendRenameInput cp s input).revEnable i = true →
    ((backendRenameInput cp s input).revPack i).needRename = true →
    s.rob.newIdValid i = true → ((backendRenameInput cp s input).revPack i).valid = true

instance (cp : Nat → Checkpoint) (s : BackendState) (input : BackendInput) :
    Decidable (NoRejectedRename cp s input) := inferInstanceAs (Decidable (_ → _))

section Cycle

variable {cp : Nat → Checkpoint} {m : RegMap} {s : BackendState} {input : BackendInput}

theorem Settled.wf (h : Settled m s) : s.rob.WellFormed := h.rob.wf

theorem backend_view (cp : Nat → Checkpoint) (input : BackendInput) (h : RobSound s.rob) :
    Shows (backendCommitInput cp s input).rob s.rob.toIdealRob := h.shows input.stale

theorem revPack_mem {i : Nat} (h : (backendRenameInput cp s input).revEnable i = true) :
    (backendRenameInput cp s input).revPack i ∈ input.bundle := by
  have hlt : i < input.bundle.length := of_decide_eq_true (Bool.and_eq_true_iff.1 h).1
  have hget : (backendRenameInput cp s input).revPack i = input.bundle[i] := by
    simp [RenameInput.revPack, backendRenameInput, hlt]
  rw [hget]
  exact List.getElem_mem hlt

theorem Settled.bounded (h : Settled m s)
    (htable : RatSound s.rat m (bindings s.rob.entries)) : RatBounded s.rat m :=
  ⟨fun p hp => h.rows p ((htable.valid_iff p).1 hp), h.outside⟩

theorem Settled.few (h : Settled m s) : (bindings s.rob.entries).length ≤ 93 := by
  have := bindings_length_le s.rob.entries
  have := h.wf.2
  simp only [robSize] at this
  omega

/-- The bundle rename sees is renamed against the current map. -/
theorem bundleOk (h : Settled m s) (hexact : GrantsExact s.rob)
    (htable : RatSound s.rat m (bindings s.rob.entries)) (hbundle : DecodedBundle input.bundle)
    (haccept : NoRejectedRename cp s input)
    (hmap : (backendRenameInput cp s input).renameRatMap = true) :
    BundleOk (backendRenameInput cp s input) (bindAll m (bindings s.rob.entries)) where
  accepted := by
    intro i hi hbinds
    simp only [RenameInput.renameRatPhyIdValid, RenameInput.sendEnable, Bool.and_eq_true] at hbinds
    exact haccept hmap i hi hbinds.1.1.1 hbinds.2 hbinds.1.2
  destination := fun i _ henable hneed => hbundle.needRename_rd (revPack_mem henable) hneed
  offered := fun k hk => ratNewPhyIdValid_of_few htable h.few hk
  fresh := by
    intro k hk hmem
    have hfree := (ratNewPhyId_free (ratNewPhyIdValid_of_few htable h.few hk)).2
    have hvalid := htable.valid_of_visible archRegs_nodup ((htable.visible_iff _).2 hmem)
    exact Bool.false_ne_true (hfree.symm.trans hvalid)
  distinct := fun j k hjk hk => ratNewPhyId_ne hjk (ratNewPhyIdValid_of_few htable h.few hk)
  granted := by
    intro i j hij hj hgrant
    have hlt : s.rob.entries.length + j < robSize :=
      of_decide_eq_true ((h.rob.newIdValid_eq hexact hj).symm.trans hgrant)
    exact (h.rob.newIdValid_eq hexact (by omega)).trans (decide_eq_true (by omega))
  read := ratReadPhyId_eq htable (h.bounded htable)
  visible := htable.visible_iff
  nodup := (List.nodup_append.1 (htable.split_nodup archRegs_nodup)).1

/-! ## What is pushed -/

/-- Decoded instructions are all sent or wait for an entry, the later ones too. -/
theorem sendsInOrder_backend (h : Settled m s) (hexact : GrantsExact s.rob)
    (htable : RatSound s.rat m (bindings s.rob.entries))
    (hbundle : DecodedBundle input.bundle) (haccept : NoRejectedRename cp s input)
    (hmap : (backendRenameInput cp s input).renameRatMap = true) :
    SendsInOrder (backendRenameInput cp s input) := by
  have hok := bundleOk h hexact htable hbundle haccept hmap
  intro i hi hsend j hj
  obtain ⟨hrev, hgrant⟩ := (sendEnable_iff hok hi).1 hsend
  have hlt : i < input.bundle.length := of_decide_eq_true (Bool.and_eq_true_iff.1 hrev).1
  refine (sendEnable_iff hok (by omega)).2 ⟨?_, hok.granted j i hj hi hgrant⟩
  have hget : (backendRenameInput cp s input).revPack j = input.bundle[j] := by
    simp [RenameInput.revPack, backendRenameInput, (by omega : j < input.bundle.length)]
  rw [RenameInput.revEnable, hget, hbundle.enabled _ (List.getElem_mem _), Bool.and_true]
  exact decide_eq_true (by omega)

theorem offersInOrder_backend (h : Settled m s) (hexact : GrantsExact s.rob)
    (htable : RatSound s.rat m (bindings s.rob.entries))
    (hbundle : DecodedBundle input.bundle) (haccept : NoRejectedRename cp s input)
    {rob : RobState} (hrob : s.rob.rtl = some rob) :
    OffersInOrder rob (renameOffer (backendRenameInput cp s input))
      (pushedEntries (backendRenameInput cp s input)) :=
  offersInOrder_rename (by simp [backendRenameInput, ReorderBuffer.newIdValid, hrob])
    (fun hpush => sendsInOrder_backend h hexact htable hbundle haccept hpush) fun _ => rfl

/-- The bindings of the pushed entries are what the alias table is asked for. -/
theorem bindings_pushed (h : Settled m s) (hexact : GrantsExact s.rob)
    (htable : RatSound s.rat m (bindings s.rob.entries))
    (hbundle : DecodedBundle input.bundle) (haccept : NoRejectedRename cp s input) :
    bindings (pushedEntries (backendRenameInput cp s input)) =
      requestedBindings (backendRatInput cp s input) := by
  cases hmap : (backendRenameInput cp s input).renameRatMap with
  | true =>
      have hrequest : ratRequest (backendRatInput cp s input) =
          (backendRenameInput cp s input).renameRatPhyIdValid := by
        funext j
        exact (congrArg (_ && ·) hmap).trans (Bool.and_true _)
      rw [pushedEntries_eq hmap,
        bindings_pushedTo (bundleOk h hexact htable hbundle haccept hmap) (Nat.le_refl _),
        requestedBindings, hrequest]
      rfl
  | false =>
      have hnone : requestedBindings (backendRatInput cp s input) = [] := by
        rw [List.eq_nil_iff_forall_not_mem]
        intro b hb
        obtain ⟨j, _, hreq, _⟩ := mem_channelBindings.1 hb
        exact Bool.false_ne_true (hmap.symm.trans (Bool.and_eq_true_iff.1 hreq).2)
      have hpush : (backendRenameInput cp s input).renameRobPush = false := hmap
      rw [hnone, pushedEntries, hpush]
      rfl

theorem chain_pushed (h : Settled m s) (hexact : GrantsExact s.rob)
    (htable : RatSound s.rat m (bindings s.rob.entries))
    (hbundle : DecodedBundle input.bundle) (haccept : NoRejectedRename cp s input) :
    Chain (bindAll m (bindings s.rob.entries))
      (pushedEntries (backendRenameInput cp s input)) := by
  cases hmap : (backendRenameInput cp s input).renameRatMap with
  | true =>
      rw [pushedEntries_eq hmap]
      exact chain_pushedTo (bundleOk h hexact htable hbundle haccept hmap) (Nat.le_refl _)
  | false =>
      have hpush : (backendRenameInput cp s input).renameRobPush = false := hmap
      rw [pushedEntries, hpush]
      trivial

theorem mem_pushed {e : Entry InFlight}
    (he : e ∈ pushedEntries (backendRenameInput cp s input)) :
    ∃ i, i < renameWidth ∧ (backendRenameInput cp s input).renameRobPush = true ∧
      (backendRenameInput cp s input).renameRobDataValid i = true ∧
      e = pushedEntry (backendRenameInput cp s input) i := by
  rw [pushedEntries] at he
  split at he
  · obtain ⟨i, hi, rfl⟩ := List.mem_map.1 he
    obtain ⟨hrange, hdata⟩ := List.mem_filter.1 hi
    exact ⟨i, List.mem_range.1 hrange, ‹_›, hdata, rfl⟩
  · simp at he

theorem pushed_mem_bundle {i : Nat}
    (hdata : (backendRenameInput cp s input).renameRobDataValid i = true) :
    (backendRenameInput cp s input).revPack i ∈ input.bundle := by
  simp only [RenameInput.renameRobDataValid, RenameInput.sendEnable, Bool.and_eq_true] at hdata
  exact revPack_mem hdata.2.1.1

theorem items_pushed (hbundle : DecodedBundle input.bundle) {e : Entry InFlight}
    (he : e ∈ pushedEntries (backendRenameInput cp s input)) :
    ItemOk e ∧ e.item.finish = false := by
  obtain ⟨i, _, _, hdata, rfl⟩ := mem_pushed he
  have hmem := pushed_mem_bundle hdata
  refine ⟨⟨rfl, fun hold => ?_, fun hbru => hbundle.branch hmem hbru, ?_, ?_, ?_, ?_⟩, rfl⟩
  · have hvalid : (backendRenameInput cp s input).oldPhyRegIdValid i = true := hold
    simp only [RenameInput.oldPhyRegIdValid, Bool.and_eq_true] at hvalid
    exact ⟨hvalid.1.2, hvalid.2, hbundle.rdEnable hmem hvalid.2⟩
  all_goals exact fun hfinish => absurd hfinish Bool.false_ne_true

/-- No more is pushed than the buffer has room for. -/
theorem length_pushed (cp : Nat → Checkpoint) (input : BackendInput) (h : RobSound s.rob)
    (hexact : GrantsExact s.rob) :
    (pushedEntries (backendRenameInput cp s input)).length + s.rob.entries.length ≤
      max robSize s.rob.entries.length := by
  rw [pushedEntries]
  split
  · rw [List.length_map, ← countOne_eq_filter]
    have hle : countOne renameWidth (backendRenameInput cp s input).renameRobDataValid ≤
        robSize - s.rob.entries.length := by
      refine countOne_le_bound fun i hi hdata => ?_
      have hgrant : s.rob.newIdValid i = true := (Bool.and_eq_true_iff.1 hdata).1
      have : s.rob.entries.length + i < robSize :=
        of_decide_eq_true ((h.newIdValid_eq hexact hi).symm.trans hgrant)
      omega
    omega
  · rw [List.length_nil]
    omega

/-- The requests meet free rows, all different. -/
theorem requestsFresh (h : Settled m s) (hexact : GrantsExact s.rob)
    (htable : RatSound s.rat m (bindings s.rob.entries))
    (hbundle : DecodedBundle input.bundle) (haccept : NoRejectedRename cp s input) :
    RequestsFresh s.rat (backendRatInput cp s input) := by
  have hok : ∀ {j}, ratRequest (backendRatInput cp s input) j = true →
      BundleOk (backendRenameInput cp s input) (bindAll m (bindings s.rob.entries)) ∧
        (backendRenameInput cp s input).renameRatPhyIdValid j = true := fun hreq =>
    ⟨bundleOk h hexact htable hbundle haccept (Bool.and_eq_true_iff.1 hreq).2,
      (Bool.and_eq_true_iff.1 hreq).1⟩
  have hfree : ∀ {j}, j < renameWidth →
      (backendRenameInput cp s input).newPhyId j < phyRegNum ∧
        s.rat.mapValid ((backendRenameInput cp s input).newPhyId j) = false := fun hj =>
    ratNewPhyId_free (ratNewPhyIdValid_of_few htable h.few (newPhyIdChannelIndex_lt _ hj))
  refine ⟨fun j hj _ => (hfree hj).1, fun j hj _ => (hfree hj).2,
    fun i j hij hj hi _ => ?_, fun j hj hreq => ?_⟩
  · obtain ⟨hbundleOk, hbinds⟩ := hok hi
    exact binds_distinct hbundleOk hij hj hbinds
  · obtain ⟨hbundleOk, hbinds⟩ := hok hreq
    exact binds_arch hbundleOk hj hbinds

end Cycle

end DreamCore.Proofs
