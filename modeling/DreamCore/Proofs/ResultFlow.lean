import DreamCore.Model.Dataflow
import DreamCore.Proofs.IssueList
import DreamCore.Proofs.Misprediction

/-!
# Results on their way to the register file

A result is on a channel of the units, a cycle later in a port register and another cycle
later in the register file.  In every cycle port and file together hold what the
scoreboard says of a register in use, and a register that is not in use has no value.
-/

namespace DreamCore.Proofs

open DreamCore.Model DreamCore.Renaming DreamCore.Rtl

/-! ## Operations between rename and their unit -/

/-- The operations that register read has handed over. -/
def waitingOps (s : DataflowState) : List ReadregIssueOpInfo :=
  bundleFrom s.front.readregPort s.front.lastIndex ++ issueList s.queue

def renamedOps (s : DataflowState) : List RenameReadregOpInfo :=
  ((List.range readregWidth).filter fun i => (s.front.renamePort i).enable).map s.front.renamePort

def heldOps (s : DataflowState) : List RenameReadregOpInfo :=
  renamedOps s ++ (waitingOps s).map (·.toRenameReadregOpInfo)

/-! ## The assumptions on a cycle -/

/-- What the units hand over. -/
def unitAnswers (x : DataflowInput) (j : Nat) : ExecuteWbPack :=
  if x.unitValid j then x.unitPack j else ExecuteWbPack.zero

/-- The decode FIFO delivers decoder outputs, none of them rejected with a register, the two
buffers keep what is in flight, and outside a flush the units answer for operations that were
sent to them, each once. -/
structure DataflowAllowed (s : DataflowState) (x : DataflowInput) : Prop where
  buffers : BuffersKept s.recovery (dataflowRecovery s x)
  bundle : DecodedBundle x.outside.backend.bundle
  accept : NoRejectedRename (dataflowCheckpoint s x) s.back (dataflowBack s x)
  answers : (dataflowFeedback s x).flushing = false → Completes s.back.rob (unitAnswers x)
  notPort : (dataflowFeedback s x).flushing = false → ∀ i, i < wbWidth → ∀ j, j < wbWidth →
    (s.executeWb i).enable = true → (unitAnswers x j).enable = true →
    (s.executeWb i).robId ≠ (unitAnswers x j).robId
  notPending : (dataflowFeedback s x).flushing = false → ∀ i, i < wbWidth → ∀ j, j < wbWidth →
    (s.back.wbPort i).enable = true → (unitAnswers x j).enable = true →
    (s.back.wbPort i).robId ≠ (unitAnswers x j).robId
  sent : (dataflowFeedback s x).flushing = false → ∀ op ∈ heldOps s, ∀ j, j < wbWidth →
    (unitAnswers x j).enable = true → op.robId ≠ (unitAnswers x j).robId

/-! ## The invariant -/

/-- Port and file hold `v` for register `p`. -/
structure HoldsResult (s : DataflowState) (p : Nat) (v : Option Nat) : Prop where
  pending : ∀ j, j < wbWidth → Writes (s.executeWb j) → (s.executeWb j).rdPhy = p →
    v = some (s.executeWb j).rdValue ∧ s.back.phyf.dataValid p = false
  file : (∀ j, j < wbWidth → Writes (s.executeWb j) → (s.executeWb j).rdPhy ≠ p) →
    sourceOf (s.back.phyf.dataValid p) (s.back.phyf.data p) = v

/-- No unit has answered for the entry at position `k`. -/
structure Unanswered (s : DataflowState) (k : Nat) (hk : k < s.back.rob.entries.length) : Prop where
  finish : s.back.rob.entries[k].item.finish = false
  executeWb : ∀ j, j < wbWidth → (s.executeWb j).enable = true →
    (s.executeWb j).robId ≠ s.back.rob.idAt k
  wbPort : ∀ j, j < wbWidth → (s.back.wbPort j).enable = true →
    (s.back.wbPort j).robId ≠ s.back.rob.idAt k

/-- The registers in the normal state. -/
structure ResultsOk (m : RegMap) (s : DataflowState) (regs : Nat → Option Nat) : Prop where
  used : ∀ p ∈ allocated archRegs m (bindings s.back.rob.entries), HoldsResult s p (regs p)
  free : ∀ p, p ∉ allocated archRegs m (bindings s.back.rob.entries) →
    s.back.phyf.dataValid p = false
  waiting : ∀ k, ∀ hk : k < s.back.rob.entries.length, Unanswered s k hk →
    s.back.rob.entries[k].item.oldPhyRegIdValid = true →
    regs s.back.rob.entries[k].item.newPhyRegId = none

/-! ## Results and entries -/

section Entries

variable {m : RegMap} {r : IdealRob InFlight} {packs packs' : Nat → ExecuteWbPack}

theorem newPhy_mem {es : List (Entry InFlight)} {k : Nat} (hk : k < es.length)
    (hold : es[k].item.oldPhyRegIdValid = true) :
    es[k].item.newPhyRegId ∈ (bindings es).map (·.phy) :=
  List.mem_map.2 ⟨_, mem_bindings.2 ⟨es[k], List.getElem_mem hk, hold, rfl⟩, rfl⟩

theorem newPhy_mem_drop {es : List (Entry InFlight)} {n k : Nat} (hk : k < es.length) (hn : n ≤ k)
    (hold : es[k].item.oldPhyRegIdValid = true) :
    es[k].item.newPhyRegId ∈ (bindings (es.drop n)).map (·.phy) := by
  have hlt : k - n < (es.drop n).length := by rw [List.length_drop]; omega
  have hget : (es.drop n)[k - n] = es[k] := by
    rw [List.getElem_drop]
    congr 1
    omega
  have hmem := newPhy_mem hlt (by rwa [hget])
  rwa [hget] at hmem

/-- Two entries bind different registers. -/
theorem newPhy_inj {es : List (Entry InFlight)} (hnodup : (allocated archRegs m (bindings es)).Nodup)
    {i k : Nat} (hi : i < es.length) (hk : k < es.length)
    (holdi : es[i].item.oldPhyRegIdValid = true) (holdk : es[k].item.oldPhyRegIdValid = true)
    (heq : es[i].item.newPhyRegId = es[k].item.newPhyRegId) : i = k := by
  have hlt : ∀ {i k : Nat} (hi : i < es.length) (hk : k < es.length), i < k →
      es[i].item.oldPhyRegIdValid = true → es[k].item.oldPhyRegIdValid = true →
      es[i].item.newPhyRegId ≠ es[k].item.newPhyRegId := by
    intro i k hi hk hik holdi holdk heq
    have htake : i < (es.take k).length := by rw [List.length_take]; omega
    have hget : (es.take k)[i] = es[i] := List.getElem_take ..
    have hfront := newPhy_mem htake (by rwa [hget])
    rw [hget, heq] at hfront
    have hback := newPhy_mem_drop hk (Nat.le_refl k) holdk
    rw [allocated, bindings_split es k, List.map_append, ← List.append_assoc] at hnodup
    exact (List.nodup_append.1 hnodup).2.2 _ (List.mem_append_right _ hfront) _ hback rfl
  rcases Nat.lt_trichotomy i k with h | h | h
  · exact absurd heq (hlt hi hk h holdi holdk)
  · exact h
  · exact absurd heq.symm (hlt hk hi h holdk holdi)

/-- Every accepted entry with a register to write has bound one. -/
def AllBound (es : List (Entry InFlight)) : Prop :=
  ∀ e ∈ es, e.item.oldPhyRegIdValid = (e.tag.op.valid && e.tag.op.needRename)

variable (hbound : AllBound r.entries)
include hbound

/-- A result is written to the register its entry bound. -/
theorem writes_entry (h : Completes r packs) {j : Nat} (hj : j < wbWidth)
    (hw : Writes (packs j)) : ∃ k, ∃ hk : k < r.entries.length, (packs j).robId = r.idAt k ∧
      r.entries[k].item.finish = false ∧ r.entries[k].item.oldPhyRegIdValid = true ∧
      (packs j).rdPhy = r.entries[k].item.newPhyRegId := by
  obtain ⟨k, hk, hid, hfinish, hresult⟩ := h.inFlight j hj hw.1
  refine ⟨k, hk, hid, hfinish, ?_, hresult.rdPhy⟩
  rw [hbound _ (List.getElem_mem hk), ← hresult.valid, ← hresult.needRename, hw.2.1, hw.2.2.2.2]
  rfl

theorem writes_used (h : Completes r packs) {j : Nat} (hj : j < wbWidth) (hw : Writes (packs j)) :
    (packs j).rdPhy ∈ allocated archRegs m (bindings r.entries) := by
  obtain ⟨k, hk, _, _, hold, hphy⟩ := writes_entry hbound h hj hw
  rw [hphy]
  exact List.mem_append_right _ (newPhy_mem hk hold)

/-- Two results for one register are results of one entry. -/
theorem writes_robId (hnodup : (allocated archRegs m (bindings r.entries)).Nodup)
    (h : Completes r packs) (h' : Completes r packs') {i j : Nat} (hi : i < wbWidth)
    (hj : j < wbWidth) (hwi : Writes (packs i)) (hwj : Writes (packs' j))
    (heq : (packs i).rdPhy = (packs' j).rdPhy) : (packs i).robId = (packs' j).robId := by
  obtain ⟨k, hk, hid, _, hold, hphy⟩ := writes_entry hbound h hi hwi
  obtain ⟨k', hk', hid', _, hold', hphy'⟩ := writes_entry hbound h' hj hwj
  have hkk : k = k' := newPhy_inj hnodup hk hk' hold hold' (hphy.symm.trans (heq.trans hphy'))
  rw [hid, hid', hkk]

theorem writes_once (hnodup : (allocated archRegs m (bindings r.entries)).Nodup)
    (h : Completes r packs) {i j : Nat} (hi : i < wbWidth) (hj : j < wbWidth)
    (hwi : Writes (packs i)) (hwj : Writes (packs j)) (heq : (packs i).rdPhy = (packs j).rdPhy) :
    i = j :=
  h.once i hi j hj hwi.1 hwj.1 (writes_robId hbound hnodup h h hi hj hwi hwj heq)

end Entries

/-! ## The register file in one cycle -/

section File

variable {cp : Nat → Checkpoint} {s : BackendState} {input : BackendInput} {p : Nat}

theorem wbPhyfIdCmp_iff (hflush : flushing s.commit (backendCommitInput cp s input) = false)
    {j : Nat} : wbPhyfIdCmp (backendPhyfInput cp s input) p j = true ↔
      Writes (input.executeWb j) ∧ (input.executeWb j).rdPhy = p := by
  have hport : wbCommitPortFlush (backendFeedback cp s input) = false := hflush
  have hwe : wbPhyfWe (backendFeedback cp s input) input.executeWb j = true ↔
      Writes (input.executeWb j) := by
    simp [wbPhyfWe, hport, Writes, and_assoc]
  rw [wbPhyfIdCmp, Bool.and_eq_true, decide_eq_true_iff, and_comm]
  exact and_congr hwe eq_comm

/-- A result alone for its register is there in the next cycle. -/
theorem phyf_written
    (hrestore : commitRatMapTableRestore s.commit (backendCommitInput cp s input) = false)
    (hflush : flushing s.commit (backendCommitInput cp s input) = false) {j : Nat}
    (hj : j < wbWidth) (hw : Writes (input.executeWb j)) (hp : (input.executeWb j).rdPhy = p)
    (honly : ∀ i, i < wbWidth → Writes (input.executeWb i) → (input.executeWb i).rdPhy = p →
      i = j) :
    (backendNextWith cp s input).phyf.dataValid p = true ∧
      (backendNextWith cp s input).phyf.data p = (input.executeWb j).rdValue := by
  have hvalid := @dataValid_written cp _ _ _ hj hrestore hflush hw
  rw [hp] at hvalid
  have hnorestore : (backendPhyfInput cp s input).commitPhyfDataValidRestore = false := hrestore
  have hcmp : ∀ i, i < wbWidth →
      (wbPhyfIdCmp (backendPhyfInput cp s input) p i = true ↔ i = j) := fun i hi => by
    rw [wbPhyfIdCmp_iff hflush]
    exact ⟨fun h => honly i hi h.1 h.2, fun h => h ▸ ⟨hw, hp⟩⟩
  refine ⟨hvalid, ?_⟩
  show dataNext s.phyf (backendPhyfInput cp s input) p = _
  rw [dataNext, hnorestore, if_neg Bool.false_ne_true,
    if_pos (anyBit_iff.2 ⟨j, hj, (hcmp j hj).2 rfl⟩),
    dataSelector_single Nat.zero_or Nat.or_zero hj hcmp]
  rfl

/-- Nothing is written to the register. -/
def NotWritten (cp : Nat → Checkpoint) (s : BackendState) (input : BackendInput) (p : Nat) :
    Prop := anyBit wbWidth (wbPhyfIdCmp (backendPhyfInput cp s input) p) = false

theorem notWritten_of_flush (hflush : flushing s.commit (backendCommitInput cp s input) = true) :
    NotWritten cp s input p := by
  have hport : wbCommitPortFlush (backendFeedback cp s input) = true := hflush
  refine anyBit_eq_false_iff.2 fun j _ => ?_
  show (decide (p = _) && wbPhyfWe (backendFeedback cp s input) input.executeWb j) = false
  simp [wbPhyfWe, hport]

theorem notWritten_of_none (hflush : flushing s.commit (backendCommitInput cp s input) = false)
    (hnone : ∀ j, j < wbWidth → Writes (input.executeWb j) → (input.executeWb j).rdPhy ≠ p) :
    NotWritten cp s input p :=
  anyBit_eq_false_iff.2 fun j hj => Bool.eq_false_iff.2 fun hcmp =>
    hnone j hj ((wbPhyfIdCmp_iff hflush).1 hcmp).1 ((wbPhyfIdCmp_iff hflush).1 hcmp).2

theorem data_kept (hnone : NotWritten cp s input p) :
    (backendNextWith cp s input).phyf.data p = s.phyf.data p := by
  show dataNext s.phyf (backendPhyfInput cp s input) p = _
  rw [dataNext, hnone, if_neg Bool.false_ne_true, ite_self]

/-- A register without a value gets one only by a result. -/
theorem dataValid_cleared
    (hrestore : commitRatMapTableRestore s.commit (backendCommitInput cp s input) = false)
    (hnone : NotWritten cp s input p)
    (hclear : s.phyf.dataValid p = true →
      anyBit commitWidth (commitPhyfIdCmp (backendPhyfInput cp s input) p) = true ∨
      commitRatRestoreMap s.commit (backendCommitInput cp s input) = true ∧
        p = (commitRobFlushData s.commit (backendCommitInput cp s input)).newPhyRegId) :
    (backendNextWith cp s input).phyf.dataValid p = false := by
  have hnorestore : (backendPhyfInput cp s input).commitPhyfDataValidRestore = false := hrestore
  show dataValidNext s.phyf (backendPhyfInput cp s input) p = false
  rw [dataValidNext, hnorestore, if_neg Bool.false_ne_true, hnone, if_neg Bool.false_ne_true]
  cases hvalid : s.phyf.dataValid p with
  | false => rw [ite_self, ite_self]
  | true =>
      rcases hclear hvalid with hrelease | ⟨hundo, hp⟩
      · rw [if_pos hrelease]
      · have hboth : ((backendPhyfInput cp s input).commitPhyfFlushInvalid &&
            decide (p = (backendPhyfInput cp s input).commitPhyfFlushId)) = true :=
          Bool.and_eq_true_iff.2 ⟨hundo, decide_eq_true hp⟩
        rw [hboth, if_pos rfl, ite_self]

/-- Entries keep their instruction and what they bound. -/
theorem bound_next {m : RegMap} (h : Settled m s) (hport : Completes s.rob s.wbPort)
    (hflush : commitRobFlush s.commit (backendCommitInput cp s input) = false)
    (hbound : AllBound s.rob.entries) : AllBound (backendNextWith cp s input).rob.entries := by
  intro e he
  rcases mem_entries_next hflush he with ⟨k, hk, _, rfl⟩ | hnew
  · have hsame := sameRenaming_update cp input h hport hk
    rw [hsame.oldPhyRegIdValid, hsame.tag]
    exact hbound _ (List.getElem_mem hk)
  · obtain ⟨i, _, _, hdata, rfl⟩ := mem_pushed hnew
    have hready := (Bool.and_eq_true_iff.1 (Bool.and_eq_true_iff.1 hdata).2).1
    have hrev : (backendRenameInput cp s input).revEnable i = true :=
      (Bool.and_eq_true_iff.1 hready).1
    show ((backendRenameInput cp s input).revEnable i && _ && _) = _
    rw [hrev, Bool.true_and]
    rfl

end File

/-! ## A cycle without a flush -/

/-- The number of entries that leave the buffer. -/
abbrev leavingNum (s : DataflowState) (x : DataflowInput) : Nat :=
  pops (dataflowCheckpoint s x) s.back (dataflowBack s x)

/-- The registers that are in use before and after the cycle. -/
abbrev keptInUse (m : RegMap) (s : DataflowState) (x : DataflowInput) : List Nat :=
  allocated archRegs (retiredMap m s.back (leavingNum s x))
    (bindings (s.back.rob.entries.drop (leavingNum s x)))

/-- What the scoreboard says of a register in use after the units have delivered. -/
def learned (regs : Nat → Option Nat) (s : DataflowState) (x : DataflowInput) (p : Nat) :
    Option Nat := Scoreboard.deliverAll regs (deliveries s x) p

/-- What such a cycle starts from. -/
structure FlowCycle (m : RegMap) (s : DataflowState) (regs : Nat → Option Nat)
    (x : DataflowInput) : Prop where
  cycle : NormalCycle (dataflowCheckpoint s x) m s.back (dataflowBack s x)
  flush : (dataflowFeedback s x).flushing = false
  stays : commitNextState s.back.commit
    (backendCommitInput (dataflowCheckpoint s x) s.back (dataflowBack s x)) = .normal
  ok : ResultsOk m s regs
  port : Completes s.back.rob s.executeWb
  bound : AllBound s.back.rob.entries
  allowed : DataflowAllowed s x

namespace FlowCycle

variable {m : RegMap} {s : DataflowState} {regs : Nat → Option Nat} {x : DataflowInput}
  (h : FlowCycle m s regs x)
include h

theorem nodup : (allocated archRegs m (bindings s.back.rob.entries)).Nodup := h.cycle.ok.table.nodup

theorem answers : Completes s.back.rob (unitAnswers x) := h.allowed.answers h.flush

theorem executeWb_next : (dataflowNext s x).executeWb = unitAnswers x := by
  funext j
  show (if unitWbPortWe s x j then x.unitPack j else ExecuteWbPack.zero) = _
  rw [unitWbPortWe, h.flush, unitAnswers, Bool.not_false, Bool.and_true]

theorem wbPort_next : (dataflowNext s x).back.wbPort = s.executeWb := by
  have hport : wbCommitPortFlush (dataflowFeedback s x) = false := h.flush
  show wbCommitPortNext (dataflowFeedback s x) s.executeWb = _
  rw [wbCommitPortNext, hport, if_neg Bool.false_ne_true]

theorem enable_iff {j : Nat} : (executeFeedback s x j).enable = true ↔ Writes (unitAnswers x j) := by
  show (unitWbPortWe s x j && (x.unitPack j).enable && (x.unitPack j).valid &&
    (x.unitPack j).rdEnable && (x.unitPack j).needRename && !(x.unitPack j).hasException) = true ↔ _
  rw [unitWbPortWe, h.flush, unitAnswers]
  cases x.unitValid j with
  | false => simp [Writes, ExecuteWbPack.zero]
  | true => simp [Writes, and_assoc, and_comm, and_left_comm]

omit h in
/-- The channel carries the result. -/
theorem channel_eq (s : DataflowState) {j : Nat} (hw : Writes (unitAnswers x j)) :
    (executeFeedback s x j).phyId = (unitAnswers x j).rdPhy ∧
      (executeFeedback s x j).value = (unitAnswers x j).rdValue := by
  have hvalid : x.unitValid j = true := by
    by_contra hno
    rw [unitAnswers, if_neg hno] at hw
    exact absurd hw.1 Bool.false_ne_true
  rw [unitAnswers, if_pos hvalid]
  exact ⟨rfl, rfl⟩

theorem mem_deliveries {p v : Nat} : (p, v) ∈ deliveries s x ↔ ∃ j, j < wbWidth ∧
    Writes (unitAnswers x j) ∧ (unitAnswers x j).rdPhy = p ∧ (unitAnswers x j).rdValue = v := by
  rw [deliveries, List.mem_map]
  constructor
  · rintro ⟨j, hj, heq⟩
    rw [List.mem_filter, List.mem_range, h.enable_iff] at hj
    obtain ⟨hphy, hvalue⟩ := channel_eq s hj.2
    exact ⟨j, hj.1, hj.2, hphy.symm.trans (congrArg Prod.fst heq),
      hvalue.symm.trans (congrArg Prod.snd heq)⟩
  · rintro ⟨j, hj, hw, hphy, hvalue⟩
    obtain ⟨hphy', hvalue'⟩ := channel_eq s hw
    exact ⟨j, List.mem_filter.2 ⟨List.mem_range.2 hj, h.enable_iff.2 hw⟩,
      Prod.ext (hphy'.trans hphy) (hvalue'.trans hvalue)⟩

omit h in
/-- What rename takes is what it asks the alias table to map. -/
theorem mem_allocations {p : Nat} : p ∈ allocations s x ↔
    p ∈ (requestedBindings (backendRatInput (dataflowCheckpoint s x) s.back
      (dataflowBack s x))).map (·.phy) := by
  have hmap : (backendRatInput (dataflowCheckpoint s x) s.back (dataflowBack s x)).renameRatMap =
      (dataflowRename s x).renameRatMap := rfl
  constructor
  · intro hp
    rw [allocations] at hp
    split at hp
    · obtain ⟨j, hj, rfl⟩ := List.mem_map.1 hp
      rw [List.mem_filter, List.mem_range] at hj
      refine List.mem_map.2 ⟨_, mem_channelBindings.2 ⟨j, hj.1, ?_, rfl⟩, rfl⟩
      exact Bool.and_eq_true_iff.2 ⟨hj.2, ‹_›⟩
    · exact absurd hp List.not_mem_nil
  · intro hp
    obtain ⟨b, hb, rfl⟩ := List.mem_map.1 hp
    obtain ⟨j, hj, hreq, rfl⟩ := mem_channelBindings.1 hb
    obtain ⟨hvalid, hrequest⟩ := Bool.and_eq_true_iff.1 hreq
    rw [allocations, ← hmap, if_pos hrequest]
    exact List.mem_map.2 ⟨j, List.mem_filter.2 ⟨List.mem_range.2 hj, hvalid⟩, rfl⟩

/-- Rename takes registers that are not in use. -/
theorem allocation_free {p : Nat} (hp : p ∈ allocations s x) :
    p ∉ allocated archRegs m (bindings s.back.rob.entries) := by
  obtain ⟨b, hb, rfl⟩ := List.mem_map.1 (mem_allocations.1 hp)
  obtain ⟨j, hj, hreq, rfl⟩ := mem_channelBindings.1 hb
  have hfree := (requestsFresh h.cycle.settled h.cycle.exact h.cycle.ok.table h.cycle.bundle
    h.cycle.accept).free j hj hreq
  intro hused
  exact Bool.false_ne_true (hfree.symm.trans ((h.cycle.ok.table.valid_iff _).2 hused))

theorem bindings_next_eq : bindings (dataflowNext s x).back.rob.entries =
    bindings (s.back.rob.entries.drop (leavingNum s x)) ++
      requestedBindings (backendRatInput (dataflowCheckpoint s x) s.back (dataflowBack s x)) :=
  bindings_next h.cycle.settled h.cycle.exact h.cycle.port h.cycle.ok.table h.cycle.bundle
    h.cycle.accept h.cycle.noFlush

theorem used_next {p : Nat} :
    p ∈ allocated archRegs (retiredMap m s.back (leavingNum s x))
        (bindings (dataflowNext s x).back.rob.entries) ↔
      p ∈ keptInUse m s x ∨ p ∈ allocations s x := by
  rw [h.bindings_next_eq, mem_allocations, keptInUse, allocated, allocated, List.map_append,
    ← List.append_assoc, List.mem_append]

theorem used_split {p : Nat} :
    p ∈ allocated archRegs m (bindings s.back.rob.entries) ↔
      p ∈ displaced m (bindings (s.back.rob.entries.take (leavingNum s x))) ∨
        p ∈ keptInUse m s x := by
  rw [bindings_split s.back.rob.entries (leavingNum s x),
    (allocated_retire archRegs_nodup _ (h.cycle.settled.chain.split _).1.arch_mem).mem_iff,
    List.mem_append]
  rfl

/-- A result names an entry that does not leave. -/
theorem writes_kept {packs : Nat → ExecuteWbPack} (hpacks : Completes s.back.rob packs) {j : Nat}
    (hj : j < wbWidth) (hw : Writes (packs j)) : (packs j).rdPhy ∈ keptInUse m s x := by
  obtain ⟨k, hk, _, hfinish, hold, hphy⟩ := writes_entry h.bound hpacks hj hw
  have hpop : leavingNum s x ≤ k := by
    by_contra hlt
    obtain ⟨_, _, hdone, _⟩ := popped_spec (s := s.back.commit)
      (c := backendCommitInput (dataflowCheckpoint s x) s.back (dataflowBack s x))
      (backend_view _ _ h.cycle.settled.rob) (by omega : k < leavingNum s x)
    exact Bool.false_ne_true (hfinish.symm.trans hdone)
  rw [hphy]
  exact List.mem_append_right _ (newPhy_mem_drop hk hpop hold)

/-- A register that a unit delivers has had no value. -/
theorem delivered_none {j : Nat} (hj : j < wbWidth) (hw : Writes (unitAnswers x j)) :
    regs (unitAnswers x j).rdPhy = none := by
  obtain ⟨k, hk, hid, hfinish, hold, hphy⟩ := writes_entry h.bound h.answers hj hw
  rw [hphy]
  refine h.ok.waiting k hk ⟨hfinish, fun i hi henable => ?_, fun i hi henable => ?_⟩ hold
  · rw [← hid]
    exact h.allowed.notPort h.flush i hi j hj henable hw.1
  · rw [← hid]
    exact h.allowed.notPending h.flush i hi j hj henable hw.1

/-- The scoreboard takes the value of the unit that delivers the register. -/
theorem learned_delivered {j : Nat} (hj : j < wbWidth) (hw : Writes (unitAnswers x j)) :
    learned regs s x (unitAnswers x j).rdPhy = some (unitAnswers x j).rdValue := by
  refine Scoreboard.deliverAll_of_mem (h.mem_deliveries.2 ⟨j, hj, hw, rfl, rfl⟩) fun v hv => ?_
  obtain ⟨i, hi, hwi, hphy, hvalue⟩ := h.mem_deliveries.1 hv
  rw [← hvalue, writes_once h.bound h.nodup h.answers hi hj hwi hw hphy]

theorem learned_other {p : Nat}
    (hnone : ∀ j, j < wbWidth → Writes (unitAnswers x j) → (unitAnswers x j).rdPhy ≠ p) :
    learned regs s x p = regs p :=
  Scoreboard.deliverAll_of_not_mem fun v hv => by
    obtain ⟨j, hj, hw, hphy, _⟩ := h.mem_deliveries.1 hv
    exact hnone j hj hw hphy

/-- Rename does not touch the scoreboard of a register in use. -/
theorem regs_next_used {p : Nat} (hp : p ∈ allocated archRegs m (bindings s.back.rob.entries)) :
    Scoreboard.next regs (deliveries s x) (allocations s x) p = learned regs s x p :=
  Scoreboard.next_of_not_mem fun hnew => h.allocation_free hnew hp

theorem kept_used {p : Nat} (hp : p ∈ keptInUse m s x) :
    p ∈ allocated archRegs m (bindings s.back.rob.entries) := h.used_split.2 (Or.inr hp)

/-- A register that is delivered is on its way nowhere yet. -/
theorem delivered_absent {j : Nat} (hj : j < wbWidth) (hw : Writes (unitAnswers x j)) :
    (∀ i, i < wbWidth → Writes (s.executeWb i) → (s.executeWb i).rdPhy ≠ (unitAnswers x j).rdPhy) ∧
      s.back.phyf.dataValid (unitAnswers x j).rdPhy = false := by
  have hnone := h.delivered_none hj hw
  have hheld := h.ok.used _ (writes_used h.bound h.answers hj hw)
  rw [hnone] at hheld
  have hport : ∀ i, i < wbWidth → Writes (s.executeWb i) →
      (s.executeWb i).rdPhy ≠ (unitAnswers x j).rdPhy := fun i hi hwi heq =>
    absurd (hheld.pending i hi hwi heq).1 (Option.some_ne_none _).symm
  refine ⟨hport, ?_⟩
  have hfile := hheld.file hport
  cases hvalid : s.back.phyf.dataValid (unitAnswers x j).rdPhy with
  | false => rfl
  | true =>
      rw [hvalid] at hfile
      exact absurd hfile (Option.some_ne_none _)

/-! ### The next cycle -/

/-- What the port holds is in the file a cycle later. -/
theorem port_written {j : Nat} (hj : j < wbWidth) (hw : Writes (s.executeWb j)) :
    (dataflowNext s x).back.phyf.dataValid (s.executeWb j).rdPhy = true ∧
      (dataflowNext s x).back.phyf.data (s.executeWb j).rdPhy = (s.executeWb j).rdValue :=
  @phyf_written (dataflowCheckpoint s x) s.back (dataflowBack s x) _ h.cycle.noRestore h.flush j hj
    hw rfl fun _ hi hwi heq => writes_once h.bound h.nodup h.port hi hj hwi hw heq

theorem holds_next {p : Nat} (hp : p ∈ keptInUse m s x) :
    HoldsResult (dataflowNext s x) p (learned regs s x p) := by
  have hport := h.executeWb_next
  by_cases hdelivered : ∃ j, j < wbWidth ∧ Writes (unitAnswers x j) ∧ (unitAnswers x j).rdPhy = p
  · obtain ⟨j, hj, hw, rfl⟩ := hdelivered
    obtain ⟨habsent, hvalid⟩ := h.delivered_absent hj hw
    refine ⟨fun i hi hwi heq => ?_, fun hnone => ?_⟩
    · rw [hport] at hwi heq ⊢
      rw [writes_once h.bound h.nodup h.answers hi hj hwi hw heq]
      refine ⟨h.learned_delivered hj hw, ?_⟩
      exact dataValid_cleared h.cycle.noRestore (notWritten_of_none h.flush habsent)
        fun htrue => absurd (hvalid.symm.trans htrue) Bool.false_ne_true
    · rw [hport] at hnone
      exact absurd rfl (hnone j hj hw)
  · have hnone : ∀ j, j < wbWidth → Writes (unitAnswers x j) → (unitAnswers x j).rdPhy ≠ p :=
      fun j hj hw heq => hdelivered ⟨j, hj, hw, heq⟩
    have hheld := h.ok.used p (h.kept_used hp)
    rw [h.learned_other hnone]
    refine ⟨fun i hi hwi heq => ?_, fun _ => ?_⟩
    · rw [hport] at hwi heq
      exact absurd heq (hnone i hi hwi)
    · by_cases hpending : ∃ j, j < wbWidth ∧ Writes (s.executeWb j) ∧ (s.executeWb j).rdPhy = p
      · obtain ⟨j, hj, hw, rfl⟩ := hpending
        obtain ⟨hvalid, hdata⟩ := h.port_written hj hw
        rw [(hheld.pending j hj hw rfl).1, hvalid, hdata]
        rfl
      · have hnotPending : ∀ j, j < wbWidth → Writes (s.executeWb j) → (s.executeWb j).rdPhy ≠ p :=
          fun j hj hw heq => hpending ⟨j, hj, hw, heq⟩
        have hwritten : NotWritten (dataflowCheckpoint s x) s.back (dataflowBack s x) p :=
          notWritten_of_none h.flush hnotPending
        have hdata' : (dataflowNext s x).back.phyf.data p = s.back.phyf.data p := data_kept hwritten
        have hvalid' : (dataflowNext s x).back.phyf.dataValid p = s.back.phyf.dataValid p := by
          cases hvalid : s.back.phyf.dataValid p with
          | true => exact h.cycle.dataValid_next hp hvalid
          | false =>
              exact dataValid_cleared h.cycle.noRestore hwritten fun htrue =>
                absurd (hvalid.symm.trans htrue) Bool.false_ne_true
        rw [hvalid', hdata']
        exact hheld.file hnotPending

/-- A register that is not in use in the next cycle has no value then. -/
theorem free_next {p : Nat} (hp : p ∉ allocated archRegs (retiredMap m s.back (leavingNum s x))
    (bindings (dataflowNext s x).back.rob.entries)) :
    (dataflowNext s x).back.phyf.dataValid p = false := by
  rw [h.used_next, not_or] at hp
  have hwritten : NotWritten (dataflowCheckpoint s x) s.back (dataflowBack s x) p :=
    notWritten_of_none h.flush fun j hj hw heq => hp.1 (heq ▸ h.writes_kept h.port hj hw)
  refine dataValid_cleared h.cycle.noRestore hwritten fun hvalid => Or.inl ?_
  have hused : p ∈ allocated archRegs m (bindings s.back.rob.entries) := by
    by_contra hno
    exact Bool.false_ne_true ((h.ok.free p hno).symm.trans hvalid)
  obtain ⟨i, hi, hinvalid, hid⟩ :=
    (mem_displaced_take h.cycle.settled).1 ((h.used_split.1 hused).resolve_right hp.1)
  exact anyBit_iff.2 ⟨i, hi, Bool.and_eq_true_iff.2 ⟨decide_eq_true hid.symm, hinvalid⟩⟩

/-- An entry that stays, and its id. -/
theorem entry_kept {k : Nat} (hk : k < s.back.rob.entries.length) (hpop : leavingNum s x ≤ k) :
    ∃ hk' : k - leavingNum s x < (dataflowNext s x).back.rob.entries.length,
      (dataflowNext s x).back.rob.entries[k - leavingNum s x] =
        backendUpdate (dataflowCheckpoint s x) s.back (dataflowBack s x) k s.back.rob.entries[k] :=
  getElem_next hk hpop h.cycle.noFlush

theorem idAt_kept {k : Nat} (hpop : leavingNum s x ≤ k) :
    (dataflowNext s x).back.rob.idAt (k - leavingNum s x) = s.back.rob.idAt k := by
  have hnext := @idAt_next (dataflowCheckpoint s x) s.back (dataflowBack s x) _
    (k - leavingNum s x) h.cycle.noFlush rfl
  rwa [Nat.add_sub_cancel' hpop] at hnext

/-- An entry of the next cycle by its position. -/
theorem entry_next {k' : Nat} (hk' : k' < (dataflowNext s x).back.rob.entries.length) :
    (∃ k, ∃ hk : k < s.back.rob.entries.length, leavingNum s x ≤ k ∧ k' = k - leavingNum s x ∧
      (dataflowNext s x).back.rob.entries[k'] =
        backendUpdate (dataflowCheckpoint s x) s.back (dataflowBack s x) k
          s.back.rob.entries[k]) ∨
      ∃ i, ∃ hi : i < (pushedEntries (dataflowRename s x)).length,
        k' = s.back.rob.entries.length - leavingNum s x + i ∧
        (dataflowNext s x).back.rob.entries[k'] = (pushedEntries (dataflowRename s x))[i] := by
  have heq : (dataflowNext s x).back.rob.entries =
      (written (dataflowCheckpoint s x) s.back (dataflowBack s x)).drop (leavingNum s x) ++
        pushedEntries (dataflowRename s x) := entries_next h.cycle.noFlush
  have hlen : ((written (dataflowCheckpoint s x) s.back (dataflowBack s x)).drop
      (leavingNum s x)).length = s.back.rob.entries.length - leavingNum s x := by
    rw [List.length_drop, List.length_mapIdx]
  by_cases hold : k' < s.back.rob.entries.length - leavingNum s x
  · left
    have hk : leavingNum s x + k' < s.back.rob.entries.length := by omega
    obtain ⟨hk'', hget⟩ := h.entry_kept hk (Nat.le_add_right _ _)
    refine ⟨leavingNum s x + k', hk, Nat.le_add_right _ _, (Nat.add_sub_cancel_left ..).symm, ?_⟩
    rw [← hget]
    congr 1
    exact (Nat.add_sub_cancel_left ..).symm
  · right
    have hat : (dataflowNext s x).back.rob.entries[k']? = (pushedEntries (dataflowRename s x))[
        k' - (s.back.rob.entries.length - leavingNum s x)]? := by
      rw [heq, List.getElem?_append_right (by omega), hlen]
    rw [List.getElem?_eq_getElem hk'] at hat
    obtain ⟨hi, hget⟩ := List.getElem?_eq_some_iff.1 hat.symm
    exact ⟨_, hi, by omega, hget.symm⟩

/-- An entry that no unit has answered for afterwards is new or was unanswered, and its unit
did not answer in this cycle. -/
theorem unanswered_next {k' : Nat} (hk' : k' < (dataflowNext s x).back.rob.entries.length)
    (hun : Unanswered (dataflowNext s x) k' hk') :
    (∃ k, ∃ hk : k < s.back.rob.entries.length, Unanswered s k hk ∧
      (dataflowNext s x).back.rob.idAt k' = s.back.rob.idAt k ∧
      (dataflowNext s x).back.rob.entries[k'] = s.back.rob.entries[k] ∧
      ∀ j, j < wbWidth → (unitAnswers x j).enable = true →
        (unitAnswers x j).robId ≠ s.back.rob.idAt k) ∨
      ∃ i, ∃ hi : i < (pushedEntries (dataflowRename s x)).length,
        k' = s.back.rob.entries.length - leavingNum s x + i ∧
        (dataflowNext s x).back.rob.entries[k'] = (pushedEntries (dataflowRename s x))[i] := by
  refine (h.entry_next hk').imp_left ?_
  rintro ⟨k, hk, hpop, rfl, hget⟩
  have hid := h.idAt_kept hpop
  have hfinish := hun.finish
  rw [hget] at hfinish
  rcases update_cases (dataflowCheckpoint s x) (dataflowBack s x) h.cycle.settled h.cycle.port hk
    with
    ⟨hsame, hnone⟩ | ⟨j, _, _, _, _, hwritten⟩
  · rw [hsame] at hget hfinish
    refine ⟨k, hk, ⟨hfinish, fun j hj henable => ?_, fun j hj henable => hnone j hj ?_⟩, hid, hget,
      fun j hj henable => ?_⟩
    · have := hun.wbPort j hj
      rw [h.wbPort_next, hid] at this
      exact this henable
    · rw [commitRobInputDataWe, h.cycle.state, h.stays, h.cycle.noFlush]
      exact henable
    · have := hun.executeWb j hj
      rw [h.executeWb_next, hid] at this
      exact this henable
  · rw [hwritten] at hfinish
    exact absurd hfinish.symm Bool.false_ne_true

/-- What rename asks the table to map is what the pushed entries bind. -/
theorem pushed_allocated {e : Entry InFlight} (he : e ∈ pushedEntries (dataflowRename s x))
    (hold : e.item.oldPhyRegIdValid = true) : e.item.newPhyRegId ∈ allocations s x := by
  have hpushed : bindings (pushedEntries (dataflowRename s x)) =
      requestedBindings (backendRatInput (dataflowCheckpoint s x) s.back (dataflowBack s x)) :=
    bindings_pushed h.cycle.settled h.cycle.exact h.cycle.ok.table h.cycle.bundle h.cycle.accept
  rw [mem_allocations, ← hpushed]
  exact List.mem_map.2 ⟨_, mem_bindings.2 ⟨e, he, hold, rfl⟩, rfl⟩

theorem waiting_next {k' : Nat} (hk' : k' < (dataflowNext s x).back.rob.entries.length)
    (hun : Unanswered (dataflowNext s x) k' hk')
    (hold : (dataflowNext s x).back.rob.entries[k'].item.oldPhyRegIdValid = true) :
    Scoreboard.next regs (deliveries s x) (allocations s x)
      (dataflowNext s x).back.rob.entries[k'].item.newPhyRegId = none := by
  rcases h.unanswered_next hk' hun with
    ⟨k, hk, hunk, _, hget, hsilent⟩ | ⟨i, hi, _, hget⟩
  · rw [hget] at hold ⊢
    have hused := List.mem_append_right (archRegs.map m) (newPhy_mem hk hold)
    rw [h.regs_next_used hused, h.learned_other fun j hj hw heq => ?_]
    · exact h.ok.waiting k hk hunk hold
    · obtain ⟨i, hi, hid, _, holdi, hphy⟩ := writes_entry h.bound h.answers hj hw
      have hik : i = k := newPhy_inj h.nodup hi hk holdi hold (hphy.symm.trans heq)
      exact hsilent j hj hw.1 (hik ▸ hid)
  · exact Scoreboard.next_of_mem (h.pushed_allocated (hget ▸ List.getElem_mem hi) hold)

theorem answered_next : Completes (dataflowNext s x).back.rob (unitAnswers x) :=
  have hcycle : NormalCycle (dataflowCheckpoint s x) m s.back
      { dataflowBack s x with executeWb := unitAnswers x } :=
    ⟨h.cycle.settled, h.cycle.exact, h.cycle.port, h.cycle.ok, h.cycle.state, h.cycle.bundle,
      h.cycle.accept, h.cycle.noFlush, h.cycle.noRestore⟩
  results_next hcycle ⟨h.cycle.bundle, h.answers, h.allowed.notPending h.flush⟩

/-- A register that rename takes has no value in the next cycle. -/
theorem holds_allocated {p : Nat} (hp : p ∈ allocations s x) :
    HoldsResult (dataflowNext s x) p none := by
  have hfree := h.allocation_free hp
  have hvalid : (dataflowNext s x).back.phyf.dataValid p = false :=
    dataValid_cleared h.cycle.noRestore
      (notWritten_of_none h.flush fun j hj hw heq =>
        hfree (heq ▸ writes_used h.bound h.port hj hw))
      fun htrue => absurd ((h.ok.free p hfree).symm.trans htrue) Bool.false_ne_true
  refine ⟨fun j hj hw heq => ?_, fun _ => ?_⟩
  · rw [h.executeWb_next] at hw heq
    exact absurd (heq ▸ writes_used h.bound h.answers hj hw) hfree
  · rw [hvalid]
    rfl

theorem results_ok_next : ResultsOk (retiredMap m s.back (leavingNum s x)) (dataflowNext s x)
    (Scoreboard.next regs (deliveries s x) (allocations s x)) where
  used := fun p hp => by
    rcases h.used_next.1 hp with hkept | hnew
    · rw [h.regs_next_used (h.kept_used hkept)]
      exact h.holds_next hkept
    · rw [Scoreboard.next_of_mem hnew]
      exact h.holds_allocated hnew
  free := fun _ hp => h.free_next hp
  waiting := fun _ hk hun hold => h.waiting_next hk hun hold

end FlowCycle

/-! ## A cycle with a flush -/

/-- While commit walks back: the map of the retired instructions and the bindings that are
still in force. -/
structure ResultsWalk (m : RegMap) (bs : List RegBinding) (s : DataflowState)
    (regs : Nat → Option Nat) : Prop where
  mapped : ∀ a ∈ archRegs, regs (m a) = some (s.back.phyf.data (m a))
  free : ∀ p, p ∉ allocated archRegs m bs → s.back.phyf.dataValid p = false

section Flush

variable {m : RegMap} {s : DataflowState} {regs : Nat → Option Nat} {x : DataflowInput}

theorem rename_quiet (hflush : (dataflowFeedback s x).flushing = true) :
    (dataflowRename s x).renameRatMap = false ∧ pushedEntries (dataflowRename s x) = [] ∧
      (dataflowNext s x).back.wbPort = fun _ => ExecuteWbPack.zero :=
  @flushing_quiet (dataflowCheckpoint s x) s.back (dataflowBack s x) hflush

/-- The scoreboard stands still. -/
theorem flush_quiet (regs : Nat → Option Nat) (hflush : (dataflowFeedback s x).flushing = true) :
    (dataflowNext s x).executeWb = (fun _ => ExecuteWbPack.zero) ∧
      (dataflowNext s x).back.wbPort = (fun _ => ExecuteWbPack.zero) ∧
      Scoreboard.next regs (deliveries s x) (allocations s x) = regs := by
  have hwe : ∀ j, unitWbPortWe s x j = false := fun j => by
    rw [unitWbPortWe, hflush, Bool.not_true, Bool.and_false]
  have hquiet := rename_quiet hflush
  have hdeliveries : deliveries s x = [] := by
    have hfilter : (List.range wbWidth).filter (fun j => (executeFeedback s x j).enable) = [] :=
      List.filter_eq_nil_iff.2 fun j _ => by simp [executeFeedback, hwe]
    rw [deliveries, hfilter]
    rfl
  have hallocations : allocations s x = [] := by
    rw [allocations, hquiet.1]
    rfl
  refine ⟨?_, hquiet.2.2, ?_⟩
  · funext j
    show (if unitWbPortWe s x j then _ else _) = _
    rw [hwe, if_neg Bool.false_ne_true]
  · rw [hdeliveries, hallocations]
    rfl

theorem data_flush (hflush : (dataflowFeedback s x).flushing = true) (p : Nat) :
    (dataflowNext s x).back.phyf.data p = s.back.phyf.data p :=
  data_kept (notWritten_of_flush hflush)

/-- A valid register in use holds what the scoreboard says. -/
theorem valid_data (hres : ResultsOk m s regs) {p : Nat}
    (hused : p ∈ allocated archRegs m (bindings s.back.rob.entries))
    (hvalid : s.back.phyf.dataValid p = true) : regs p = some (s.back.phyf.data p) := by
  have hfile := (hres.used p hused).file fun j hj hw heq =>
    absurd ((hres.used p hused).pending j hj hw heq).2 (by rw [hvalid]; exact Bool.noConfusion)
  rw [hvalid] at hfile
  exact hfile.symm

theorem retired_used (h : Settled m s.back) (n : Nat) {a : Nat} (ha : a ∈ archRegs) :
    retiredMap m s.back n a ∈ allocated archRegs m (bindings s.back.rob.entries) := by
  rw [bindings_split s.back.rob.entries n,
    (allocated_retire archRegs_nodup _ (h.chain.split n).1.arch_mem).mem_iff, List.mem_append]
  exact Or.inr (List.mem_append_left _ (List.mem_map_of_mem ha))

/-- The registers of the map behind what retires hold what the scoreboard says. -/
theorem retired_known (h : Settled m s.back) (hok : NormalOk m s.back) (hres : ResultsOk m s regs)
    {a : Nat} (ha : a ∈ archRegs) :
    regs (retiredMap m s.back (leavingNum s x) a) =
      some (s.back.phyf.data (retiredMap m s.back (leavingNum s x) a)) :=
  valid_data hres (retired_used h _ ha) (retired_dataValid h hok ha)

/-- The cycle that starts a walk. -/
theorem results_trap (hc : NormalCycle (dataflowCheckpoint s x) m s.back (dataflowBack s x))
    (hflush : (dataflowFeedback s x).flushing = true) (hres : ResultsOk m s regs) :
    ResultsWalk (retiredMap m s.back (leavingNum s x))
      (bindings (dataflowNext s x).back.rob.entries) (dataflowNext s x) regs := by
  refine ⟨fun a ha => ?_, fun p hp => ?_⟩
  · rw [data_flush hflush]
    exact retired_known hc.settled hc.ok hres ha
  · refine dataValid_cleared hc.noRestore (notWritten_of_flush hflush) fun hvalid => Or.inl ?_
    have hquiet := rename_quiet hflush
    have hbindings : bindings (dataflowNext s x).back.rob.entries =
        bindings (s.back.rob.entries.drop (leavingNum s x)) := by
      have hnext : bindings (dataflowNext s x).back.rob.entries =
          bindings (s.back.rob.entries.drop (leavingNum s x)) ++ requestedBindings
            (backendRatInput (dataflowCheckpoint s x) s.back (dataflowBack s x)) :=
        bindings_next hc.settled hc.exact hc.port hc.ok.table hc.bundle hc.accept hc.noFlush
      have hpushed : bindings (pushedEntries (dataflowRename s x)) = requestedBindings
            (backendRatInput (dataflowCheckpoint s x) s.back (dataflowBack s x)) :=
        bindings_pushed hc.settled hc.exact hc.ok.table hc.bundle hc.accept
      rw [hnext, ← hpushed, hquiet.2.1, bindings_nil, List.append_nil]
    rw [hbindings] at hp
    have hused : p ∈ allocated archRegs m (bindings s.back.rob.entries) := by
      by_contra hno
      exact Bool.false_ne_true ((hres.free p hno).symm.trans hvalid)
    rw [bindings_split s.back.rob.entries (leavingNum s x),
      (allocated_retire archRegs_nodup _ (hc.settled.chain.split _).1.arch_mem).mem_iff,
      List.mem_append] at hused
    obtain ⟨i, hi, hinvalid, hid⟩ := (mem_displaced_take hc.settled).1 (hused.resolve_right hp)
    exact anyBit_iff.2 ⟨i, hi, Bool.and_eq_true_iff.2 ⟨decide_eq_true hid.symm, hinvalid⟩⟩

/-- A cycle of the walk. -/
theorem results_walk (h : Settled m s.back) {k : Nat} (hw : WalkOk m s.back k)
    (hres : ResultsWalk m (bindings (s.back.rob.entries.take (k + 1))) s regs) :
    ResultsWalk m (bindings (s.back.rob.entries.take k)) (dataflowNext s x) regs := by
  have hlen := hw.walk.inList
  obtain ⟨_, _, hnorestore, hflush⟩ := walk_quiet
    (c := backendCommitInput (dataflowCheckpoint s x) s.back (dataflowBack s x)) hw.walk
  have hdata : commitRobFlushData s.back.commit
      (backendCommitInput (dataflowCheckpoint s x) s.back (dataflowBack s x)) =
        s.back.rob.entries[k].item := walk_flushData (backend_view _ _ h.rob) hw.walk hlen
  refine ⟨fun a ha => ?_, fun p hp => ?_⟩
  · rw [data_flush hflush]
    exact hres.mapped a ha
  · show (backendNextWith (dataflowCheckpoint s x) s.back (dataflowBack s x)).phyf.dataValid p = _
    refine dataValid_cleared hnorestore (notWritten_of_flush hflush) fun hvalid => Or.inr ?_
    have hused : p ∈ allocated archRegs m (bindings (s.back.rob.entries.take (k + 1))) := by
      by_contra hno
      exact Bool.false_ne_true ((hres.free p hno).symm.trans hvalid)
    rw [bindings_take_succ hlen, allocated, List.map_append, ← List.append_assoc,
      List.mem_append] at hused
    have hlast := hused.resolve_left hp
    rw [entryBinding] at hlast
    split at hlast
    · rename_i hold
      refine ⟨?_, ?_⟩
      · rw [commitRatRestoreMap, hdata, hold, Bool.and_true]
        exact decide_eq_true hw.walk.notNormal
      · rw [hdata]
        exact List.mem_singleton.1 hlast
    · exact absurd hlast List.not_mem_nil

/-- With nothing in flight and the table's registers alone valid. -/
theorem results_empty (hrob : (dataflowNext s x).back.rob.entries = [])
    (hport : (dataflowNext s x).executeWb = fun _ => ExecuteWbPack.zero)
    (hvalid : ∀ a ∈ archRegs, (dataflowNext s x).back.phyf.dataValid (m a) = true)
    (hres : ResultsWalk m [] (dataflowNext s x) regs) : ResultsOk m (dataflowNext s x) regs := by
  refine ⟨fun p hp => ?_, fun p hp => ?_, fun k hk => ?_⟩
  · rw [hrob] at hp
    obtain ⟨a, ha, rfl⟩ := List.mem_map.1 (by simpa [allocated] using hp)
    refine ⟨fun j _ hw => ?_, fun _ => ?_⟩
    · rw [hport] at hw
      exact absurd hw.1 Bool.false_ne_true
    · rw [hvalid a ha, hres.mapped a ha]
      rfl
  · rw [hrob] at hp
    exact hres.free p hp
  · exact absurd hk (by rw [hrob]; exact Nat.not_lt_zero k)

variable (x) in
theorem readsOwn_dataflow (h : Settled m s.back) (hheld : CheckpointsHeld s.recovery) :
    ReadsOwnCheckpoint (dataflowCheckpoint s x) s.back := readsOwn_of_held h hheld

/-- A misprediction leaves the registers of the map behind the branch. -/
theorem results_miss (h : BackendInv m s.back) (hstate : s.back.commit.curState = .normal)
    (hheld : CheckpointsHeld s.recovery) {i : Nat} (hmiss : MissCycle s.back.commit
      (backendCommitInput (dataflowCheckpoint s x) s.back (dataflowBack s x))
      s.back.rob.toIdealRob i)
    (hres : ResultsOk m s regs) :
    ResultsWalk (retiredMap m s.back (i + 1)) [] (dataflowNext s x) regs := by
  obtain ⟨hvisible, _⟩ := restored_next h hstate (readsOwn_dataflow x h.toSettled hheld) hmiss
  have hrestore : (backendPhyfInput (dataflowCheckpoint s x) s.back
      (dataflowBack s x)).commitPhyfDataValidRestore = true := hmiss.restore
  refine ⟨fun a ha => ?_, fun p hp => ?_⟩
  · have hpop : leavingNum s x = i + 1 := hmiss.popCount_eq
    rw [data_flush hmiss.flushing, ← hpop]
    exact retired_known h.toSettled (h.normal hstate) hres ha
  · show dataValidNext s.back.phyf
      (backendPhyfInput (dataflowCheckpoint s x) s.back (dataflowBack s x)) p = false
    rw [dataValidNext, if_pos hrestore]
    refine Bool.eq_false_iff.2 fun hp' => hp ?_
    rw [allocated, List.map_nil, List.append_nil]
    exact (hvisible p).1 hp'

end Flush

/-! ## Every cycle -/

structure ResultsInv (m : RegMap) (s : DataflowState) (regs : Nat → Option Nat) : Prop where
  back : BackendInv m s.back
  held : CheckpointsHeld s.recovery
  port : Completes s.back.rob s.executeWb
  notPending : ∀ i, i < wbWidth → ∀ j, j < wbWidth → (s.back.wbPort i).enable = true →
    (s.executeWb j).enable = true → (s.back.wbPort i).robId ≠ (s.executeWb j).robId
  bound : AllBound s.back.rob.entries
  normal : s.back.commit.curState = .normal → ResultsOk m s regs
  walking : s.back.commit.curState ≠ .normal → ∃ k, WalkOk m s.back k ∧
    ResultsWalk m (bindings (s.back.rob.entries.take (k + 1))) s regs

section Step

variable {m : RegMap} {s : DataflowState} {regs : Nat → Option Nat} {x : DataflowInput}

theorem ResultsInv.cycleAllowed (h : ResultsInv m s regs) (hallowed : DataflowAllowed s x) :
    CycleAllowed s.back (dataflowBack s x) := ⟨hallowed.bundle, h.port, h.notPending⟩

theorem ResultsInv.held_next (h : ResultsInv m s regs) (hallowed : DataflowAllowed s x) :
    CheckpointsHeld (dataflowNext s x).recovery :=
  DreamCore.Proofs.held_next hallowed.bundle hallowed.buffers.noOverwrite h.held

/-- What the ports hold after a flush. -/
theorem result_ports_flush (hflush : (dataflowFeedback s x).flushing = true) :
    Completes (dataflowNext s x).back.rob (dataflowNext s x).executeWb ∧
      ∀ i, i < wbWidth → ∀ j, j < wbWidth → ((dataflowNext s x).back.wbPort i).enable = true →
        ((dataflowNext s x).executeWb j).enable = true →
        ((dataflowNext s x).back.wbPort i).robId ≠ ((dataflowNext s x).executeWb j).robId := by
  obtain ⟨hport, hwb, _⟩ := flush_quiet (fun _ => none) hflush
  rw [hport, hwb]
  exact ⟨answers_zero _ _, fun i _ j _ henable => absurd henable Bool.false_ne_true⟩

theorem ResultsInv.normalCycle (h : ResultsInv m s regs) (hallowed : DataflowAllowed s x)
    (hstate : s.back.commit.curState = .normal)
    (hflush : commitRobFlush s.back.commit
      (backendCommitInput (dataflowCheckpoint s x) s.back (dataflowBack s x)) = false)
    (hrestore : commitRatMapTableRestore s.back.commit
      (backendCommitInput (dataflowCheckpoint s x) s.back (dataflowBack s x)) = false) :
    NormalCycle (dataflowCheckpoint s x) m s.back (dataflowBack s x) :=
  normalCycle_of_inv h.back hallowed.buffers.exact hstate (h.cycleAllowed hallowed)
    hallowed.accept hflush hrestore

/-- A trap makes the trapping entry the head and starts the walk. -/
theorem ResultsInv.trap_walks (h : ResultsInv m s regs) (hallowed : DataflowAllowed s x)
    (hstate : s.back.commit.curState = .normal)
    (htrap : TrapCycle s.back.commit
      (backendCommitInput (dataflowCheckpoint s x) s.back (dataflowBack s x))
      s.back.rob.toIdealRob) :
    Settled (retiredMap m s.back (leavingNum s x)) (dataflowNext s x).back ∧
      WalkOk (retiredMap m s.back (leavingNum s x)) (dataflowNext s x).back
        (s.back.rob.entries.length - leavingNum s x - 1) := by
  obtain ⟨hsettled, hwalk, _⟩ := trap_next h.back hallowed.buffers.exact hstate
    (h.cycleAllowed hallowed) hallowed.accept htrap
  exact ⟨hsettled, hwalk⟩

theorem FlowCycle.of_keep (h : ResultsInv m s regs) (hallowed : DataflowAllowed s x)
    (hstate : s.back.commit.curState = .normal)
    (hkeep : KeepCycle s.back.commit
      (backendCommitInput (dataflowCheckpoint s x) s.back (dataflowBack s x))) :
    FlowCycle m s regs x :=
  ⟨h.normalCycle hallowed hstate hkeep.noFlush hkeep.noRestore, hkeep.notFlushing,
    hkeep.nextState, h.normal hstate, h.port, h.bound, hallowed⟩

theorem resultsInv_keep (h : ResultsInv m s regs) (hallowed : DataflowAllowed s x)
    (hstate : s.back.commit.curState = .normal)
    (hkeep : KeepCycle s.back.commit
      (backendCommitInput (dataflowCheckpoint s x) s.back (dataflowBack s x))) :
    ResultsInv (retiredMap m s.back (leavingNum s x)) (dataflowNext s x)
      (Scoreboard.next regs (deliveries s x) (allocations s x)) := by
  have hc := FlowCycle.of_keep h hallowed hstate hkeep
  refine ⟨keep_next h.back hallowed.buffers.exact hstate (h.cycleAllowed hallowed)
      hallowed.accept hkeep,
    h.held_next hallowed, ?_, ?_,
    bound_next hc.cycle.settled hc.cycle.port hc.cycle.noFlush hc.bound,
    fun _ => hc.results_ok_next, fun hne => absurd hkeep.nextState hne⟩
  · rw [hc.executeWb_next]
    exact hc.answered_next
  · rw [hc.executeWb_next, hc.wbPort_next]
    exact hallowed.notPort hc.flush

theorem resultsInv_miss (h : ResultsInv m s regs) (hallowed : DataflowAllowed s x)
    (hstate : s.back.commit.curState = .normal)
    {i : Nat} (hmiss : MissCycle s.back.commit
      (backendCommitInput (dataflowCheckpoint s x) s.back (dataflowBack s x))
      s.back.rob.toIdealRob i) :
    ResultsInv (retiredMap m s.back (i + 1)) (dataflowNext s x)
      (Scoreboard.next regs (deliveries s x) (allocations s x)) := by
  have hback := miss_next h.back hstate (readsOwn_dataflow x h.back.toSettled h.held) hmiss
  have hempty : (dataflowNext s x).back.rob.entries = [] := entries_flushed hmiss.flush
  obtain ⟨hport, _, hregs⟩ := flush_quiet regs hmiss.flushing
  obtain ⟨hnext, hpending⟩ := result_ports_flush hmiss.flushing
  rw [hregs]
  refine ⟨hback, h.held_next hallowed, hnext, hpending, ?_, fun _ => ?_,
    fun hne => absurd hmiss.nextState hne⟩
  · rw [hempty]
    exact fun e he => absurd he List.not_mem_nil
  · exact results_empty hempty hport hback.mapped
      (results_miss h.back hstate h.held hmiss (h.normal hstate))

theorem resultsInv_trap (h : ResultsInv m s regs) (hallowed : DataflowAllowed s x)
    (hstate : s.back.commit.curState = .normal)
    (htrap : TrapCycle s.back.commit
      (backendCommitInput (dataflowCheckpoint s x) s.back (dataflowBack s x))
      s.back.rob.toIdealRob) :
    ResultsInv (retiredMap m s.back (leavingNum s x)) (dataflowNext s x)
      (Scoreboard.next regs (deliveries s x) (allocations s x)) := by
  have hc := h.normalCycle hallowed hstate htrap.noFlush htrap.noRestore
  obtain ⟨hsettled, hwalk⟩ := h.trap_walks hallowed hstate htrap
  obtain ⟨hnext, hpending⟩ := result_ports_flush htrap.flushing
  rw [(flush_quiet regs htrap.flushing).2.2]
  have hlast : s.back.rob.entries.length - leavingNum s x - 1 <
      (dataflowNext s x).back.rob.entries.length := hwalk.walk.inList
  have hquiet := rename_quiet htrap.flushing
  have hlength : (dataflowNext s x).back.rob.entries.length =
      s.back.rob.entries.length - leavingNum s x := by
    have hentries : (dataflowNext s x).back.rob.entries =
        (written (dataflowCheckpoint s x) s.back (dataflowBack s x)).drop (leavingNum s x) ++
          pushedEntries (dataflowRename s x) := entries_next htrap.noFlush
    rw [hentries, hquiet.2.1, List.append_nil, List.length_drop, List.length_mapIdx]
  refine ⟨⟨hsettled, ?_, fun hnormal => absurd hnormal hwalk.walk.notNormal,
    fun _ => ⟨_, hwalk⟩⟩, h.held_next hallowed, hnext, hpending,
    bound_next hc.settled hc.port hc.noFlush h.bound,
    fun hnormal => absurd hnormal hwalk.walk.notNormal,
    fun _ => ⟨s.back.rob.entries.length - leavingNum s x - 1, hwalk, ?_⟩⟩
  · show Completes _ (dataflowNext s x).back.wbPort
    rw [hquiet.2.2]
    exact answers_zero _ _
  · rw [List.take_of_length_le (by omega)]
    exact results_trap hc htrap.flushing (h.normal hstate)

theorem resultsInv_walk (h : ResultsInv m s regs) (hallowed : DataflowAllowed s x)
    (hstate : s.back.commit.curState ≠ .normal) :
    ResultsInv m (dataflowNext s x)
      (Scoreboard.next regs (deliveries s x) (allocations s x)) := by
  obtain ⟨k, hw, hres⟩ := h.walking hstate
  obtain ⟨_, _, _, hflush⟩ := walk_quiet
    (c := backendCommitInput (dataflowCheckpoint s x) s.back (dataflowBack s x)) hw.walk
  obtain ⟨hport, _, hregs⟩ := flush_quiet regs hflush
  obtain ⟨hnext, hpending⟩ := result_ports_flush hflush
  rw [hregs]
  have hwalked := results_walk (x := x) h.back.toSettled hw hres
  cases k with
  | zero =>
      obtain ⟨hback, hrob, hnormal⟩ :=
        walk_done (dataflowCheckpoint s x) (dataflowBack s x) h.back hw
      have hempty : (dataflowNext s x).back.rob.entries = [] := congrArg (·.entries) hrob
      refine ⟨hback, h.held_next hallowed, hnext, hpending, ?_,
        fun _ => results_empty hempty hport hback.mapped hwalked,
        fun hne => absurd hnormal hne⟩
      rw [hempty]
      exact fun e he => absurd he List.not_mem_nil
  | succ k =>
      obtain ⟨hback, hwalk, hrob, _⟩ :=
        walk_next (dataflowCheckpoint s x) (dataflowBack s x) h.back hallowed.buffers.exact hw
      have hsame : (dataflowNext s x).back.rob.entries = s.back.rob.entries :=
        congrArg (·.entries) hrob
      refine ⟨hback, h.held_next hallowed, hnext, hpending, hsame ▸ h.bound,
        fun hnormal => absurd hnormal hwalk.walk.notNormal, fun _ => ⟨k, hwalk, ?_⟩⟩
      rw [hsame]
      exact hwalked

theorem resultsInv_next (h : ResultsInv m s regs) (hallowed : DataflowAllowed s x) :
    ResultsInv (retiredMap m s.back (leavingNum s x)) (dataflowNext s x)
      (Scoreboard.next regs (deliveries s x) (allocations s x)) := by
  by_cases hstate : s.back.commit.curState = .normal
  · rcases normal_cycle (backend_view (dataflowCheckpoint s x) (dataflowBack s x) h.back.rob)
      (branchesClean_of_items h.back.items) hstate with hkeep | ⟨i, hmiss⟩ | htrap
    · exact resultsInv_keep h hallowed hstate hkeep
    · have hpop : leavingNum s x = i + 1 := hmiss.popCount_eq
      rw [hpop]
      exact resultsInv_miss h hallowed hstate hmiss
    · exact resultsInv_trap h hallowed hstate htrap
  · obtain ⟨k, hw, _⟩ := h.walking hstate
    have hpop : leavingNum s x = 0 := (walk_quiet
      (c := backendCommitInput (dataflowCheckpoint s x) s.back (dataflowBack s x)) hw.walk).2.1
    rw [hpop]
    exact resultsInv_walk h hallowed hstate

theorem resultsInv_reset (robBuffer : Nat → RobItem) (checkpoints : Nat → Checkpoint)
    (buffer : Nat → IssueQueueItem) :
    ResultsInv (fun a => if a ∈ archRegs then a else 0)
      (dataflowReset robBuffer checkpoints buffer)
      (trackedReset robBuffer checkpoints buffer).regs := by
  refine ⟨backendReset_inv (some robBuffer), fun _ he => absurd he List.not_mem_nil,
    answers_zero _ _, fun i _ j _ henable => absurd henable Bool.false_ne_true,
    fun e he => absurd he List.not_mem_nil, fun _ => ⟨fun p hp => ?_, fun p hp => ?_,
      fun k hk => absurd hk (Nat.not_lt_zero k)⟩, fun hne => absurd rfl hne⟩
  · have hp' : p ∈ archRegs.map (fun a => if a ∈ archRegs then a else 0) ++ [] := hp
    rw [List.append_nil] at hp'
    obtain ⟨a, ha, rfl⟩ := List.mem_map.1 hp'
    have harch := mem_archRegs.1 ha
    rw [if_pos ha]
    refine ⟨fun j _ hw => absurd hw.1 Bool.false_ne_true, fun _ => ?_⟩
    show sourceOf (decide (1 ≤ a) && decide (a < archRegNum)) 0 =
      (if 1 ≤ a ∧ a < archRegNum then some 0 else none)
    rw [if_pos harch, decide_eq_true harch.1, decide_eq_true harch.2]
    rfl
  · refine Bool.eq_false_iff.2 fun hvalid => hp ?_
    have hvalid' : (decide (1 ≤ p) && decide (p < archRegNum)) = true := hvalid
    rw [Bool.and_eq_true, decide_eq_true_iff, decide_eq_true_iff] at hvalid'
    refine List.mem_append_left _ (List.mem_map.2 ⟨p, mem_archRegs.2 hvalid', ?_⟩)
    exact if_pos (mem_archRegs.2 hvalid')

end Step

end DreamCore.Proofs
