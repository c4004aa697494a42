import DreamCore.Lib.Clocked
import DreamCore.Proofs.StoreRetire

/-!
# Stores reach the bus once, in program order

A cycle without a flush moves one operation at most from issue into the FIFO and one
from the FIFO into the buffer, and keeps what is known of the entries in flight.
Over a run the bus has seen what retired, up to the committed stores still buffered.
-/

namespace DreamCore.Proofs

open DreamCore.Clocked DreamCore.Model DreamCore.Ring DreamCore.Rtl

variable {s : LoadStoreState} {input : LoadStoreInput}

/-! ## The FIFO -/

def issuedStores (s : LoadStoreState) (input : LoadStoreInput) : List StoreBufferItem :=
  if issueAccepted s input then (storeItem (issueDataConverted input.issueItem)).toList else []

theorem lsuFifo_flush (hflush : (loadStoreFeedback s input).flushing = true) :
    (loadStoreNext s input).lsuFifo.hasData = false := by
  simp only [loadStoreNext, handshakeNext, hflush, if_true]
  rfl

theorem stbufNewItem_eq {p : IssueExecutePack} (hdata : s.lsuFifo.data = p)
    (hstore : isLoad p.subOp = false) : stbufNewItem (loadStoreStbufInput s input) =
      ⟨true, false, p.robId, p.lsuAddr, storeData p, accessSize p.subOp⟩ := by
  subst hdata
  simp only [stbufNewItem, loadStoreStbufInput, ExecuteLsuInput.exlsuStbufWriteSize,
    ExecuteLsuInput.exlsuStbufWriteData, ExecuteLsuInput.revPack, loadStoreExecuteInput, hstore,
    Bool.false_eq_true, if_false]

/-- An operation that leaves the FIFO puts its store, if it is one, into the buffer. -/
theorem executedStore_of_pop (hpop : (loadStoreExecuteInput s input).issueLsuFifoPop = true) :
    s.lsuFifo.hasData = true ∧
      executedStore s input = (storeItem s.lsuFifo.data).toList := by
  have hwe : (loadStoreExecuteInput s input).lsuWbPortWe = true := hpop
  have hflush := hwe
  simp only [ExecuteLsuInput.lsuWbPortWe, ExecuteLsuInput.lsuWbPortFlush, Bool.not_eq_true',
    Bool.or_eq_false_iff] at hflush
  obtain ⟨⟨⟨hbusy, hvalid⟩, _⟩, hnoflush⟩ := hflush
  have hdata : s.lsuFifo.hasData = true := (Bool.not_eq_false' _).mp hvalid
  refine ⟨hdata, ?_⟩
  unfold executedStore storeItem
  cases hstore : (s.lsuFifo.data.enable && s.lsuFifo.data.valid && !isLoad s.lsuFifo.data.subOp &&
      !s.lsuFifo.data.hasException) with
  | false =>
      have hpush : (loadStoreExecuteInput s input).exlsuStbufPush = false := by
        rw [Bool.eq_false_iff]
        intro hpush
        simp only [ExecuteLsuInput.exlsuStbufPush, ExecuteLsuInput.instValid, Bool.and_eq_true]
          at hpush
        have : (s.lsuFifo.data.enable && s.lsuFifo.data.valid &&
            !isLoad s.lsuFifo.data.subOp && !s.lsuFifo.data.hasException) = true := by
          simp only [Bool.and_eq_true]
          exact ⟨⟨⟨hpush.1.2.1.2, hpush.1.2.2⟩, hpush.1.1.1⟩, hpush.2⟩
        exact Bool.false_ne_true (hstore.symm.trans this)
      have htakes : stbufTakes s.stbuf (loadStoreStbufInput s input) = false :=
        Bool.and_eq_false_iff.2 (Or.inl hpush)
      rw [htakes]
      rfl
  | true =>
      simp only [Bool.and_eq_true, Bool.not_eq_true'] at hstore
      obtain ⟨⟨⟨henable, hok⟩, hload⟩, hexc⟩ := hstore
      have hinst : (loadStoreExecuteInput s input).instValid = true := by
        simp only [ExecuteLsuInput.instValid, Bool.and_eq_true]
        exact ⟨⟨hdata, henable⟩, hok⟩
      have hload' : isLoad (loadStoreExecuteInput s input).revPack.subOp = false := hload
      have hfull : stbufExlsuFull s.stbuf = false := by
        rw [ExecuteLsuInput.busy, hinst, hload', hnoflush, Bool.not_false, Bool.true_and,
          Bool.true_and, Bool.and_true] at hbusy
        exact hbusy
      have hpush : (loadStoreExecuteInput s input).exlsuStbufPush = true := by
        simp only [ExecuteLsuInput.exlsuStbufPush, hload', hwe, hinst, Bool.not_false,
          Bool.true_and, Bool.not_eq_true']
        exact hexc
      have htakes : stbufTakes s.stbuf (loadStoreStbufInput s input) = true := by
        simp only [stbufTakes, hfull, Bool.not_false, Bool.and_true]
        exact hpush
      rw [htakes, if_pos rfl, stbufNewItem_eq rfl hload]
      rfl

theorem executedStore_of_wait (hpop : (loadStoreExecuteInput s input).issueLsuFifoPop = false) :
    executedStore s input = [] := by
  have hwe : (loadStoreExecuteInput s input).lsuWbPortWe = false := hpop
  have hpush : (loadStoreStbufInput s input).exlsuStbufPush = false := by
    show (loadStoreExecuteInput s input).exlsuStbufPush = false
    simp [ExecuteLsuInput.exlsuStbufPush, hwe]
  unfold executedStore stbufTakes
  rw [hpush]
  rfl

/-- The FIFO of the next cycle: the operation issued now, or the one that waits. -/
theorem lsuFifo_keep (hflush : (loadStoreFeedback s input).flushing = false) :
    (issueAccepted s input = true ∧
      (loadStoreNext s input).lsuFifo = ⟨true, issueDataConverted input.issueItem⟩) ∨
    (issueAccepted s input = false ∧
      (loadStoreExecuteInput s input).issueLsuFifoPop = false ∧
      (loadStoreNext s input).lsuFifo = s.lsuFifo) ∨
    (issueAccepted s input = false ∧ (loadStoreNext s input).lsuFifo.hasData = false ∧
      (loadStoreExecuteInput s input).issueLsuFifoPop = true) := by
  have hnext : (loadStoreNext s input).lsuFifo = handshakeNext s.lsuFifo
    (issueDataConverted input.issueItem) input.issueLsuFifoPush
    (loadStoreFeedback s input).flushing (loadStoreExecuteInput s input).issueLsuFifoPop := rfl
  have haccept : issueAccepted s input = (input.issueLsuFifoPush &&
      !handshakeFull s.lsuFifo (loadStoreExecuteInput s input).issueLsuFifoPop) := by
    simp [issueAccepted, hflush]
  rw [hnext, hflush]
  unfold handshakeNext
  rw [if_neg Bool.false_ne_true, ← haccept]
  cases hissue : issueAccepted s input with
  | true => exact Or.inl ⟨rfl, rfl⟩
  | false =>
      cases hpop : (loadStoreExecuteInput s input).issueLsuFifoPop with
      | false => exact Or.inr (Or.inl ⟨rfl, rfl, by simp⟩)
      | true =>
          have hdata := (executedStore_of_pop hpop).1
          exact Or.inr (Or.inr ⟨rfl, by simp [hdata], rfl⟩)

theorem fifoStores_eq {s : LoadStoreState} (hdata : s.lsuFifo.hasData = true) :
    fifoStores s = (storeItem s.lsuFifo.data).toList := if_pos hdata

/-- What leaves the FIFO enters the buffer, what is issued enters the FIFO. -/
theorem fifo_flow (hflush : (loadStoreFeedback s input).flushing = false) :
    executedStore s input ++ fifoStores (loadStoreNext s input) =
      fifoStores s ++ issuedStores s input := by
  rcases lsuFifo_keep hflush with
    ⟨hissue, hnext⟩ | ⟨hissue, hpop, hnext⟩ | ⟨hissue, hnext, hpop⟩
  · rw [fifoStores_eq (by rw [hnext]), hnext, issuedStores, if_pos hissue]
    congr 1
    cases hpop : (loadStoreExecuteInput s input).issueLsuFifoPop with
    | true =>
        obtain ⟨hdata, hstore⟩ := executedStore_of_pop hpop
        rw [hstore, fifoStores_eq hdata]
    | false =>
        have hempty : s.lsuFifo.hasData = false := by
          simp only [issueAccepted, handshakeFull, hpop, Bool.and_eq_true] at hissue
          simpa using hissue.2
        rw [executedStore_of_wait hpop, fifoStores, hempty]
        rfl
  · rw [executedStore_of_wait hpop, issuedStores, hissue, fifoStores, hnext]
    simp [fifoStores]
  · obtain ⟨hdata, hstore⟩ := executedStore_of_pop hpop
    rw [hstore, fifoStores_eq hdata, fifoStores, hnext, issuedStores, hissue]
    rfl

/-! ## The entries of the next cycle -/

/-- What `rob.sv` needs of a cycle, where it is in place. -/
structure RobAllowed (s : LoadStoreState) (input : LoadStoreInput) : Prop where
  exact : GrantsExact s.rob
  offers : ∀ rob, s.rob.rtl = some rob →
    OffersInOrder rob input.offer (loadStorePushed s input)

theorem robAllowed_list (h : s.rob.rtl = none) : RobAllowed s input :=
  ⟨grantsExact_list h, fun _ hrob => absurd (h.symm.trans hrob) (by simp)⟩

/-- A cycle in the normal state that does not flush. -/
structure KeepsStores (s : LoadStoreState) (input : LoadStoreInput) : Prop where
  flow : Flowing s
  state : s.commit.curState = .normal
  allowed : LoadStoreAllowed s input
  ring : RobAllowed s input
  notFlushing : (loadStoreFeedback s input).flushing = false

theorem update_op (k : Nat) (e : Entry LsuInFlight) :
    (loadStoreUpdate s input k e).tag.op = e.tag.op := by
  unfold loadStoreUpdate
  split <;> rfl

theorem update_elsewhere {k : Nat} (e : Entry LsuInFlight)
    (h : ¬(issueAccepted s input = true ∧ input.issueItem.robId = s.rob.idAt k)) :
    (loadStoreUpdate s input k e).tag = e.tag := by
  unfold loadStoreUpdate
  rw [if_neg]
  rwa [Bool.and_eq_true, decide_eq_true_iff]

theorem update_issued {k : Nat} (e : Entry LsuInFlight) (hissue : issueAccepted s input = true)
    (hid : input.issueItem.robId = s.rob.idAt k) :
    (loadStoreUpdate s input k e).tag.issued = some (issueDataConverted input.issueItem) := by
  unfold loadStoreUpdate
  rw [if_pos (Bool.and_eq_true_iff.2 ⟨hissue, decide_eq_true hid⟩)]

namespace KeepsStores

variable (h : KeepsStores s input)
include h

theorem nextState : commitNextState s.commit (loadStoreCommitInput s input) = .normal :=
  (keeping_next (loadStore_view input h.flow.rob) h.state h.notFlushing).1

theorem noFlush : commitRobFlush s.commit (loadStoreCommitInput s input) = false :=
  (keeping_next (loadStore_view input h.flow.rob) h.state h.notFlushing).2

theorem rob_next : (loadStoreNext s input).rob.toIdealRob = s.rob.toIdealRob.next
    (loadStoreUpdate s input) (retires s input) (loadStorePushed s input) false := by
  have hnext : (loadStoreNext s input).rob.toIdealRob = s.rob.toIdealRob.next
    (loadStoreUpdate s input) (retires s input) (loadStorePushed s input)
    (commitRobFlush s.commit (loadStoreCommitInput s input)) := rfl
  rw [hnext, h.noFlush]

theorem wbCommitPort_next : (loadStoreNext s input).wbCommitPort = executeWbPort s input := by
  have hport : wbCommitPortFlush (loadStoreFeedback s input) = false := h.notFlushing
  show wbCommitPortNext (loadStoreFeedback s input) (executeWbPort s input) = _
  simp [wbCommitPortNext, hport]

theorem length_le : s.rob.entries.length ≤ robSize := h.flow.wf.2

/-- An id determines its entry. -/
theorem position_eq {j k : Nat} (hj : j < s.rob.entries.length) (hk : k < s.rob.entries.length)
    (hid : s.rob.idAt j = s.rob.idAt k) : j = k :=
  idAt_inj h.flow.wf (Nat.lt_of_lt_of_le hj h.length_le) (Nat.lt_of_lt_of_le hk h.length_le) hid

theorem pushed_eq : loadStorePushed s input =
    input.renamed.map fun x => { item := x.1, tag := { op := x.2, issued := none } } := by
  rw [loadStorePushed, h.notFlushing, if_neg Bool.false_ne_true]

theorem mem_pushed {e : Entry LsuInFlight} (he : e ∈ loadStorePushed s input) :
    e.tag.op.enable = true ∧ e.tag.issued = none ∧ e.item.finish = false := by
  rw [h.pushed_eq] at he
  obtain ⟨x, hx, rfl⟩ := List.mem_map.1 he
  obtain ⟨henable, hfinish⟩ := h.allowed.renamed.enabled x hx
  exact ⟨henable, rfl, hfinish⟩

/-- The entry whose operation is issued in this cycle. -/
theorem issued_entry (hissue : issueAccepted s input = true) :
    ∃ k, ∃ hk : k < s.rob.entries.length, input.issueItem.robId = s.rob.idAt k ∧
      input.issueItem.toDecodeRenamePack = s.rob.entries[k].tag.op ∧
      s.rob.entries[k].tag.op.opUnit = .lsu ∧ s.rob.entries[k].tag.issued = none ∧
      ∀ j, ∀ hj : j < s.rob.entries.length, j < k → s.rob.entries[j].tag.op.opUnit = .lsu →
        s.rob.entries[j].tag.issued ≠ none := h.allowed.inOrder hissue

/-- An issued operation is not issued again. -/
theorem tag_of_issued {k : Nat} (hk : k < s.rob.entries.length) {p : IssueExecutePack}
    (hissued : s.rob.entries[k].tag.issued = some p) :
    (loadStoreUpdate s input k s.rob.entries[k]).tag = s.rob.entries[k].tag := by
  apply update_elsewhere
  rintro ⟨hissue, hid⟩
  obtain ⟨k', hk', hid', _, _, hnone, _⟩ := h.issued_entry hissue
  have heq := h.position_eq hk' hk (hid'.symm.trans hid)
  subst heq
  rw [hnone] at hissued
  cases hissued

theorem tag_of_other {k : Nat} (hk : k < s.rob.entries.length)
    (hunit : s.rob.entries[k].tag.op.opUnit ≠ .lsu) :
    (loadStoreUpdate s input k s.rob.entries[k]).tag = s.rob.entries[k].tag := by
  apply update_elsewhere
  rintro ⟨hissue, hid⟩
  obtain ⟨k', hk', hid', _, hlsu, _⟩ := h.issued_entry hissue
  have heq := h.position_eq hk' hk (hid'.symm.trans hid)
  subst heq
  exact hunit hlsu

/-- An entry keeps its item or takes the result of the pack that names it. -/
theorem item_cases {k : Nat} (hk : k < s.rob.entries.length) :
    ((loadStoreUpdate s input k s.rob.entries[k]).item = s.rob.entries[k].item) ∨
    ∃ j, j < wbWidth ∧ (s.wbCommitPort j).enable = true ∧
      (s.wbCommitPort j).robId = s.rob.idAt k ∧
      LsuResult s.rob.entries[k] (s.wbCommitPort j) ∧
      (loadStoreUpdate s input k s.rob.entries[k]).item =
        finishedItem s.rob.entries[k].item (s.wbCommitPort j) := by
  rcases robItemWritten_cases (loadStore_view input h.flow.rob) h.flow.port hk with
    ⟨hsame, _⟩ | ⟨j, hj, hwe, hid, hresult, hwritten⟩
  · exact Or.inl hsame
  · exact Or.inr ⟨j, hj, (Bool.and_eq_true_iff.1 hwe).2, hid, hresult, hwritten⟩

theorem retires_le_of_unfinished {k : Nat} {hk : k < s.rob.entries.length}
    (hfinish : s.rob.entries[k].item.finish = false) : retires s input ≤ k :=
  unfinished_stays h.flow hfinish

/-- An entry that is not finished and not being written stays as it is. -/
theorem entry_stays {k : Nat} (hk : k < s.rob.entries.length)
    (hfinish : s.rob.entries[k].item.finish = false)
    (hapart : ∀ j, j < wbWidth → (s.wbCommitPort j).enable = true →
      (s.wbCommitPort j).robId ≠ s.rob.idAt k) :
    ∃ i, ∃ hi : i < (loadStoreNext s input).rob.entries.length,
      (loadStoreNext s input).rob.idAt i = s.rob.idAt k ∧
      (loadStoreNext s input).rob.entries[i].item.finish = false ∧
      (loadStoreNext s input).rob.entries[i].tag =
        (loadStoreUpdate s input k s.rob.entries[k]).tag := by
  have hle := h.retires_le_of_unfinished hfinish
  have hrob := h.rob_next
  obtain ⟨hi, hget⟩ := getElem_next_list (loadStoreUpdate s input) (loadStorePushed s input)
    hk hle
  refine ⟨k - retires s input, by rw [hrob]; exact hi, ?_, ?_, ?_⟩
  · rw [hrob, idAt_next_list]
    congr 1
    omega
  · simp only [hrob, hget]
    rcases h.item_cases hk with hsame | ⟨j, hj, henable, hid, _⟩
    · rw [hsame]
      exact hfinish
    · exact absurd hid (hapart j hj henable)
  · simp only [hrob, hget]

/-- An entry of the next cycle is an older one or a new one. -/
theorem entry_cases {i : Nat} (hi : i < (loadStoreNext s input).rob.entries.length) :
    (∃ hk : retires s input + i < s.rob.entries.length,
      (loadStoreNext s input).rob.idAt i = s.rob.idAt (retires s input + i) ∧
      (loadStoreNext s input).rob.entries[i] =
        loadStoreUpdate s input (retires s input + i) s.rob.entries[retires s input + i]) ∨
    (s.rob.entries.length ≤ retires s input + i ∧
      (loadStoreNext s input).rob.entries[i].tag.op.enable = true ∧
      (loadStoreNext s input).rob.entries[i].tag.issued = none ∧
      (loadStoreNext s input).rob.entries[i].item.finish = false) := by
  have hrob := h.rob_next
  have hi' : i < (s.rob.toIdealRob.next (loadStoreUpdate s input) (retires s input)
      (loadStorePushed s input) false).entries.length := hrob ▸ hi
  rcases getElem_next_cases hi' with ⟨hk, hget⟩ | ⟨hk, hmem⟩
  · left
    refine ⟨hk, ?_, ?_⟩
    · rw [hrob, idAt_next_list]
    · simp only [hrob, hget]
  · right
    simp only [hrob]
    exact ⟨hk, h.mem_pushed hmem⟩

/-! ## The invariant of the next cycle -/

theorem entryOk_update {k : Nat} (hk : k < s.rob.entries.length) :
    EntryOk (s.rob.idAt k) (loadStoreUpdate s input k s.rob.entries[k]) := by
  have hok := h.flow.entries k hk
  refine ⟨by rw [update_op]; exact hok.enable, ?_, ?_⟩
  · intro p hp
    rw [update_op]
    by_cases hissue : issueAccepted s input = true ∧ input.issueItem.robId = s.rob.idAt k
    · obtain ⟨hissue, hid⟩ := hissue
      rw [update_issued _ hissue hid, Option.some.injEq] at hp
      obtain ⟨k', hk', hid', hop, hlsu, _⟩ := h.issued_entry hissue
      have heq := h.position_eq hk' hk (hid'.symm.trans hid)
      subst heq
      subst hp
      have henable : input.issueItem.toDecodeRenamePack.enable = true := hop ▸ hok.enable
      have hvalid : input.issueItem.valid = _ := congrArg DecodeRenamePack.valid hop
      have hsub : input.issueItem.subOp = _ := congrArg DecodeRenamePack.subOp hop
      exact ⟨hlsu, hid, henable, hvalid, hsub⟩
    · rw [update_elsewhere _ hissue] at hp
      exact hok.issued p hp
  · intro hfinish hlsu
    rw [update_op] at hlsu
    rcases h.item_cases hk with hsame | ⟨j, _, _, _, hresult, hwritten⟩
    · rw [hsame] at hfinish ⊢
      obtain ⟨p, hissued, hexc⟩ := hok.finished hfinish hlsu
      exact ⟨p, by rw [h.tag_of_issued hk hissued, hissued], hexc⟩
    · obtain ⟨p, hissued, hexc⟩ := hresult hlsu
      exact ⟨p, by rw [h.tag_of_issued hk hissued, hissued], by rw [hwritten]; exact hexc⟩

theorem entries_next : ∀ i, ∀ hi : i < (loadStoreNext s input).rob.entries.length,
    EntryOk ((loadStoreNext s input).rob.idAt i) (loadStoreNext s input).rob.entries[i] := by
  intro i hi
  rcases h.entry_cases hi with ⟨hk, hid, hget⟩ | ⟨_, henable, hnone, hfinish⟩
  · rw [hid, hget]
    exact h.entryOk_update hk
  · refine ⟨henable, fun p hp => ?_, fun hdone => ?_⟩
    · rw [hnone] at hp
      cases hp
    · exact absurd (hfinish.symm.trans hdone) Bool.false_ne_true

theorem order_next : IssuedInOrder (loadStoreNext s input).rob.entries := by
  intro j k hj hk hjk hlsu hissued
  rcases h.entry_cases hk with ⟨hk', _, hgetk⟩ | ⟨_, _, hnone, _⟩
  · rcases h.entry_cases hj with ⟨hj', _, hgetj⟩ | ⟨hge, _⟩
    · rw [hgetj, update_op] at hlsu
      rw [hgetk] at hissued
      rw [hgetj]
      have hold : s.rob.entries[retires s input + j].tag.issued ≠ none := by
        by_cases hissue : issueAccepted s input = true ∧
            input.issueItem.robId = s.rob.idAt (retires s input + k)
        · obtain ⟨k', hk'', hid', _, _, _, hbefore⟩ := h.issued_entry hissue.1
          have heq := h.position_eq hk'' hk' (hid'.symm.trans hissue.2)
          exact hbefore _ hj' (by omega) hlsu
        · rw [update_elsewhere _ hissue] at hissued
          exact h.flow.order _ _ hj' hk' (by omega) hlsu hissued
      obtain ⟨p, hp⟩ := Option.ne_none_iff_exists'.1 hold
      rw [h.tag_of_issued hj' hp, hp]
      exact Option.some_ne_none p
    · omega
  · exact absurd hnone hissued

/-- The entry whose operation is in the FIFO. -/
theorem fifo_entry (hdata : s.lsuFifo.hasData = true) :
    ∃ k, ∃ hk : k < s.rob.entries.length, s.lsuFifo.data.robId = s.rob.idAt k ∧
      s.rob.entries[k].tag.issued = some s.lsuFifo.data ∧
      s.rob.entries[k].item.finish = false ∧ s.rob.entries[k].tag.op.opUnit = .lsu := by
  obtain ⟨k, hk, hissued, hfinish⟩ := h.flow.fifo hdata
  obtain ⟨hlsu, hid, _⟩ := (h.flow.entries k hk).issued _ hissued
  exact ⟨k, hk, hid, hissued, hfinish, hlsu⟩

/-- Another unit never answers for a load or store. -/
theorem other_ne {j k : Nat} (hj : j < wbWidth) (hne : j ≠ lsuWbIndex)
    (henable : (input.executeWb j).enable = true) (hk : k < s.rob.entries.length)
    (hlsu : s.rob.entries[k].tag.op.opUnit = .lsu) :
    (input.executeWb j).robId ≠ s.rob.idAt k := by
  intro hid
  obtain ⟨k', hk', hid', _, hunit⟩ := h.allowed.others.inFlight j hj hne henable
  have heq := h.position_eq hk' hk (hid'.symm.trans hid)
  subst heq
  exact hunit hlsu

theorem port_next : Answers LsuResult (loadStoreNext s input).rob.toIdealRob
    (loadStoreNext s input).wbCommitPort := by
  rw [h.wbCommitPort_next]
  have hothers := h.allowed.others
  constructor
  · intro j hj henable
    by_cases hne : j = lsuWbIndex
    · rw [executeWbPort, if_pos hne] at henable ⊢
      obtain ⟨k, hk, hid, hfinish, hlsu, hresult⟩ := h.flow.result henable
      obtain ⟨i, hi, hid', hfinish', htag⟩ := h.entry_stays hk hfinish
        fun j hj hport => hid ▸ h.flow.resultApart henable j hj hport
      refine ⟨i, hi, hid.trans hid'.symm, hfinish', fun _ => ?_⟩
      obtain ⟨p, hissued, hexc⟩ := hresult hlsu
      exact ⟨p, by rw [htag, h.tag_of_issued hk hissued, hissued], hexc⟩
    · rw [executeWbPort, if_neg hne] at henable ⊢
      obtain ⟨k, hk, hid, hfinish, hunit⟩ := hothers.inFlight j hj hne henable
      obtain ⟨i, hi, hid', hfinish', htag⟩ := h.entry_stays hk hfinish
        fun i hi hport => hid ▸ hothers.notPending i hi j hj hne hport henable
      refine ⟨i, hi, hid.trans hid'.symm, hfinish', fun hlsu => absurd ?_ hunit⟩
      rwa [htag, update_op] at hlsu
  · intro i hi j hj henablei henablej hid
    unfold executeWbPort at henablei henablej hid
    by_cases hnei : i = lsuWbIndex
    · by_cases hnej : j = lsuWbIndex
      · rw [hnei, hnej]
      · rw [if_pos hnei] at hid henablei
        rw [if_neg hnej] at hid henablej
        obtain ⟨k, hk, hidk, _, hlsu, _⟩ := h.flow.result henablei
        exact absurd (hid.symm.trans hidk) (h.other_ne hj hnej henablej hk hlsu)
    · by_cases hnej : j = lsuWbIndex
      · rw [if_neg hnei] at hid henablei
        rw [if_pos hnej] at hid henablej
        obtain ⟨k, hk, hidk, _, hlsu, _⟩ := h.flow.result henablej
        exact absurd (hid.trans hidk) (h.other_ne hi hnei henablei hk hlsu)
      · rw [if_neg hnei] at hid henablei
        rw [if_neg hnej] at hid henablej
        exact hothers.once i hi j hj hnei hnej henablei henablej hid

omit h in
/-- The result of the unit is that of the operation that left the FIFO. -/
theorem lsuWbPort_next : ((loadStoreNext s input).lsuWbPort.enable = true →
    (loadStoreExecuteInput s input).issueLsuFifoPop = true ∧ s.lsuFifo.hasData = true ∧
      (loadStoreNext s input).lsuWbPort.robId = s.lsuFifo.data.robId ∧
      (loadStoreNext s input).lsuWbPort.hasException = s.lsuFifo.data.hasException ∧
      (loadStoreNext s input).lsuWbPort.opUnit = s.lsuFifo.data.opUnit) := by
  intro henable
  have hnext : (loadStoreNext s input).lsuWbPort = portNext s.lsuWbPort
    (loadStoreExecuteInput s input).sendPack (loadStoreExecuteInput s input).lsuWbPortWe
    (loadStoreExecuteInput s input).lsuWbPortFlush := rfl
  cases hpop : (loadStoreExecuteInput s input).issueLsuFifoPop with
  | false =>
      have hflush : (loadStoreExecuteInput s input).lsuWbPortFlush = true :=
        (Bool.not_eq_false' _).mp hpop
      rw [hnext, portNext, if_pos hflush] at henable
      exact absurd henable Bool.false_ne_true
  | true =>
      have hwe : (loadStoreExecuteInput s input).lsuWbPortWe = true := hpop
      have hflush : (loadStoreExecuteInput s input).lsuWbPortFlush = false :=
        (Bool.not_eq_true' _).mp hpop
      rw [hnext, portNext, hflush, if_neg Bool.false_ne_true, if_pos hwe]
      exact ⟨rfl, (executedStore_of_pop hpop).1, rfl, rfl, rfl⟩

/-- The operation in the FIFO is not answered for yet. -/
theorem fifo_stays (hdata : s.lsuFifo.hasData = true) :
    ∃ i, ∃ hi : i < (loadStoreNext s input).rob.entries.length,
      s.lsuFifo.data.robId = (loadStoreNext s input).rob.idAt i ∧
      (loadStoreNext s input).rob.entries[i].item.finish = false ∧
      (loadStoreNext s input).rob.entries[i].tag.op.opUnit = .lsu ∧
      (loadStoreNext s input).rob.entries[i].tag.issued = some s.lsuFifo.data := by
  obtain ⟨k, hk, hid, hissued, hfinish, hlsu⟩ := h.fifo_entry hdata
  obtain ⟨i, hi, hid', hfinish', htag⟩ := h.entry_stays hk hfinish
    fun j hj hport => hid ▸ (h.flow.fifoApart hdata).1 j hj hport
  have hsame := h.tag_of_issued hk hissued
  exact ⟨i, hi, hid.trans hid'.symm, hfinish', by rw [htag, hsame, hlsu],
    by rw [htag, hsame, hissued]⟩

theorem result_next (henable : (loadStoreNext s input).lsuWbPort.enable = true) :
    ∃ k, ∃ hk : k < (loadStoreNext s input).rob.entries.length,
      (loadStoreNext s input).lsuWbPort.robId = (loadStoreNext s input).rob.idAt k ∧
      (loadStoreNext s input).rob.entries[k].item.finish = false ∧
      (loadStoreNext s input).rob.entries[k].tag.op.opUnit = .lsu ∧
      LsuResult (loadStoreNext s input).rob.entries[k] (loadStoreNext s input).lsuWbPort := by
  obtain ⟨_, hdata, hrob, hexc, _⟩ := lsuWbPort_next henable
  obtain ⟨i, hi, hid, hfinish, hlsu, hissued⟩ := h.fifo_stays hdata
  exact ⟨i, hi, hrob.trans hid, hfinish, hlsu, fun _ => ⟨_, hissued, hexc⟩⟩

/-- The operation issued now belongs to an entry without any answer. -/
theorem issued_stays (hissue : issueAccepted s input = true) :
    ∃ i, ∃ hi : i < (loadStoreNext s input).rob.entries.length,
      (loadStoreNext s input).rob.entries[i].tag.issued =
        some (issueDataConverted input.issueItem) ∧
      (loadStoreNext s input).rob.entries[i].item.finish = false := by
  obtain ⟨k, hk, hid, _, hlsu, hnone, _⟩ := h.issued_entry hissue
  have hfinish : s.rob.entries[k].item.finish = false := by
    rw [Bool.eq_false_iff]
    intro hdone
    obtain ⟨p, hp, _⟩ := (h.flow.entries k hk).finished hdone hlsu
    rw [hnone] at hp
    cases hp
  obtain ⟨i, hi, _, hfinish', htag⟩ := h.entry_stays hk hfinish fun j hj henable heq => by
    obtain ⟨k', hk', hid', _, hresult⟩ := h.flow.port.inFlight j hj henable
    have hsame := h.position_eq hk' hk (hid'.symm.trans heq)
    subst hsame
    obtain ⟨p, hp, _⟩ := hresult hlsu
    rw [hnone] at hp
    cases hp
  exact ⟨i, hi, by rw [htag, update_issued _ hissue hid], hfinish'⟩

/-- The issued operation is none of those that were issued before. -/
theorem issued_fresh (hissue : issueAccepted s input = true) {k : Nat}
    (hk : k < s.rob.entries.length) (hold : s.rob.entries[k].tag.issued ≠ none) :
    s.rob.idAt k ≠ (issueDataConverted input.issueItem).robId := by
  obtain ⟨k', hk', hid, _, _, hnone, _⟩ := h.issued_entry hissue
  intro heq
  have hid' : input.issueItem.robId = s.rob.idAt k := heq.symm
  have hsame := h.position_eq hk' hk (hid.symm.trans hid')
  subst hsame
  exact hold hnone

theorem fifo_next (hdata : (loadStoreNext s input).lsuFifo.hasData = true) :
    ∃ k, ∃ hk : k < (loadStoreNext s input).rob.entries.length,
      (loadStoreNext s input).rob.entries[k].tag.issued =
        some (loadStoreNext s input).lsuFifo.data ∧
      (loadStoreNext s input).rob.entries[k].item.finish = false := by
  rcases lsuFifo_keep h.notFlushing with ⟨hissue, hnext⟩ | ⟨_, _, hnext⟩ | ⟨_, hempty, _⟩
  · rw [hnext]
    exact h.issued_stays hissue
  · rw [hnext] at hdata ⊢
    obtain ⟨i, hi, _, hfinish, _, hissued⟩ := h.fifo_stays hdata
    exact ⟨i, hi, hissued, hfinish⟩
  · exact absurd (hempty.symm.trans hdata) Bool.false_ne_true

theorem resultApart_next (henable : (loadStoreNext s input).lsuWbPort.enable = true) :
    ∀ j, j < wbWidth → ((loadStoreNext s input).wbCommitPort j).enable = true →
      ((loadStoreNext s input).wbCommitPort j).robId ≠
        (loadStoreNext s input).lsuWbPort.robId := by
  obtain ⟨_, hdata, hrob, _⟩ := lsuWbPort_next henable
  obtain ⟨k, hk, hid, _, _, hlsu⟩ := h.fifo_entry hdata
  intro j hj hport
  rw [h.wbCommitPort_next, executeWbPort] at hport ⊢
  rw [hrob]
  by_cases hne : j = lsuWbIndex
  · rw [if_pos hne] at hport ⊢
    exact (h.flow.fifoApart hdata).2 hport
  · rw [if_neg hne] at hport ⊢
    rw [hid]
    exact h.other_ne hj hne hport hk hlsu

theorem fifoApart_next (hdata : (loadStoreNext s input).lsuFifo.hasData = true) :
    (∀ j, j < wbWidth → ((loadStoreNext s input).wbCommitPort j).enable = true →
      ((loadStoreNext s input).wbCommitPort j).robId ≠
        (loadStoreNext s input).lsuFifo.data.robId) ∧
    ((loadStoreNext s input).lsuWbPort.enable = true →
      (loadStoreNext s input).lsuWbPort.robId ≠ (loadStoreNext s input).lsuFifo.data.robId) := by
  rw [h.wbCommitPort_next]
  rcases lsuFifo_keep h.notFlushing with ⟨hissue, hnext⟩ | ⟨_, hpop, hnext⟩ | ⟨_, hempty, _⟩
  · rw [hnext]
    constructor
    · intro j hj hport
      unfold executeWbPort at hport ⊢
      by_cases hne : j = lsuWbIndex
      · rw [if_pos hne] at hport ⊢
        obtain ⟨k, hk, hid, _, hlsu, hresult⟩ := h.flow.result hport
        obtain ⟨p, hp, _⟩ := hresult hlsu
        rw [hid]
        exact h.issued_fresh hissue hk (by rw [hp]; exact Option.some_ne_none p)
      · rw [if_neg hne] at hport ⊢
        obtain ⟨k, hk, hid, _, hlsu, _⟩ := h.issued_entry hissue
        have hother := h.other_ne hj hne hport hk hlsu
        rw [← hid] at hother
        exact hother
    · intro henable
      obtain ⟨_, hold, hrob, _⟩ := lsuWbPort_next henable
      obtain ⟨k, hk, hid, hissued, _⟩ := h.fifo_entry hold
      rw [hrob, hid]
      exact h.issued_fresh hissue hk (by rw [hissued]; exact Option.some_ne_none _)
  · rw [hnext] at hdata ⊢
    constructor
    · intro j hj hport
      unfold executeWbPort at hport ⊢
      by_cases hne : j = lsuWbIndex
      · rw [if_pos hne] at hport ⊢
        exact (h.flow.fifoApart hdata).2 hport
      · rw [if_neg hne] at hport ⊢
        obtain ⟨k, hk, hid, _, _, hlsu⟩ := h.fifo_entry hdata
        rw [hid]
        exact h.other_ne hj hne hport hk hlsu
    · intro henable
      have hpop' := (lsuWbPort_next henable).1
      exact absurd (hpop.symm.trans hpop') Bool.false_ne_true
  · exact absurd (hempty.symm.trans hdata) Bool.false_ne_true

/-! ## The stores of the next cycle -/

omit h in
theorem entryStore_update {k : Nat} (hk : k < s.rob.entries.length)
    (hother : ¬(issueAccepted s input = true ∧ input.issueItem.robId = s.rob.idAt k)) :
    entryStore (loadStoreUpdate s input k s.rob.entries[k]) = entryStore s.rob.entries[k] := by
  rw [entryStore, entryStore, update_elsewhere _ hother]

/-- With the operation issued now, the entries hold one store more at most. -/
theorem stores_updated :
    (s.rob.entries.mapIdx (loadStoreUpdate s input)).filterMap entryStore =
      inFlightStores s.rob.entries ++ issuedStores s input := by
  cases hissue : issueAccepted s input with
  | false =>
      have hnone : issuedStores s input = [] := by simp [issuedStores, hissue]
      rw [hnone, List.append_nil]
      refine filterMap_mapIdx_congr fun k hk => entryStore_update hk ?_
      rw [hissue]
      exact fun hfalse => Bool.false_ne_true hfalse.1
  | true =>
      obtain ⟨k, hk, hid, _, hlsu, hnone, _⟩ := h.issued_entry hissue
      have hstores : issuedStores s input =
          (storeItem (issueDataConverted input.issueItem)).toList := by simp [issuedStores, hissue]
      rw [hstores]
      refine filterMap_mapIdx_insert hk ?_ (fun j hj hkj => ?_) fun j hj hne => ?_
      · rw [entryStore, update_issued _ hissue hid]
        rfl
      · -- nothing behind the issued operation has been issued
        have hnotIssued : s.rob.entries[j].tag.issued = none := by
          rcases Nat.eq_or_lt_of_le hkj with rfl | hlt
          · exact hnone
          · by_contra hsome
            exact h.flow.order k j hk hj hlt hlsu hsome hnone
        rw [entryStore, hnotIssued]
        rfl
      · refine entryStore_update hj fun hsame => hne ?_
        exact h.position_eq hj hk (hsame.2.symm.trans hid)

theorem inFlightStores_next :
    inFlightStores (loadStoreNext s input).rob.entries =
      inFlightStores (s.rob.entries.drop (retires s input)) ++ issuedStores s input := by
  have hpushed : (loadStorePushed s input).filterMap entryStore = [] := by
    rw [List.filterMap_eq_nil_iff]
    intro e he
    rw [entryStore, (h.mem_pushed he).2.1]
    rfl
  rw [h.rob_next, entries_next_list, inFlightStores, List.filterMap_append, hpushed,
    List.append_nil]
  -- the entries that retire are not being issued
  have hfront : ((s.rob.entries.mapIdx (loadStoreUpdate s input)).take
      (retires s input)).filterMap entryStore =
        inFlightStores (s.rob.entries.take (retires s input)) := by
    rw [take_mapIdx]
    refine filterMap_mapIdx_congr fun k hk => ?_
    rw [List.length_take] at hk
    rw [List.getElem_take]
    have hlt : k < retires s input := by omega
    obtain ⟨hlen, hfinish, _⟩ := popped_finished h.flow hlt
    by_cases hlsu : s.rob.entries[k].tag.op.opUnit = .lsu
    · obtain ⟨p, hissued, _⟩ := (h.flow.entries k hlen).finished hfinish hlsu
      rw [entryStore, h.tag_of_issued hlen hissued, entryStore]
    · rw [entryStore, h.tag_of_other hlen hlsu, entryStore]
  have hall := h.stores_updated
  rw [← List.take_append_drop (retires s input)
      (s.rob.entries.mapIdx (loadStoreUpdate s input)), List.filterMap_append, hfront,
    inFlightStores_split s.rob.entries (retires s input), List.append_assoc] at hall
  exact List.append_cancel_left hall

theorem stores_next (hring : StoreRing s.stbuf) :
    pendingStores (loadStoreNext s input) ++ fifoStores (loadStoreNext s input) =
      inFlightStores (loadStoreNext s input).rob.entries := by
  obtain ⟨rest, hrest, _, hpending⟩ := stores_keep input hring h.flow h.state h.notFlushing
  rw [hpending, List.append_assoc, fifo_flow h.notFlushing, ← List.append_assoc, ← hrest,
    h.inFlightStores_next]

theorem flowing_next (hrob : RobSound (loadStoreNext s input).rob) (hring : StoreRing s.stbuf) :
    Flowing (loadStoreNext s input) where
  rob := hrob
  entries := h.entries_next
  order := h.order_next
  port := h.port_next
  result := h.result_next
  fifo := h.fifo_next
  resultApart := h.resultApart_next
  fifoApart := h.fifoApart_next
  stores := h.stores_next hring

end KeepsStores

/-! ## Runs -/

theorem flowing_empty {s : LoadStoreState} (hrob : RobSound s.rob) (hentries : s.rob.entries = [])
    (hfifo : s.lsuFifo.hasData = false) (hresult : s.lsuWbPort.enable = false)
    (hport : s.wbCommitPort = fun _ => ExecuteWbPack.zero) (hpending : pendingStores s = []) :
    Flowing s where
  rob := hrob
  entries := fun k hk => absurd hk (by simp [hentries])
  order := fun j k hj => absurd hj (by simp [hentries])
  port := hport ▸ answers_zero _ _
  result := fun henable => absurd (hresult.symm.trans henable) Bool.false_ne_true
  fifo := fun hdata => absurd (hfifo.symm.trans hdata) Bool.false_ne_true
  resultApart := fun henable => absurd (hresult.symm.trans henable) Bool.false_ne_true
  fifoApart := fun hdata => absurd (hfifo.symm.trans hdata) Bool.false_ne_true
  stores := by simp [hpending, fifoStores, hfifo, hentries, inFlightStores]

theorem storeContents_reset (buffer : Nat → StoreBufferItem) :
    storeContents (loadStoreReset buffer).stbuf = [] := by
  simp [storeContents, contents, loadStoreReset, storeBufferReset, occupancy]

theorem pendingStores_reset (buffer : Nat → StoreBufferItem) :
    pendingStores (loadStoreReset buffer) = [] := by
  simp [pendingStores, storeContents_reset]

/-- Every reset state is one, whatever answers for the reorder buffer. -/
theorem loadStoreReset_inv (robBuffer : Option (Nat → RobItem)) (buffer : Nat → StoreBufferItem) :
    LoadStoreInv { loadStoreReset buffer with rob := .reset robBuffer } where
  rob := robSound_reset robBuffer
  ring := (⟨by decide, by decide, by decide⟩ : WellFormed storeBufferSize 0 0)
  enabled := fun x hx => absurd (storeContents_reset buffer ▸ hx) List.not_mem_nil
  normal := fun _ =>
    flowing_empty (robSound_reset robBuffer) rfl rfl rfl rfl (pendingStores_reset buffer)
  walking := fun hne => absurd rfl hne

/-- A flushing cycle empties the FIFO and the ports. -/
theorem ports_flush (hflush : (loadStoreFeedback s input).flushing = true) :
    (loadStoreNext s input).lsuFifo.hasData = false ∧
      (loadStoreNext s input).lsuWbPort.enable = false ∧
      (loadStoreNext s input).wbCommitPort = fun _ => ExecuteWbPack.zero := by
  have hport : wbCommitPortFlush (loadStoreFeedback s input) = true := hflush
  have hresult : (loadStoreExecuteInput s input).lsuWbPortFlush = true := by
    have hfb : (loadStoreExecuteInput s input).commitFeedbackPack.flushing = true := hflush
    simp [ExecuteLsuInput.lsuWbPortFlush, hfb]
  refine ⟨lsuFifo_flush hflush, ?_, ?_⟩
  · simp only [loadStoreNext, portNext, hresult, if_true]
    rfl
  · simp only [loadStoreNext, wbCommitPortNext, hport, if_true]

/-- While commit walks back the buffer only holds committed stores and none is marked. -/
theorem stores_walk (h : LoadStoreInv s) (hstate : s.commit.curState ≠ .normal) :
    storeContents (loadStoreNext s input).stbuf = storeContents s.stbuf := by
  obtain ⟨hflush, _, hnone, _⟩ := walking_quiet (c := loadStoreCommitInput s input) hstate
  have hcut : storeContents (loadStoreNext s input).stbuf = _ :=
    storeContents_flush h.ring hflush
  have hcommitted : ∀ x ∈ storeContents s.stbuf, x.committed = true := by
    rw [storeContents_split, (h.walking hstate).pending, List.append_nil]
    exact fun x hx => committedStores_committed hx
  have hmark : (storeContents s.stbuf).map (markItem (loadStoreFeedback s input)) =
      storeContents s.stbuf :=
    (List.map_congr_left fun x hx => markItem_of_committed (hcommitted x hx)).trans
      (List.map_id' _)
  rw [hcut, stbuf_feedback, hmark]
  exact List.takeWhile_eq_self_iff.2 hcommitted

theorem enabled_next (h : LoadStoreInv s) :
    ∀ x ∈ storeContents (loadStoreNext s input).stbuf, x.enable = true := by
  have hmarked : ∀ x ∈ (storeContents s.stbuf).map (markItem (loadStoreFeedback s input)),
      x.enable = true := by
    intro x hx
    obtain ⟨y, hy, rfl⟩ := List.mem_map.1 hx
    unfold markItem
    split <;> exact h.enabled y hy
  intro x hx
  cases hflush : (loadStoreFeedback s input).flushing with
  | true =>
      have hcut : storeContents (loadStoreNext s input).stbuf = _ :=
        storeContents_flush h.ring hflush
      rw [hcut] at hx
      exact hmarked x ((List.takeWhile_sublist _).subset hx)
  | false =>
      have hcut : storeContents (loadStoreNext s input).stbuf = _ :=
        storeContents_keep h.ring hflush
      rw [hcut] at hx
      rcases List.mem_append.1 (List.mem_of_mem_drop hx) with hold | hnew
      · exact hmarked x hold
      · exact (executedStore_uncommitted hnew).2

theorem pushed_length_le : (loadStorePushed s input).length ≤ input.renamed.length := by
  rw [loadStorePushed]
  split
  · exact Nat.zero_le _
  · rw [List.length_map]

/-- The ring stays in step with the list, also while commit walks back. -/
theorem rob_sound_next (h : LoadStoreInv s) (hrob : RobAllowed s input)
    (hrenamed : RenamedFits s input) : RobSound (loadStoreNext s input).rob := by
  cases hflush : commitRobFlush s.commit (loadStoreCommitInput s input) with
  | true => exact robSound_flushed hflush
  | false =>
      have hwrites : WritesInFlight s.commit (loadStoreCommitInput s input) s.rob.toIdealRob := by
        by_cases hstate : s.commit.curState = .normal
        · exact writesInFlight_of_answers (h.normal hstate).port
        · exact fun j _ hwe => by simp [commitRobInputDataWe, hstate] at hwe
      refine h.rob.next hrob.exact (loadStore_view input h.rob) hwrites (fun _ _ => rfl)
        hrob.offers ?_
      have hfits := hrenamed.fits
      have hpushed := @pushed_length_le s input
      omega

theorem loadStoreInv_next (h : LoadStoreInv s) (hrob : RobAllowed s input)
    (hallowed : LoadStoreAllowed s input) :
    LoadStoreInv (loadStoreNext s input) := by
  have hsound := rob_sound_next h hrob hallowed.renamed
  have hring : StoreRing (loadStoreNext s input).stbuf := by
    cases hflush : (loadStoreFeedback s input).flushing with
    | true => exact storeRing_flush h.ring hflush
    | false => exact storeRing_keep h.ring hflush
  have henabled : ∀ x ∈ storeContents (loadStoreNext s input).stbuf, x.enable = true :=
    enabled_next h
  -- in a flushing cycle everything but the committed stores goes
  have hcleared : (loadStoreFeedback s input).flushing = true →
      pendingStores (loadStoreNext s input) = [] →
      (commitNextState s.commit (loadStoreCommitInput s input) = .normal →
        commitRobFlush s.commit (loadStoreCommitInput s input) = true) →
      LoadStoreInv (loadStoreNext s input) := by
    intro hflush hpending hrobFlush
    obtain ⟨hfifo, hresult, hport⟩ := ports_flush hflush
    refine ⟨hsound, hring, henabled, fun hnext => ?_, fun _ => ⟨hfifo, hpending⟩⟩
    have hentries : (loadStoreNext s input).rob.toIdealRob = s.rob.toIdealRob.next
        (loadStoreUpdate s input) (retires s input) (loadStorePushed s input) true := by
      rw [← hrobFlush hnext]
      rfl
    refine flowing_empty hsound ?_ hfifo hresult hport hpending
    rw [hentries]
    exact entries_cleared
  by_cases hstate : s.commit.curState = .normal
  · cases hflush : (loadStoreFeedback s input).flushing with
    | true =>
        exact hcleared hflush (stores_flush h.ring (h.normal hstate) hstate hflush).2
          (flushing_cleared hstate hflush)
    | false =>
        have hkeep : KeepsStores s input := ⟨h.normal hstate, hstate, hallowed, hrob, hflush⟩
        exact ⟨hsound, hring, henabled, fun _ => hkeep.flowing_next hsound h.ring,
          fun hne => absurd hkeep.nextState hne⟩
  · obtain ⟨hflush, _, _, hrobFlush⟩ :=
      walking_quiet (c := loadStoreCommitInput s input) hstate
    refine hcleared hflush ?_ hrobFlush
    rw [pendingStores, stores_walk h hstate]
    exact (h.walking hstate).pending

/-- The writes of the retired stores that have not left the buffer. -/
def bufferedWrites (s : LoadStoreState) : List StoreWrite := (committedStores s).map itemWrite

theorem bufferedWrites_reset (buffer : Nat → StoreBufferItem) :
    bufferedWrites (loadStoreReset buffer) = [] := by
  simp [bufferedWrites, committedStores, storeContents_reset]

theorem stores_conserved_next (h : LoadStoreInv s) :
    bufferedWrites s ++ retiredStores s input =
      busWrites s input ++ bufferedWrites (loadStoreNext s input) := by
  by_cases hstate : s.commit.curState = .normal
  · exact stores_conserved h.ring (h.normal hstate) hstate
  · obtain ⟨hflush, hpop, _, _⟩ := walking_quiet (c := loadStoreCommitInput s input) hstate
    have hretired : retiredStores s input = [] := by
      rw [retiredStores, hpop]
      rfl
    have hleaves : leaves s.stbuf (loadStoreFeedback s input) = 0 := leaves_flush hflush
    rw [hretired, List.append_nil, busWrites_committed h.ring, hleaves, bufferedWrites,
      bufferedWrites, committedStores, committedStores, stores_walk h hstate]
    rfl

/-- Committed entries are the front of the buffer. -/
def CommittedFirst (s : LoadStoreState) : Prop :=
  ∃ committed pending, storeContents s.stbuf = committed ++ pending ∧
    (∀ x ∈ committed, x.committed = true) ∧ (∀ x ∈ pending, x.committed = false)

theorem committedFirst_of_inv (h : LoadStoreInv s) : CommittedFirst s := by
  refine ⟨committedStores s, pendingStores s, storeContents_split s,
    fun x hx => committedStores_committed hx, fun x hx => ?_⟩
  by_cases hstate : s.commit.curState = .normal
  · exact inFlightStores_uncommitted
      ((h.normal hstate).stores ▸ List.mem_append_left _ hx)
  · rw [(h.walking hstate).pending] at hx
    exact absurd hx List.not_mem_nil

/-- The bus sees the retired stores in program order, each once; those it has not seen
yet are the committed entries, at the front of the buffer. -/
theorem stores_in_program_order (buffer : Nat → StoreBufferItem) (inputs : List LoadStoreInput)
    (h : Along loadStoreNext LoadStoreAllowed (loadStoreReset buffer) inputs) :
    outputs loadStoreNext busWrites (loadStoreReset buffer) inputs <+:
        outputs loadStoreNext retiredStores (loadStoreReset buffer) inputs ∧
      outputs loadStoreNext retiredStores (loadStoreReset buffer) inputs =
        outputs loadStoreNext busWrites (loadStoreReset buffer) inputs ++
          bufferedWrites (run loadStoreNext (loadStoreReset buffer) inputs) ∧
      CommittedFirst (run loadStoreNext (loadStoreReset buffer) inputs) := by
  have hstart : LoadStoreInv (loadStoreReset buffer) ∧ (loadStoreReset buffer).rob.rtl = none :=
    ⟨loadStoreReset_inv none buffer, rfl⟩
  have hstep : ∀ s input, LoadStoreInv s ∧ s.rob.rtl = none → LoadStoreAllowed s input →
      LoadStoreInv (loadStoreNext s input) ∧ (loadStoreNext s input).rob.rtl = none :=
    fun s _ hinv hallowed => ⟨loadStoreInv_next hinv.1 (robAllowed_list hinv.2) hallowed,
      congrArg (Option.map _) hinv.2⟩
  have hflow := outputs_conserved hstep (fun _ _ hinv _ => stores_conserved_next hinv.1) hstart h
  have hinv := (invariant_run hstep hstart h).1
  have hall : outputs loadStoreNext retiredStores (loadStoreReset buffer) inputs =
      outputs loadStoreNext busWrites (loadStoreReset buffer) inputs ++
        bufferedWrites (run loadStoreNext (loadStoreReset buffer) inputs) := by
    rwa [bufferedWrites_reset, List.nil_append] at hflow
  exact ⟨⟨_, hall.symm⟩, hall, committedFirst_of_inv hinv⟩

/-! ## Stores around a call -/

def storeWord : DecodeRenamePack :=
  { IssueExecutePack.zero.toDecodeRenamePack with
    enable := true, valid := true, opUnit := .lsu, subOp := LsuOp.sw }

/-- A cycle in which nothing is renamed, issued or completed elsewhere. -/
def quietLoadStore : LoadStoreInput where
  renamed := []
  offer := ⟨fun _ => RobItem.zero, fun _ => false, false⟩
  issueItem := IssueExecutePack.zero.toReadregIssueOpInfo
  issueLsuFifoPush := false
  executeWb := fun _ => ExecuteWbPack.zero
  busStbufData := 0
  busStbufReadAck := true
  env :=
    { rob := (⟨0, []⟩ : IdealRob Unit).view fun _ => RobItem.zero
      intifCommitHasInterrupt := false
      intifCommitMcauseData := 0
      intifCommitAckData := 0
      csrfCommitReadData := 0
      csrfAllMstatusData := 0
      cpbufCommitData := fun _ => Checkpoint.zero
      wbCommitPortDataOut := fun _ => ExecuteWbPack.zero }
  stale := fun _ => RobItem.zero

def noStores : Nat → StoreBufferItem := fun _ => ⟨false, false, 0, 0, 0, 0⟩

theorem othersAnswer_none (h : input.executeWb = fun _ => ExecuteWbPack.zero) :
    OthersAnswer s input := by
  have hnone : ∀ j, (input.executeWb j).enable = false := fun j => by rw [h]; rfl
  constructor
  · exact fun j _ _ henable => absurd (hnone j) (by simp [henable])
  · exact fun i _ j _ _ _ henable => absurd (hnone i) (by simp [henable])
  · exact fun _ _ j _ _ _ henable => absurd (hnone j) (by simp [henable])

/-- Issue sends the store of an entry. -/
def sendStore (robId addr data : Nat) : LoadStoreInput :=
  { quietLoadStore with
    issueItem :=
      { IssueExecutePack.zero.toReadregIssueOpInfo with
        toDecodeRenamePack := storeWord, robId := robId, src1Value := addr, src2Value := data }
    issueLsuFifoPush := true }

/-- Two stores, a call and a store behind it that executes before the call traps. -/
def storesAroundCall : List LoadStoreInput :=
  [{ quietLoadStore with
      renamed := [(RobItem.zero, storeWord), (RobItem.zero, storeWord),
        (RobItem.zero, { storeWord with opUnit := .alu }), (RobItem.zero, storeWord)] },
    sendStore 0 0x80000010 7, sendStore 1 0x80000014 8, sendStore 3 0x80000018 9,
    { quietLoadStore with
      executeWb := fun j =>
        if j = 0 then { ExecuteWbPack.zero with enable := true, robId := 2, hasException := true }
        else ExecuteWbPack.zero }] ++ List.replicate 9 quietLoadStore

theorem stores_in_program_order_squashed :
    (storeContents (run loadStoreNext (loadStoreReset noStores)
        (storesAroundCall.take 6)).stbuf).length = 3 ∧
      outputs loadStoreNext busWrites (loadStoreReset noStores) storesAroundCall =
        [⟨0x80000010, 4, 7⟩, ⟨0x80000014, 4, 8⟩] ∧
      outputs loadStoreNext retiredStores (loadStoreReset noStores) storesAroundCall =
        outputs loadStoreNext busWrites (loadStoreReset noStores) storesAroundCall ++
          bufferedWrites (run loadStoreNext (loadStoreReset noStores) storesAroundCall) :=
  ⟨by decide +kernel, by decide +kernel,
    (stores_in_program_order noStores storesAroundCall (by decide +kernel)).2.1⟩

end DreamCore.Proofs
