import DreamCore.Model.FrontEnd
import DreamCore.Proofs.FetchContinuity
import DreamCore.Proofs.RegisterMap
import DreamCore.Proofs.StoreOrder
import DreamCore.Proofs.TcmBytes

/-!
# What lies behind a `fence.i` is fetched after the stores before it

Fetch pushes the word only when nothing is in flight and the store buffer is empty.  The
memory then holds every retired store, and the bundle in hand, read in the cycle before,
already shows the write of that cycle.
-/

namespace DreamCore.Proofs

open DreamCore.Bytes DreamCore.Clocked DreamCore.Model DreamCore.Ring DreamCore.Rtl

variable {s : FrontEndState} {input : FrontEndInput}

/-! ## Rename -/

theorem mem_frontEndRenamed {x : RobItem × DecodeRenamePack} (hx : x ∈ frontEndRenamed s input) :
    x.2.enable = true ∧ x.1.finish = false := by
  rw [frontEndRenamed] at hx
  split at hx
  · obtain ⟨i, hi, rfl⟩ := List.mem_map.1 hx
    have hvalid := (List.mem_filter.1 hi).2
    simp only [RenameInput.renameRobDataValid, RenameInput.sendEnable, RenameInput.revEnable,
      Bool.and_eq_true] at hvalid
    exact ⟨hvalid.2.1.1.2, rfl⟩
  · exact absurd hx List.not_mem_nil

/-- A wrapped reorder buffer leaves a bundle free, and rename pushes nothing behind an
instruction that it holds back. -/
structure FillsInOrder (s : FrontEndState) (input : FrontEndInput) : Prop where
  exact : GrantsExact s.loadStore.rob
  inOrder : (frontEndRenameInput s input).renameRobPush = true →
    SendsInOrder (frontEndRenameInput s input)

instance (s : FrontEndState) (input : FrontEndInput) : Decidable (FillsInOrder s input) :=
  decidable_of_iff (GrantsExact s.loadStore.rob ∧
      ((frontEndRenameInput s input).renameRobPush = true →
        SendsInOrder (frontEndRenameInput s input)))
    ⟨fun h => ⟨h.1, h.2⟩, fun h => ⟨h.1, h.2⟩⟩

/-- Exact grants leave room for what rename pushes. -/
theorem frontEndRenamed_fits (h : RobSound s.loadStore.rob) (hfills : FillsInOrder s input) :
    RenamedFits s.loadStore (frontEndLoadStoreInput s input) := by
  refine ⟨?_, fun x hx => mem_frontEndRenamed hx⟩
  have hsize := h.wf.2
  show s.loadStore.rob.entries.length + (frontEndRenamed s input).length ≤ robSize
  rw [frontEndRenamed]
  split
  · rw [List.length_map, ← countOne_eq_filter]
    have hbound : countOne renameWidth (frontEndRenameInput s input).renameRobDataValid ≤
        robSize - s.loadStore.rob.entries.length := by
      refine countOne_le_bound fun i hi hvalid => ?_
      rw [RenameInput.renameRobDataValid, Bool.and_eq_true] at hvalid
      have hgrant : s.loadStore.rob.entries.length + i < robSize :=
        of_decide_eq_true ((h.newIdValid_eq hfills.exact hi).symm.trans hvalid.1)
      omega
    omega
  · exact hsize

theorem frontEnd_loadStoreAllowed (hrob : RobSound s.loadStore.rob) (hfills : FillsInOrder s input)
    (h : FrontEndAllowed s input) :
    LoadStoreAllowed s.loadStore (frontEndLoadStoreInput s input) :=
  ⟨frontEndRenamed_fits hrob hfills, h.others, h.inOrder⟩

/-- The entry of the instruction in slot `i`. -/
def renamedEntry (r : RenameInput) (i : Nat) : Entry LsuInFlight where
  item := r.robItem i
  tag := { op := r.revPack i, issued := none }

theorem frontEnd_pushed (s : FrontEndState) (input : FrontEndInput) :
    loadStorePushed s.loadStore (frontEndLoadStoreInput s input) =
      if (frontEndRenameInput s input).renameRobPush then
        ((List.range renameWidth).filter (frontEndRenameInput s input).renameRobDataValid).map
          (renamedEntry (frontEndRenameInput s input))
      else [] := by
  have hfeedback : (loadStoreFeedback s.loadStore (frontEndLoadStoreInput s input)).flushing =
    (frontEndRenameInput s input).readregPortFlush := rfl
  have hrenamed : (frontEndLoadStoreInput s input).renamed = frontEndRenamed s input := rfl
  rw [loadStorePushed, hfeedback, hrenamed, frontEndRenamed]
  cases hflush : (frontEndRenameInput s input).readregPortFlush with
  | true =>
      have hpush : (frontEndRenameInput s input).renameRobPush = false := by
        simp [RenameInput.renameRobPush, hflush]
      rw [if_pos rfl, hpush, if_neg Bool.false_ne_true]
  | false =>
      rw [if_neg Bool.false_ne_true]
      split
      · rw [List.map_map]
        rfl
      · rfl

/-- What rename pushes is what `rob.sv` is offered. -/
theorem frontEnd_robAllowed (hfills : FillsInOrder s input) :
    RobAllowed s.loadStore (frontEndLoadStoreInput s input) where
  exact := hfills.exact
  offers := fun rob hrob => by
    rw [frontEnd_pushed]
    exact offersInOrder_rename (by simp [frontEndRenameInput, ReorderBuffer.newIdValid, hrob])
      hfills.inOrder fun _ => rfl

/-! ## The state of a run -/

/-- The read port answers the request at the pc with the memory as it is. -/
def FetchesMemory (s : FrontEndState) : Prop :=
  s.bus.busFetchReadAck = true → inTcm s.fetch.pc = true →
    busFetchData s.bus (tcmBusData s.tcm) =
      ofBytes (fun k => tcmByte s.tcm (busTcmAddr s.fetch.pc + k)) tcmBankNum

structure FrontEndInv (s : FrontEndState) : Prop where
  loadStore : LoadStoreInv s.loadStore
  pcs : s.loadStore.commit.curState = .normal →
    ∀ e ∈ s.loadStore.rob.entries, e.item.pc = e.tag.op.pc
  fetches : FetchesMemory s

theorem fetchesMemory_next (s : FrontEndState) (input : FrontEndInput) :
    FetchesMemory (frontEndNext s input) := by
  intro hack hin
  have hreq : fetchBusReadReq s.fetch (frontEndFetchInput s input) = true := hack
  have hpc : (frontEndNext s input).fetch.pc = fetchBusAddr s.fetch (frontEndFetchInput s input) :=
    rfl
  have hrd : busTcmFetchRd (fetchBusReadReq s.fetch (frontEndFetchInput s input))
      (fetchBusAddr s.fetch (frontEndFetchInput s input)) = true := by
    rw [busTcmFetchRd, hreq, ← hpc, hin]
    rfl
  have htcm : (frontEndNext s input).tcm = tcmCopyNext s.tcm
      (busTcmAddr (fetchBusAddr s.fetch (frontEndFetchInput s input))) true
      (frontEndTcmWrite s input) := by
    rw [← hrd]
    rfl
  have hdata : busFetchData (frontEndNext s input).bus (tcmBusData (frontEndNext s input).tcm) =
      tcmBusData (frontEndNext s input).tcm := if_pos hrd
  rw [hdata, htcm, tcmBusData_next, hpc]

/-- The conditions of a cycle that keeps what is in flight. -/
theorem frontEnd_keeps (h : FrontEndInv s) (hallowed : FrontEndAllowed s input)
    (hfills : FillsInOrder s input) (hflush : (frontEndFeedback s input).flushing = false) :
    KeepsStores s.loadStore (frontEndLoadStoreInput s input) := by
  have hnoflush : (loadStoreFeedback s.loadStore (frontEndLoadStoreInput s input)).flushing =
      false := hflush
  have hstate : s.loadStore.commit.curState = .normal := by
    by_contra hne
    have hquiet := (walking_quiet (c := loadStoreCommitInput s.loadStore
      (frontEndLoadStoreInput s input)) hne).1
    exact Bool.false_ne_true (hnoflush.symm.trans hquiet)
  exact ⟨h.loadStore.normal hstate, hstate,
    frontEnd_loadStoreAllowed h.loadStore.rob hfills hallowed, frontEnd_robAllowed hfills,
    hnoflush⟩

/-- Whoever flushes and is back in the normal state has emptied the reorder buffer. -/
theorem flushed_clears (hflush : (frontEndFeedback s input).flushing = true)
    (hnext : (frontEndNext s input).loadStore.commit.curState = .normal) :
    commitRobFlush s.loadStore.commit
      (loadStoreCommitInput s.loadStore input.loadStore) = true := by
  by_cases hstate : s.loadStore.commit.curState = .normal
  · exact flushing_cleared hstate hflush hnext
  · exact (walking_quiet (c := loadStoreCommitInput s.loadStore input.loadStore)
      hstate).2.2.2 hnext

/-- Write-back leaves the pc of an entry alone. -/
theorem pcs_next (h : FrontEndInv s) (hallowed : FrontEndAllowed s input)
    (hfills : FillsInOrder s input)
    (hnext : (frontEndNext s input).loadStore.commit.curState = .normal) :
    ∀ e ∈ (frontEndNext s input).loadStore.rob.entries, e.item.pc = e.tag.op.pc := by
  intro e he
  cases hflush : (frontEndFeedback s input).flushing with
  | true =>
      have hnone : (frontEndNext s input).loadStore.rob.entries = [] :=
        if_pos (flushed_clears hflush hnext)
      rw [hnone] at he
      exact absurd he List.not_mem_nil
  | false =>
      have hkeep := frontEnd_keeps h hallowed hfills hflush
      have hrob : (frontEndNext s input).loadStore.rob.toIdealRob = _ := hkeep.rob_next
      rw [hrob, entries_next_list] at he
      rcases List.mem_append.1 he with hold | hnew
      · obtain ⟨k, hk, rfl⟩ := List.mem_mapIdx.1 (List.mem_of_mem_drop hold)
        have hpc := h.pcs hkeep.state _ (List.getElem_mem hk)
        rw [update_op]
        rcases hkeep.item_cases hk with hsame | ⟨j, _, _, _, _, hwritten⟩
        · rw [hsame]
          exact hpc
        · rw [hwritten]
          exact hpc
      · rw [hkeep.pushed_eq] at hnew
        obtain ⟨y, hy, rfl⟩ := List.mem_map.1 hnew
        have hy' : y ∈ frontEndRenamed s input := hy
        rw [frontEndRenamed] at hy'
        split at hy'
        · obtain ⟨i, _, rfl⟩ := List.mem_map.1 hy'
          rfl
        · exact absurd hy' List.not_mem_nil

theorem frontEndInv_next (h : FrontEndInv s) (hallowed : FrontEndAllowed s input)
    (hfills : FillsInOrder s input) : FrontEndInv (frontEndNext s input) where
  loadStore := loadStoreInv_next h.loadStore (frontEnd_robAllowed hfills)
    (frontEnd_loadStoreAllowed h.loadStore.rob hfills hallowed)
  pcs := pcs_next h hallowed hfills
  fetches := fetchesMemory_next s input

theorem frontEndReset_inv (mem : Nat → Nat → BitVec 8) (outData : Nat → BitVec 8)
    (robBuffer : Nat → RobItem) (buffer : Nat → StoreBufferItem) :
    FrontEndInv (frontEndReset mem outData robBuffer buffer) where
  loadStore := loadStoreReset_inv (some robBuffer) buffer
  pcs := fun _ _ he => absurd he List.not_mem_nil
  fetches := fun hack => absurd hack Bool.false_ne_true

/-! ## A `fence.i` is pushed -/

theorem fetchFenceI_eq (s : FetchState) {input : FetchInput} (hack : input.busFetchReadAck = true)
    (i : Nat) : fetchFenceI s input i = isFenceIWord (fetchOpcode s input i) := by
  rw [fetchFenceI, hack, Bool.and_true, isFenceIWord]

/-- Only the first slot holds it, and everything in front of it is idle. -/
theorem fenceI_pushed {f : FetchState} {x : FetchInput} {p : FetchDecodePack}
    (hp : p ∈ fetchPushed f x) (hfence : isFenceIWord p.value = true)
    (hspace : ∃ n, ∀ i, i < fetchWidth → x.fetchDecodeFifoDataInEnable i = expandOne n i) :
    x.decodeFeedbackIdle = true ∧ x.renameFeedbackIdle = true ∧
      x.commitFeedbackPack.enable = false ∧ x.stbufAllEmpty = true := by
  obtain ⟨n, hn⟩ := hspace
  obtain ⟨m, hm, hblock, _⟩ := fetchEnable_block (s := f) hn
  have hpush : fetchDecodeFifoPush f x = true := by
    by_contra hno
    rw [fetchPushed_none (Bool.eq_false_iff.2 hno)] at hp
    exact absurd hp List.not_mem_nil
  rw [fetchPushed_eq hm hblock hpush] at hp
  obtain ⟨i, hi, rfl⟩ := List.mem_map.1 hp
  have him := List.mem_range.1 hi
  have henable := (hblock i (by omega)).trans (decide_eq_true him)
  simp only [fetchEnable, Bool.and_eq_true, Bool.not_eq_true'] at henable
  obtain ⟨⟨⟨_, hallowed⟩, _⟩, hack⟩ := henable
  have hword : fetchFenceI f x i = true := (fetchFenceI_eq f hack i).trans hfence
  cases i with
  | succ i =>
      rw [pushForbiddenFenceI, hword, Bool.or_true] at hallowed
      exact absurd hallowed.symm Bool.false_ne_true
  | zero =>
      rw [pushForbiddenFenceI, hword, Bool.true_and] at hallowed
      simpa [Bool.or_eq_false_iff, and_assoc] using hallowed

theorem fifo_idle {α : Type} {l : List α} (h : anyBit fifoPortNum (fifoDataOutValid l) = false) :
    l = [] := by
  have hzero := anyBit_eq_false_iff.1 h 0 (by decide)
  simp only [fifoDataOutValid, expandOne, decide_eq_false_iff_not] at hzero
  exact List.eq_nil_of_length_eq_zero (by omega)

theorem feedback_idle {γ : Type} {c : CommitState} {r : IdealRob γ} {x : CommitInput}
    (hview : Shows x.rob r) (h : (commitFeedbackPack c x).enable = false) : r.entries = [] := by
  cases hstate : c.curState with
  | normal =>
      have hempty : r.entries.isEmpty = true := by
        simpa [commitFeedbackPack, hstate, normalFeedbackPack, hview.empty] using h
      exact List.isEmpty_iff.1 hempty
  | flush => simp [commitFeedbackPack, hstate, flushingFeedbackPack] at h
  | interruptFlush => simp [commitFeedbackPack, hstate, flushingFeedbackPack] at h

theorem frontEnd_space (s : FrontEndState) (input : FrontEndInput) :
    ∃ n, ∀ i, i < fetchWidth →
      (frontEndFetchInput s input).fetchDecodeFifoDataInEnable i = expandOne n i :=
  ⟨_, fun _ _ => rfl⟩

/-- Nothing is in flight and the store buffer is empty. -/
theorem fenceI_alone (h : FrontEndInv s) {p : FetchDecodePack} (hp : p ∈ frontEndPushed s input)
    (hfence : isFenceIWord p.value = true) :
    inFlight s = [] ∧ stbufAllEmpty s.loadStore.stbuf = true := by
  obtain ⟨hdecode, hrename, hcommit, hstbuf⟩ := fenceI_pushed hp hfence (frontEnd_space s input)
  have hfirst : s.fetchDecodeFifo = [] := fifo_idle (by simpa [frontEndFetchInput] using hdecode)
  have hsecond : s.decodeRenameFifo = [] := fifo_idle (by simpa [frontEndFetchInput] using hrename)
  have hrob : s.loadStore.rob.entries = [] :=
    feedback_idle (loadStore_view input.loadStore h.loadStore.rob) hcommit
  refine ⟨?_, hstbuf⟩
  rw [inFlight, hfirst, hsecond, hrob]
  rfl

/-! ## Instructions on their way -/

theorem fifoPopNum_le {α : Type} (l : List α) (popValid : Nat → Bool) (pop : Bool) :
    fifoPopNum l popValid pop ≤ fifoPortNum ∧ ∀ i, i < fifoPopNum l popValid pop →
      pop = true ∧ i < l.length ∧ popValid i = true := by
  rw [fifoPopNum]
  split
  · rename_i hpop
    have hlead := countOneContinuous_leading
      (fun i => popValid i && fifoDataOutValid l i) (by decide : 0 < fifoPortNum)
    rw [fifoPortCount, hlead]
    refine ⟨?_, fun i hi => ?_⟩
    · have hsub := (List.takeWhile_sublist (l := List.range fifoPortNum)
        fun i => popValid i && fifoDataOutValid l i).length_le
      rwa [List.length_range] at hsub
    · have hmem := List.mem_takeWhile_imp (List.getElem_mem hi)
      have hpre := List.takeWhile_prefix (l := List.range fifoPortNum)
        fun i => popValid i && fifoDataOutValid l i
      have heq : ((List.range fifoPortNum).takeWhile
          fun i => popValid i && fifoDataOutValid l i)[i] = i := by
        rw [hpre.getElem hi, List.getElem_range]
      rw [heq, Bool.and_eq_true] at hmem
      refine ⟨hpop, ?_, hmem.1⟩
      have := of_decide_eq_true hmem.2
      omega
  · exact ⟨Nat.zero_le _, fun i hi => absurd hi (Nat.not_lt_zero i)⟩

/-- Rename takes the head of its FIFO. -/
theorem taken_eq : s.decodeRenameFifo.take (fifoPopNum s.decodeRenameFifo
      (frontEndRenameInput s input).sendEnable (frontEndRenameInput s input).renameRobPush) =
    (List.range (fifoPopNum s.decodeRenameFifo (frontEndRenameInput s input).sendEnable
      (frontEndRenameInput s input).renameRobPush)).map (frontEndRenameInput s input).revPack := by
  obtain ⟨_, hall⟩ := fifoPopNum_le s.decodeRenameFifo
    (frontEndRenameInput s input).sendEnable (frontEndRenameInput s input).renameRobPush
  generalize fifoPopNum s.decodeRenameFifo (frontEndRenameInput s input).sendEnable
    (frontEndRenameInput s input).renameRobPush = n at hall
  rcases Nat.eq_zero_or_pos n with rfl | hpos
  · rfl
  · refine List.ext_getElem ?_ fun i hi _ => ?_
    · have := (hall (n - 1) (by omega)).2.1
      rw [List.length_take, List.length_map, List.length_range]
      omega
    · rw [List.length_take] at hi
      rw [List.getElem_take, List.getElem_map, List.getElem_range]
      exact (List.getD_eq_getElem _ _ (by omega)).symm

theorem renamed_push (hpush : (frontEndRenameInput s input).renameRobPush = true) :
    (frontEndRenamed s input).map (·.2) =
      ((List.range renameWidth).filter (frontEndRenameInput s input).renameRobDataValid).map
        (frontEndRenameInput s input).revPack := by
  rw [frontEndRenamed, hpush, if_pos rfl, List.map_map]
  rfl

theorem lt_fifoPopNum {α : Type} {l : List α} {popValid : Nat → Bool} {i : Nat}
    (hi : i < fifoPortNum) (h : ∀ j, j ≤ i → popValid j = true ∧ fifoDataOutValid l j = true) :
    i < fifoPopNum l popValid true := by
  have hall : ∀ j ∈ List.range (i + 1), (popValid j && fifoDataOutValid l j) = true := by
    intro j hj
    have := h j (Nat.le_of_lt_succ (List.mem_range.1 hj))
    rw [this.1, this.2]
    rfl
  obtain ⟨d, hd⟩ := Nat.exists_eq_add_of_le (Nat.succ_le_of_lt hi)
  rw [fifoPopNum, if_pos rfl, fifoPortCount,
    countOneContinuous_leading _ (by decide : 0 < fifoPortNum), hd, List.range_add,
    List.takeWhile_append_of_pos hall, List.length_append, List.length_range]
  omega

theorem sendEnable_out {j : Nat} (h : (frontEndRenameInput s input).sendEnable j = true) :
    fifoDataOutValid s.decodeRenameFifo j = true := by
  simp only [RenameInput.sendEnable, RenameInput.revEnable, Bool.and_eq_true] at h
  exact h.1.1.1

/-- What rename takes out of its FIFO enters the reorder buffer, in order. -/
theorem renamed_eq (hfills : FillsInOrder s input) :
    (frontEndRenamed s input).map (·.2) =
      s.decodeRenameFifo.take (fifoPopNum s.decodeRenameFifo
        (frontEndRenameInput s input).sendEnable
        (frontEndRenameInput s input).renameRobPush) := by
  rw [taken_eq]
  cases hpush : (frontEndRenameInput s input).renameRobPush with
  | false =>
      rw [frontEndRenamed, hpush, if_neg Bool.false_ne_true]
      rfl
  | true =>
      obtain ⟨n, hn, hsend, hslots⟩ := sent_slots (hfills.inOrder hpush)
      obtain ⟨hle, hall⟩ := fifoPopNum_le s.decodeRenameFifo
        (frontEndRenameInput s input).sendEnable true
      have hcount : fifoPopNum s.decodeRenameFifo (frontEndRenameInput s input).sendEnable true =
          n := by
        refine Nat.le_antisymm (Nat.le_of_not_lt fun hlt => ?_) (Nat.le_of_not_lt fun hlt => ?_)
        · have hsent := (hall n hlt).2.2
          rw [hsend n (Nat.lt_of_lt_of_le hlt hle)] at hsent
          exact absurd (of_decide_eq_true hsent) (Nat.lt_irrefl n)
        · refine absurd (lt_fifoPopNum (Nat.lt_of_lt_of_le hlt hn) fun j hj => ?_)
            (Nat.lt_irrefl (fifoPopNum s.decodeRenameFifo
              (frontEndRenameInput s input).sendEnable true))
          have hsent := (hsend j (by omega)).trans (decide_eq_true (by omega))
          exact ⟨hsent, sendEnable_out hsent⟩
      rw [renamed_push hpush, hslots, hcount]

/-- What decode takes out of one FIFO enters the other. -/
theorem decodeWritten_eq (s : FrontEndState) :
    fifoWritten (fifoDataInEnable decodeRenameFifoSize s.decodeRenameFifo) (decodeSendPack s)
        (decodeMoves s) true =
      (s.fetchDecodeFifo.take (fifoPopNum s.fetchDecodeFifo (decodeMoves s) true)).map decode := by
  have hboth : ∀ i, (decodeMoves s i &&
      fifoDataInEnable decodeRenameFifoSize s.decodeRenameFifo i) =
      (decodeMoves s i && fifoDataOutValid s.fetchDecodeFifo i) := by
    intro i
    rw [decodeMoves]
    cases fifoDataOutValid s.fetchDecodeFifo i <;>
      cases fifoDataInEnable decodeRenameFifoSize s.decodeRenameFifo i <;> rfl
  have hcount : fifoPortCount (fifoDataInEnable decodeRenameFifoSize s.decodeRenameFifo)
      (decodeMoves s) = fifoPopNum s.fetchDecodeFifo (decodeMoves s) true := by
    rw [fifoPopNum, if_pos rfl, fifoPortCount, fifoPortCount, funext hboth]
  obtain ⟨_, hall⟩ := fifoPopNum_le s.fetchDecodeFifo (decodeMoves s) true
  rw [fifoWritten, if_pos rfl, hcount]
  generalize fifoPopNum s.fetchDecodeFifo (decodeMoves s) true = n at hall
  refine List.ext_getElem ?_ fun i hi _ => ?_
  · rw [List.length_map, List.length_map, List.length_take, List.length_range]
    rcases Nat.eq_zero_or_pos n with rfl | hpos
    · rw [Nat.zero_min]
    · have := (hall (n - 1) (by omega)).2.1
      omega
  · rw [List.length_map, List.length_range] at hi
    rw [List.getElem_map, List.getElem_map, List.getElem_take, List.getElem_range]
    exact congrArg decode (List.getD_eq_getElem _ _ (hall i hi).2.1)

theorem robOps_next {x : LoadStoreState} {i : LoadStoreInput} (h : KeepsStores x i) :
    (loadStoreNext x i).rob.entries.map (fun e => e.tag.op) =
      (x.rob.entries.map fun e => e.tag.op).drop (retires x i) ++ i.renamed.map (·.2) := by
  have hentries : (loadStoreNext x i).rob.entries =
      (x.rob.entries.mapIdx (loadStoreUpdate x i)).drop (retires x i) ++ loadStorePushed x i := by
    rw [h.rob_next]
    rfl
  have hops : (x.rob.entries.mapIdx (loadStoreUpdate x i)).map (fun e => e.tag.op) =
      x.rob.entries.map fun e => e.tag.op :=
    List.ext_getElem (by simp) fun k _ _ => by simp [update_op]
  rw [hentries, h.pushed_eq, List.map_append, List.map_drop, hops, List.map_map]
  rfl

/-- Three queues behind one another: what leaves one enters the next. -/
theorem queues_flow {α : Type} (a b c p : List α) (i j k : Nat) : a ++ b ++ c ++ p =
    a.take i ++ (a.drop i ++ b.take j ++ (b.drop j ++ c.take k) ++ (c.drop k ++ p)) := by
  have ha := List.take_append_drop i a
  have hb := List.take_append_drop j b
  have hc := List.take_append_drop k c
  calc
    a ++ b ++ c ++ p =
        (a.take i ++ a.drop i) ++ (b.take j ++ b.drop j) ++ (c.take k ++ c.drop k) ++ p := by
      rw [ha, hb, hc]
    _ = a.take i ++ (a.drop i ++ b.take j ++ (b.drop j ++ c.take k) ++ (c.drop k ++ p)) := by
      simp only [List.append_assoc]

/-- The instructions in the reorder buffer, as fetch pushed them. -/
theorem robFetched_next (hkeep : KeepsStores s.loadStore (frontEndLoadStoreInput s input)) :
    (frontEndNext s input).loadStore.rob.entries.map (fun e => e.tag.op.toFetchDecodePack) =
      (s.loadStore.rob.entries.map fun e => e.tag.op.toFetchDecodePack).drop
          (retires s.loadStore (frontEndLoadStoreInput s input)) ++
        (frontEndRenamed s input).map fun x => x.2.toFetchDecodePack := by
  have hops := congrArg (List.map fun op : DecodeRenamePack => op.toFetchDecodePack)
    (robOps_next hkeep)
  rwa [List.map_append, List.map_drop, List.map_map, List.map_map, List.map_map] at hops

theorem decodeRenameFifo_next (hflush : (frontEndFeedback s input).flushing = false) :
    (frontEndNext s input).decodeRenameFifo =
      s.decodeRenameFifo.drop (fifoPopNum s.decodeRenameFifo
          (frontEndRenameInput s input).sendEnable (frontEndRenameInput s input).renameRobPush) ++
        (s.fetchDecodeFifo.take (fifoPopNum s.fetchDecodeFifo (decodeMoves s) true)).map
          decode := by
  show fifoNext .. = _
  rw [fifoNext, hflush, if_neg Bool.false_ne_true, decodeWritten_eq]

theorem fetchDecodeFifo_next (hflush : (frontEndFeedback s input).flushing = false) :
    (frontEndNext s input).fetchDecodeFifo =
      s.fetchDecodeFifo.drop (fifoPopNum s.fetchDecodeFifo (decodeMoves s) true) ++
        frontEndPushed s input := by
  show fifoNext .. = _
  rw [fifoNext, hflush, if_neg Bool.false_ne_true]
  rfl

theorem frontEndRetired_eq (s : FrontEndState) (input : FrontEndInput) :
    frontEndRetired s input =
      (s.loadStore.rob.entries.map fun e => e.tag.op.toFetchDecodePack).take
        (retires s.loadStore (frontEndLoadStoreInput s input)) := by
  rw [frontEndRetired, List.map_take]
  rfl

/-- Without a flush nothing is lost between fetch and retirement, and nothing overtakes. -/
theorem inFlight_next (h : FrontEndInv s) (hallowed : FrontEndAllowed s input)
    (hfills : FillsInOrder s input) (hflush : (frontEndFeedback s input).flushing = false) :
    inFlight s ++ frontEndPushed s input =
      frontEndRetired s input ++ inFlight (frontEndNext s input) := by
  have hrenamed := congrArg (List.map fun op : DecodeRenamePack => op.toFetchDecodePack)
    (renamed_eq hfills)
  have hdecode : ((s.fetchDecodeFifo.take (fifoPopNum s.fetchDecodeFifo (decodeMoves s) true)).map
      decode).map (·.toFetchDecodePack) =
        s.fetchDecodeFifo.take (fifoPopNum s.fetchDecodeFifo (decodeMoves s) true) := by
    rw [List.map_map]
    exact List.map_id _
  rw [List.map_map, List.map_take] at hrenamed
  have hfetched : (frontEndRenamed s input).map (fun x => x.2.toFetchDecodePack) = _ := hrenamed
  rw [inFlight, inFlight, robFetched_next (frontEnd_keeps h hallowed hfills hflush), hfetched,
    decodeRenameFifo_next hflush, fetchDecodeFifo_next hflush, frontEndRetired_eq,
    List.map_append, hdecode, List.map_drop]
  exact queues_flow ..

/-- What holds of the inputs of a cycle. -/
abbrev FrontEndStep (s : FrontEndState) (input : FrontEndInput) : Prop :=
  FrontEndAllowed s input ∧ FillsInOrder s input

theorem frontEndInv_step (s : FrontEndState) (input : FrontEndInput) (h : FrontEndInv s)
    (hstep : FrontEndStep s input) : FrontEndInv (frontEndNext s input) :=
  frontEndInv_next h hstep.1 hstep.2

/-- Over a run without a flush: what was in flight or has been pushed has retired or is
in flight, in order. -/
theorem inFlight_run {inputs : List FrontEndInput} (h : FrontEndInv s)
    (hstep : Along frontEndNext FrontEndStep s inputs)
    (hflush : Along frontEndNext (fun s input => (frontEndFeedback s input).flushing = false)
      s inputs) :
    inFlight s ++ outputs frontEndNext frontEndPushed s inputs =
      outputs frontEndNext frontEndRetired s inputs ++ inFlight (run frontEndNext s inputs) :=
  outputs_conserved (fun s input hinv hall => frontEndInv_step s input hinv hall.1)
    (fun _ _ hinv hall => inFlight_next hinv hall.1.1 hall.1.2 hall.2) h (hstep.and hflush)

/-- What leaves the list is what `rob.sv` shows. -/
theorem retiredPcs_eq (h : FrontEndInv s) :
    frontEndRetiredPcs s input = (frontEndRetired s input).map (·.pc) := by
  have hview := loadStore_view input.loadStore h.loadStore.rob
  have hle : popCount s.loadStore.commit (loadStoreCommitInput s.loadStore input.loadStore) ≤
      s.loadStore.rob.entries.length := popCount_le hview
  refine List.ext_getElem ?_ fun i hi _ => ?_
  · simp only [frontEndRetiredPcs, frontEndRetired, List.length_map, List.length_range,
      List.length_take]
    omega
  · rw [frontEndRetiredPcs, List.length_map, List.length_range] at hi
    obtain ⟨_, hvalid, _⟩ := popped_spec hview hi
    have hstate := (retireValid_spec hview (Nat.lt_of_lt_of_le hi popCount_le_width) hvalid).1
    simp only [frontEndRetiredPcs, frontEndRetired, List.getElem_map, List.getElem_range,
      List.getElem_take]
    rw [retireData_eq hview (Nat.lt_of_lt_of_le hi hle)]
    exact h.pcs hstate _ (List.getElem_mem _)

theorem retiredPcs_run {inputs : List FrontEndInput} (h : FrontEndInv s)
    (hstep : Along frontEndNext FrontEndStep s inputs) :
    outputs frontEndNext frontEndRetiredPcs s inputs =
      (outputs frontEndNext frontEndRetired s inputs).map (·.pc) := by
  induction inputs generalizing s with
  | nil => rfl
  | cons input inputs ih =>
      rw [outputs, outputs, List.map_append, retiredPcs_eq h,
        ih (frontEndInv_step s input h hstep.1) hstep.2]

/-! ## Stores on their way -/

theorem stores_conserved_run {inputs : List FrontEndInput} (h : FrontEndInv s)
    (hstep : Along frontEndNext FrontEndStep s inputs) :
    bufferedWrites s.loadStore ++ outputs frontEndNext frontEndRetiredStores s inputs =
      outputs frontEndNext frontEndBusWrites s inputs ++
        bufferedWrites (run frontEndNext s inputs).loadStore := by
  have hflow : ∀ s input, FrontEndInv s → FrontEndStep s input →
      bufferedWrites s.loadStore ++ frontEndRetiredStores s input =
        frontEndBusWrites s input ++ bufferedWrites (frontEndNext s input).loadStore :=
    fun s input hinv _ =>
      @stores_conserved_next s.loadStore (frontEndLoadStoreInput s input) hinv.loadStore
  exact outputs_conserved frontEndInv_step hflow h hstep

theorem bufferedWrites_empty (h : FrontEndInv s)
    (hempty : stbufAllEmpty s.loadStore.stbuf = true) : bufferedWrites s.loadStore = [] := by
  rw [bufferedWrites, committedStores, (stbufAllEmpty_iff h.loadStore.ring).1 hempty]
  rfl

/-! ## The memory -/

theorem writeBytes_none (size start : Nat) (data : Nat → BitVec 8) (mem : Nat → BitVec 8) :
    writeBytes size start 0 data mem = mem := by
  funext a
  exact if_neg (Nat.not_lt_zero _)

theorem tcmByte_frontEnd (s : FrontEndState) (input : FrontEndInput) :
    tcmByte (frontEndNext s input).tcm =
      applyWrites (tcmByte s.tcm) (frontEndBusWrites s input) := by
  have hnext : tcmByte (frontEndNext s input).tcm = _ := tcmByte_next s.tcm _ _
    (frontEndTcmWrite s input)
  rw [hnext, frontEndBusWrites, busWrites, frontEndTcmWrite]
  have hfb : frontEndFeedback s input = loadStoreFeedback s.loadStore input.loadStore := rfl
  rw [hfb]
  cases stbufBusWriteReq s.loadStore.stbuf (loadStoreFeedback s.loadStore input.loadStore) with
  | true => rfl
  | false => exact writeBytes_none _ _ _ _

theorem tcmByte_run (s : FrontEndState) (inputs : List FrontEndInput) :
    tcmByte (run frontEndNext s inputs).tcm =
      applyWrites (tcmByte s.tcm) (outputs frontEndNext frontEndBusWrites s inputs) := by
  induction inputs generalizing s with
  | nil => rfl
  | cons input inputs ih =>
      rw [run_cons, ih, tcmByte_frontEnd, outputs, applyWrites, applyWrites, applyWrites,
        List.foldl_append]

theorem tcmByte_congr (c : TcmCopy) {a b : Nat} (h : a % tcmSize = b % tcmSize) :
    tcmByte c a = tcmByte c b := by
  have hbank : a % tcmBankNum = b % tcmBankNum := by
    simp only [tcmSize, tcmBankNum] at *
    omega
  have hrow : a / tcmBankNum % tcmBankDepth = b / tcmBankNum % tcmBankDepth := by
    simp only [tcmSize, tcmBankNum, tcmBankDepth] at *
    omega
  rw [tcmByte, tcmByte, hbank, hrow]

/-- An aligned word pushed from the memory is the word at its pc. -/
theorem pushedWord (h : FetchesMemory s) {p : FetchDecodePack} (hp : p ∈ frontEndPushed s input)
    (hin : inTcm s.fetch.pc = true) (haligned : p.hasException = false) :
    p.value = wordAt (tcmByte s.tcm) p.pc := by
  obtain ⟨space, hspace⟩ := frontEnd_space s input
  obtain ⟨n, hn, hblock, _⟩ := fetchEnable_block (s := s.fetch) hspace
  have hpush : fetchDecodeFifoPush s.fetch (frontEndFetchInput s input) = true := by
    by_contra hno
    rw [frontEndPushed, fetchPushed_none (Bool.eq_false_iff.2 hno)] at hp
    exact absurd hp List.not_mem_nil
  have hack : s.bus.busFetchReadAck = true := by
    simp only [fetchDecodeFifoPush, Bool.and_eq_true] at hpush
    exact hpush.1.1
  rw [frontEndPushed, fetchPushed_eq hn hblock hpush] at hp
  obtain ⟨i, hi, rfl⟩ := List.mem_map.1 hp
  have hin4 : 4 * i + 4 ≤ tcmBankNum := by
    have := List.mem_range.1 hi
    simp only [fetchWidth, tcmBankNum] at *
    omega
  have hexc : fetchHasException s.fetch i = false := haligned
  have hvalue : (fetchDecodePack s.fetch (frontEndFetchInput s input) i).value =
      (busFetchData s.bus (tcmBusData s.tcm) >>> (8 * (4 * i))) % 2 ^ (8 * 4) := by
    have hshift : 8 * (4 * i) = 32 * i := by omega
    rw [hshift]
    show fetchOpcode s.fetch (frontEndFetchInput s input) i = _
    rw [fetchOpcode, hexc, if_neg Bool.false_ne_true]
    rfl
  rw [hvalue, h hack hin, ofBytes_slice _ hin4, wordAt]
  refine ofBytes_congr fun k hk => tcmByte_congr s.tcm ?_
  show _ = (busTcmAddr (fetchCurPc s.fetch i) + k) % tcmSize
  simp only [busTcmAddr, fetchCurPc, tcmAddr, tcmSize, Nat.shiftLeft_eq]
  omega

/-! ## Runs -/

/-- When fetch pushes a `fence.i` nothing is in flight: every instruction pushed before it
that no flush has discarded has retired, every retired store has been written, and the
words pushed with it and behind it are those of the memory after these stores. -/
theorem fence_i_fresh (mem : Nat → Nat → BitVec 8) (outData : Nat → BitVec 8)
    (robBuffer : Nat → RobItem) (buffer : Nat → StoreBufferItem)
    (inputs later : List FrontEndInput) (input : FrontEndInput)
    (hallowed : Along frontEndNext FrontEndAllowed (frontEndReset mem outData robBuffer buffer)
      (inputs ++ input :: later))
    (hfills : Along frontEndNext FillsInOrder (frontEndReset mem outData robBuffer buffer)
      (inputs ++ input :: later))
    (hfence : ∃ p ∈ frontEndPushed
      (run frontEndNext (frontEndReset mem outData robBuffer buffer) inputs) input,
        isFenceIWord p.value = true) :
    FenceFresh mem (frontEndReset mem outData robBuffer buffer) inputs input later := by
  have hreset := frontEndReset_inv mem outData robBuffer buffer
  have hinit : tcmByte (frontEndReset mem outData robBuffer buffer).tcm = initialByte mem := rfl
  have hnone : bufferedWrites (frontEndReset mem outData robBuffer buffer).loadStore = [] :=
    bufferedWrites_reset buffer
  generalize frontEndReset mem outData robBuffer buffer = start at *
  generalize hs : run frontEndNext start inputs = s at hfence
  obtain ⟨hbefore, hafter⟩ := (along_append frontEndNext FrontEndStep start inputs
    (input :: later)).1 (hallowed.and hfills)
  have hinv : FrontEndInv s := hs ▸ invariant_run frontEndInv_step hreset hbefore
  obtain ⟨p, hp, hword⟩ := hfence
  obtain ⟨halone, hempty⟩ := fenceI_alone hinv hp hword
  have hstores : outputs frontEndNext frontEndBusWrites start inputs =
      outputs frontEndNext frontEndRetiredStores start inputs := by
    have hflow := stores_conserved_run hreset hbefore
    rw [hnone, hs, List.nil_append, bufferedWrites_empty hinv hempty, List.append_nil] at hflow
    exact hflow.symm
  refine ⟨hs ▸ halone, fun before since hsplit hflush => ?_, retiredPcs_run hreset hbefore,
    hstores, fun since now rest hsplit hin p hp haligned => ?_⟩
  · rw [hsplit] at hbefore
    obtain ⟨hfirst, hsince⟩ := (along_append frontEndNext FrontEndStep start before since).1 hbefore
    have hflow := inFlight_run (invariant_run frontEndInv_step hreset hfirst) hsince hflush
    rw [← run_append, ← hsplit, hs, halone, List.append_nil] at hflow
    exact hflow.symm
  · rw [hs] at hin hp ⊢
    rw [hs, hsplit] at hafter
    obtain ⟨hsince, _⟩ := (along_append frontEndNext FrontEndStep s since (now :: rest)).1 hafter
    have hlater : FrontEndInv (run frontEndNext s since) :=
      invariant_run frontEndInv_step hinv hsince
    have hmem : tcmByte (run frontEndNext s since).tcm = applyWrites (applyWrites (initialByte mem)
        (outputs frontEndNext frontEndRetiredStores start inputs))
          (outputs frontEndNext frontEndBusWrites s since) := by
      rw [tcmByte_run, ← hs, tcmByte_run, ← hstores, hinit]
    rw [← hmem]
    exact pushedWord hlater.fetches hp hin haligned

/-! ## The bus as fetch expects it -/

/-- Fetch with the answer the bus has in hand. -/
def fetchPathOf (s : FrontEndState) : FetchPathState where
  fetch := s.fetch
  request :=
    if s.bus.busFetchReadAck then some (s.fetch.pc, busFetchData s.bus (tcmBusData s.tcm))
    else none

/-- The inputs of fetch, and what a read launched in this cycle will find. -/
def fetchPathInputOf (s : FrontEndState) (input : FrontEndInput) : FetchPathInput where
  toFetchInput := frontEndFetchInput s input
  memory := fun addr => busFetchData (busFetchNext true addr)
    (tcmBusData (tcmCopyNext s.tcm (busTcmAddr addr) (busTcmFetchRd true addr)
      (frontEndTcmWrite s input)))

/-- The FIFO, the bus and the memory answer fetch as the stream of its instructions needs. -/
theorem frontEnd_refines_fetchPath (s : FrontEndState) (input : FrontEndInput) :
    FetchAnswered (fetchPathOf s) (fetchPathInputOf s input) ∧
      fetchPathOf (frontEndNext s input) = fetchPathNext (fetchPathOf s) (fetchPathInputOf s input) := by
  refine ⟨⟨frontEnd_space s input, fun hack => ⟨s.fetch.pc, if_pos hack⟩⟩, ?_⟩
  have hack : (frontEndNext s input).bus.busFetchReadAck =
      fetchBusReadReq s.fetch (frontEndFetchInput s input) := rfl
  rw [fetchPathOf, fetchPathNext, hack]
  congr 1
  cases hreq : fetchBusReadReq s.fetch (frontEndFetchInput s input) with
  | false =>
      have hidle : fetchBusReadReq (fetchPathOf s).fetch (fetchPathInputOf s input).toFetchInput =
          false := hreq
      rw [hidle, if_neg Bool.false_ne_true, if_neg Bool.false_ne_true]
  | true =>
      have hasks : fetchBusReadReq (fetchPathOf s).fetch (fetchPathInputOf s input).toFetchInput =
          true := hreq
      have hnext : (frontEndNext s input).bus = busFetchNext true
          (fetchBusAddr s.fetch (frontEndFetchInput s input)) := by
        rw [← hreq]
        rfl
      have htcm : (frontEndNext s input).tcm = tcmCopyNext s.tcm
          (busTcmAddr (fetchBusAddr s.fetch (frontEndFetchInput s input)))
          (busTcmFetchRd true (fetchBusAddr s.fetch (frontEndFetchInput s input)))
          (frontEndTcmWrite s input) := by
        rw [← hreq]
        rfl
      rw [hasks, if_pos rfl, if_pos rfl, hnext, htcm]
      rfl

/-! ## A store in front of a `fence.i` -/

/-- `sw x2, 8(x1)`, `fence.i` and a word that the store overwrites. -/
def storeThenFence : Nat → Nat → BitVec 8 := fun bank row =>
  BitVec.ofNat 8 (([0x0020a423, 0x0000100f].getD ((16 * row + bank) / 4) 0) >>> (8 * (bank % 4)))

/-- Nothing happens outside. -/
def quietFrontEnd : FrontEndInput where
  fetch := plainFetch
  rename := backendRenameInput (fun _ => Checkpoint.zero) backendReset (offer [])
  loadStore := quietLoadStore

/-- The store as fetch pushes it, with the predictor's unused answer. -/
def fetchedStore : FetchDecodePack :=
  { fetched 0x80000000 0x0020a423 with
    exceptionValue := 0x80000000
    predictedJump := true
    predictedNextPc := 0x80000000 }

/-- The store is issued; it writes `0x13` to the word behind the `fence.i`. -/
def issueStore : FrontEndInput :=
  { quietFrontEnd with
    loadStore :=
      { quietLoadStore with
        issueItem :=
          { IssueExecutePack.zero.toReadregIssueOpInfo with
            toDecodeRenamePack := decode fetchedStore
            src1Value := 0x80000000
            src2Value := 0x13 }
        issueLsuFifoPush := true } }

def fenceReset : FrontEndState :=
  frontEndReset storeThenFence (fun _ => 0) (fun _ => RobItem.zero) noStores

def beforeFence : List FrontEndInput :=
  List.replicate 4 quietFrontEnd ++ issueStore :: List.replicate 5 quietFrontEnd

theorem quietFrontEnd_allowed : FrontEndAllowed s quietFrontEnd where
  others := othersAnswer_none rfl
  inOrder := fun hissue => by
    simp [issueAccepted, frontEndLoadStoreInput, quietFrontEnd, quietLoadStore] at hissue

/-- The store retires and is written before the `fence.i` is pushed, and the word pushed
behind the `fence.i` is the one it wrote. -/
theorem fence_i_fresh_storeThenFence :
    outputs frontEndNext frontEndRetiredStores fenceReset beforeFence = [⟨0x80000008, 4, 0x13⟩] ∧
      (frontEndPushed (run frontEndNext fenceReset beforeFence) quietFrontEnd).map (·.value) =
        [0x0000100f, 0x13, 0, 0] ∧
      FenceFresh storeThenFence fenceReset beforeFence quietFrontEnd [quietFrontEnd] := by
  refine ⟨by decide +kernel, by decide +kernel, fence_i_fresh storeThenFence (fun _ => 0)
    (fun _ => RobItem.zero) noStores beforeFence [quietFrontEnd] quietFrontEnd ?_
    (by decide +kernel) (by decide +kernel)⟩
  refine ⟨quietFrontEnd_allowed, quietFrontEnd_allowed, quietFrontEnd_allowed,
    quietFrontEnd_allowed, ⟨othersAnswer_none rfl, fun _ => ?_⟩, quietFrontEnd_allowed,
    quietFrontEnd_allowed, quietFrontEnd_allowed, quietFrontEnd_allowed, quietFrontEnd_allowed,
    quietFrontEnd_allowed, quietFrontEnd_allowed, trivial⟩
  exact ⟨0, by decide +kernel, by decide +kernel, by decide +kernel, by decide +kernel,
    by decide +kernel, fun j _ hj => absurd hj (Nat.not_lt_zero j)⟩

/-! ## A `fence.i` behind a full ring -/

/-- `addi x1, x0, 1; fence; sw x0, 256(x0)`, no-operations, and `fence.i` as word 68. -/
def lostFenceWord (n : Nat) : Nat :=
  if n = 0 then 0x00100093 else if n = 1 then 0x0000000f else if n = 2 then 0x10002023
  else if n = 68 then 0x0000100f else 0x00000013

def lostFenceProgram : Nat → Nat → BitVec 8 := fun bank row =>
  BitVec.ofNat 8 (lostFenceWord ((16 * row + bank) / 4) >>> (8 * (bank % 4)))

/-- Word `n` as fetch pushes it. -/
def lostFencePack (n : Nat) : FetchDecodePack :=
  { fetched (0x80000000 + 4 * n) (lostFenceWord n) with
    exceptionValue := 0x80000000 + 4 * n
    predictedJump := true
    predictedNextPc := 0x80000000 }

/-- The first units answer for these words. -/
def lostFenceAnswers (ns : List Nat) : FrontEndInput :=
  let packs := ns.map fun n =>
    { ExecuteWbPack.zero with
      toDecodeRenamePack := decode (lostFencePack n), robId := n % robSize }
  { quietFrontEnd with
    loadStore := { quietLoadStore with executeWb := fun j => packs.getD j .zero } }

/-- The store passes the waiting fence. -/
def lostFenceStore : FrontEndInput :=
  let answers := lostFenceAnswers [3]
  { answers with
    loadStore :=
      { answers.loadStore with
        issueItem :=
          { IssueExecutePack.zero.toReadregIssueOpInfo with
            toDecodeRenamePack := decode (lostFencePack 2), robId := 2 }
        issueLsuFifoPush := true } }

def lostFenceReset : FrontEndState :=
  frontEndReset lostFenceProgram (fun _ => 0) (fun _ => RobItem.zero) noStores

/-- Only the fence does not finish.  Behind it 63 entries are in flight when words 64 to 67
are renamed; three of them take the entries of the fence, the store and word 3. -/
def lostFence : List FrontEndInput :=
  List.replicate 4 quietFrontEnd ++ [lostFenceAnswers [0], lostFenceStore] ++
    (List.range 16).map
      (fun b => lostFenceAnswers [4 * b + 4, 4 * b + 5, 4 * b + 6, 4 * b + 7]) ++
    List.replicate 18 quietFrontEnd

/-- The `fence.i` is pushed although the fence has not retired. -/
theorem fence_i_behind_lostFence :
    (Along frontEndNext FrontEndAllowed lostFenceReset (lostFence ++ [quietFrontEnd]) ∧
      ∃ p ∈ frontEndPushed (run frontEndNext lostFenceReset lostFence) quietFrontEnd,
        isFenceIWord p.value = true) ∧
    ¬FenceFresh lostFenceProgram lostFenceReset lostFence quietFrontEnd [] := by
  refine ⟨by decide +kernel, fun h => ?_⟩
  have hrun : Along frontEndNext (fun s input => (frontEndFeedback s input).flushing = false)
        lostFenceReset lostFence ∧
      0x80000004 ∈ (outputs frontEndNext frontEndPushed lostFenceReset lostFence).map (·.pc) ∧
      0x80000004 ∉ outputs frontEndNext frontEndRetiredPcs lostFenceReset lostFence := by
    decide +kernel
  obtain ⟨hflush, hpushed, hretired⟩ := hrun
  have hflow := h.older [] lostFence rfl hflush
  have hnone : inFlight lostFenceReset = [] := rfl
  rw [run_nil, hnone, List.nil_append] at hflow
  rw [h.shown, hflow] at hretired
  exact hretired hpushed

end DreamCore.Proofs
