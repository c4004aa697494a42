import DreamCore.Lib.Clocked
import DreamCore.Proofs.CppCommit
import DreamCore.Proofs.Results

/-!
# Runs of the trap logic

From reset every finished entry is as write-back leaves it, `mstatus` holds its two
implemented bits only, and while commit walks back it stands at some entry of the
list.  The C++ commit stage stays in step with the hardware.
-/

namespace DreamCore.Proofs

open DreamCore.Clocked DreamCore.Model DreamCore.Ring DreamCore.Rtl

/-! ## The list as a reorder buffer -/

section List

variable {γ : Type} {r : IdealRob γ} {stale : Nat → RobItem}

theorem toRob_wellFormed (hwf : r.WellFormed) : RobWellFormed (r.toRob stale) := by
  obtain ⟨hhead, hsize⟩ := hwf
  refine ⟨?_, ?_, ?_⟩
  · show r.headId < 2 * robSize
    omega
  · show r.headId + r.entries.length < 2 * robSize
    omega
  · show occupancy robSize r.headId (r.headId + r.entries.length) ≤ robSize
    rw [occupancy_eq (by omega) (by omega), if_pos (Nat.le_add_right _ _)]
    omega

theorem toRob_occupancy (hwf : r.WellFormed) :
    occupancy robSize (r.toRob stale).rptr (r.toRob stale).wptr = r.entries.length := by
  obtain ⟨hhead, hsize⟩ := hwf
  show occupancy robSize r.headId (r.headId + r.entries.length) = _
  rw [occupancy_eq (by omega) (by omega), if_pos (Nat.le_add_right _ _)]
  omega

theorem robContents_toRob (hwf : r.WellFormed) :
    robContents (r.toRob stale) = listContents r := by
  have hlen : (robContents (r.toRob stale)).length = (listContents r).length := by
    rw [robContents_length, toRob_occupancy hwf, listContents, List.length_mapIdx]
  refine List.ext_getElem hlen fun k hk hk' => ?_
  have hlt : k < r.entries.length := by simpa [listContents] using hk'
  rw [robContents_getElem hk]
  simp only [listContents, List.getElem_mapIdx]
  rw [← (shows_list hwf stale).data k hlt]
  rfl

/-- The C++ stage sees the entries of the list. -/
theorem cppWindow_list (hwf : r.WellFormed) :
    CppWindow (Cpp.robOfRtl (r.toRob stale)) (r.view stale).data (listContents r) := by
  have hwindow : CppWindow (Cpp.robOfRtl (r.toRob stale)) (r.toRob stale).buffer
      (robContents (r.toRob stale)) := cppWindow_rob (toRob_wellFormed hwf)
  rw [robContents_toRob hwf] at hwindow
  exact hwindow

theorem listContents_getElem {k : Nat} (hk : k < (listContents r).length) :
    ∃ hlt : k < r.entries.length, (listContents r)[k] = (r.idAt k, r.entries[k].item) := by
  have hlt : k < r.entries.length := by simpa [listContents] using hk
  refine ⟨hlt, ?_⟩
  simp [listContents]

theorem listContents_length : (listContents r).length = r.entries.length := by
  simp [listContents]

end List

/-! ## The CSR file -/

theorem csrWriteEnable_false {input : CsrFileInput} {addr : Nat}
    (h : ∀ j, j < commitWidth → (input.commitCsrfWrite j).we = true →
      (input.commitCsrfWrite j).addr ≠ addr) : csrWriteEnable input addr = false := by
  refine anyBit_eq_false_iff.2 fun j hj => ?_
  rw [csrWriteChannelCmp, Bool.and_eq_false_iff]
  cases hwe : (input.commitCsrfWrite j).we with
  | false => exact .inr rfl
  | true => exact .inl (decide_eq_false (h j hj hwe))

/-! ## The invariant -/

/-- Results are as the execution units write them, and rename pushes unfinished entries
into free slots. -/
structure TrapAllowed (s : TrapState) (input : TrapInput) : Prop where
  fits : s.rob.entries.length + input.pushed.length ≤ robSize
  unfinished : ∀ item ∈ input.pushed, item.finish = false
  results : Answers (fun e w => EntryWritten (finishedItem e.item w)) s.rob
    input.wbCommitPortDataOut

instance (s : TrapState) (input : TrapInput) : Decidable (TrapAllowed s input) :=
  decidable_of_iff (s.rob.entries.length + input.pushed.length ≤ robSize ∧
      (∀ item ∈ input.pushed, item.finish = false) ∧
      Answers (fun e w => EntryWritten (finishedItem e.item w)) s.rob input.wbCommitPortDataOut)
    ⟨fun h => ⟨h.1, h.2.1, h.2.2⟩, fun h => ⟨h.fits, h.unfinished, h.results⟩⟩

structure TrapInv (s : TrapState) : Prop where
  wf : s.rob.WellFormed
  written : ∀ e ∈ s.rob.entries, e.item.finish = true → EntryWritten e.item
  mstatus : s.csr Csr.mstatus &&& 0x88 = s.csr Csr.mstatus
  walking : s.commit.curState ≠ .normal → ∃ k, WalkAt s.commit s.rob k

theorem trapReset_inv : TrapInv trapReset where
  wf := ⟨by decide, by decide⟩
  written := fun e he => absurd he List.not_mem_nil
  mstatus := by decide
  walking := fun h => absurd rfl h

section Cycle

variable {s : TrapState} {input : TrapInput}

theorem TrapInv.allWritten (h : TrapInv s) : AllWritten (listContents s.rob) := by
  intro x hx hfinish
  obtain ⟨k, hk, rfl⟩ := List.mem_iff_getElem.1 hx
  obtain ⟨hlt, heq⟩ := listContents_getElem hk
  rw [heq] at hfinish ⊢
  exact h.written _ (List.getElem_mem hlt) hfinish

theorem TrapInv.branchesClean (h : TrapInv s) : BranchesClean s.rob :=
  fun e he hfinish => (h.written e he hfinish).clean

theorem trapView (input : TrapInput) (hwf : s.rob.WellFormed) :
    Shows (trapCommitInput s input).rob s.rob := shows_list hwf input.stale

theorem trapFlushes_eq : trapFlushes s input = flushing s.commit (trapCommitInput s input) := rfl

theorem trapPushed_flushing (h : flushing s.commit (trapCommitInput s input) = true) :
    trapPushed s input = [] := by
  rw [trapPushed, trapFlushes_eq, h]
  rfl

theorem length_trapPushed : (trapPushed s input).length ≤ input.pushed.length := by
  unfold trapPushed
  split <;> simp

/-! ### One cycle keeps the invariant -/

theorem trap_wf_next (hallowed : TrapAllowed s input) :
    (trapNext s input).rob.WellFormed := by
  have hfits := hallowed.fits
  have hpushed : (trapPushed s input).length ≤ input.pushed.length := length_trapPushed
  show (s.rob.next _ _ _ _).WellFormed
  cases commitRobFlush s.commit (trapCommitInput s input) with
  | false => exact wellFormed_next_list (by omega)
  | true => exact wellFormed_cleared

theorem trap_written_next (h : TrapInv s) (hallowed : TrapAllowed s input) :
    ∀ e ∈ (trapNext s input).rob.entries, e.item.finish = true → EntryWritten e.item := by
  intro e he hfinish
  change e ∈ (s.rob.next (trapUpdate s input) _ (trapPushed s input) _).entries at he
  cases hflush : commitRobFlush s.commit (trapCommitInput s input) with
  | true =>
      rw [hflush, entries_cleared] at he
      exact absurd he List.not_mem_nil
  | false =>
      rw [hflush, entries_next_list, List.mem_append] at he
      rcases he with hold | hnew
      · obtain ⟨k, hk, rfl⟩ := List.mem_iff_getElem.1 (List.mem_of_mem_drop hold)
        have hlt : k < s.rob.entries.length := by simpa using hk
        rw [List.getElem_mapIdx] at hfinish ⊢
        change (robItemWritten _ _ _ s.rob.entries[k].item).finish = true at hfinish
        show EntryWritten (robItemWritten _ _ _ s.rob.entries[k].item)
        rcases robItemWritten_cases (trapView input h.wf) hallowed.results hlt with
          ⟨hsame, _⟩ | ⟨j, _, _, _, hresult, hdone⟩
        · rw [hsame] at hfinish ⊢
          exact h.written _ (List.getElem_mem hlt) hfinish
        · rw [hdone]
          exact hresult
      · unfold trapPushed at hnew
        split at hnew
        · exact absurd hnew List.not_mem_nil
        · obtain ⟨item, hitem, rfl⟩ := List.mem_map.1 hnew
          have hopen := hallowed.unfinished item hitem
          exact absurd (hopen.symm.trans hfinish) Bool.false_ne_true

theorem mask_idem (data : Nat) : data &&& 0x88 &&& 0x88 = data &&& 0x88 := by
  rw [Nat.and_assoc, Nat.and_self]

theorem trap_mstatus_next (h : TrapInv s) :
    (trapNext s input).csr Csr.mstatus &&& 0x88 = (trapNext s input).csr Csr.mstatus := by
  show csrFileNext s.csr (trapCsrInput s input) Csr.mstatus &&& 0x88 =
    csrFileNext s.csr (trapCsrInput s input) Csr.mstatus
  unfold csrFileNext
  split
  · simp only [csrWritten, if_true]
    exact mask_idem _
  · exact h.mstatus

/-- Behind a trapping head the walk starts at the tail. -/
theorem walk_starts (hstate : s.commit.curState = .normal)
    (htrap : TrapCycle s.commit (trapCommitInput s input) s.rob) :
    ∃ k, WalkAt (trapNext s input).commit (trapNext s input).rob k := by
  have hleft := htrap.left
  have hentries : (trapNext s input).rob.entries =
      (s.rob.entries.mapIdx (trapUpdate s input)).drop
        (popCount s.commit (trapCommitInput s input)) := by
    show (s.rob.next _ _ _ _).entries = _
    rw [htrap.noFlush, entries_next_list, trapPushed_flushing htrap.flushing, List.append_nil]
  have hid : ∀ k, (trapNext s input).rob.idAt k =
      s.rob.idAt (popCount s.commit (trapCommitInput s input) + k) := by
    intro k
    show (s.rob.next _ _ _ _).idAt k = _
    rw [htrap.noFlush]
    exact idAt_next_list k
  refine ⟨s.rob.entries.length - popCount s.commit (trapCommitInput s input) - 1,
    htrap.nextState, ?_, ?_, ?_⟩
  · rw [hentries, List.length_drop, List.length_mapIdx]
    omega
  · have hrestore : (trapNext s input).commit.restoreRobItemId = s.rob.flushTailId := by
      show (commitNext s.commit (trapCommitInput s input)).restoreRobItemId = _
      simp only [commitNext, hstate, htrap.nextState, ne_eq, not_false_eq_true, and_self, if_true]
      rfl
    rw [hrestore, hid, flushTailId_eq (List.ne_nil_of_length_pos (by omega))]
    congr 1
    omega
  · rw [hid, Nat.add_zero]
    exact htrap.robItemId

/-- A step of the walk goes down by one entry. -/
theorem walk_goes_on (h : TrapInv s) {k : Nat} (hw : WalkAt s.commit s.rob (k + 1)) :
    WalkAt (trapNext s input).commit (trapNext s input).rob k := by
  have hview := trapView input h.wf
  obtain ⟨_, hpop, _, hflushing⟩ := walk_quiet (c := trapCommitInput s input) hw
  have hnext : commitNextState s.commit (trapCommitInput s input) = s.commit.curState := by
    rw [walk_nextState hview hw, if_neg (Nat.succ_ne_zero k)]
  have hnoFlush : commitRobFlush s.commit (trapCommitInput s input) = false := by
    rw [walk_robFlush hview hw]
    simp
  have hid : ∀ j, (trapNext s input).rob.idAt j = s.rob.idAt j := by
    intro j
    show (s.rob.next _ _ _ _).idAt j = _
    rw [hnoFlush, idAt_next_list, hpop, Nat.zero_add]
  refine ⟨?_, ?_, ?_, ?_⟩
  · show commitNextState s.commit (trapCommitInput s input) ≠ .normal
    rw [hnext]
    exact hw.notNormal
  · have hlen := hw.inList
    show k < (s.rob.next _ _ _ _).entries.length
    rw [hnoFlush, entries_next_list, hpop, trapPushed_flushing hflushing]
    simp only [List.drop_zero, List.append_nil, List.length_mapIdx]
    omega
  · rw [hid]
    show (commitNext s.commit (trapCommitInput s input)).restoreRobItemId = _
    simp only [commitNext, hw.notNormal, false_and, if_false, ne_eq, not_false_eq_true, if_true]
    rw [walk_flushId hw, robCommitFlushNextId_idAt]
  · rw [hid]
    show (commitNext s.commit (trapCommitInput s input)).robItemId = _
    simp only [commitNext, hw.notNormal, false_and, if_false]
    exact hw.robItemId

theorem trapInv_next (h : TrapInv s) (hallowed : TrapAllowed s input) :
    TrapInv (trapNext s input) := by
  refine ⟨trap_wf_next hallowed, trap_written_next h hallowed, trap_mstatus_next h, ?_⟩
  intro hne
  by_cases hstate : s.commit.curState = .normal
  · rcases normal_cycle (trapView input h.wf) h.branchesClean hstate with
      hkeep | ⟨i, hmiss⟩ | htrap
    · exact absurd hkeep.nextState hne
    · exact absurd hmiss.nextState hne
    · exact walk_starts hstate htrap
  · obtain ⟨k, hw⟩ := h.walking hstate
    cases k with
    | zero =>
        have hnext := walk_nextState (trapView input h.wf) hw
        exact absurd hnext hne
    | succ k => exact ⟨k, walk_goes_on h hw⟩

end Cycle

/-! ## One instruction at a time -/

/-- Nothing is pushed, nothing comes back, no line is up. -/
def trapIdle : TrapInput where
  pushed := []
  wbCommitPortDataOut := fun _ => ExecuteWbPack.zero
  lines := ⟨false, false, false⟩
  cpbufCommitData := fun _ => ⟨fun _ => false, fun _ => false, 0, 0⟩
  stale := fun _ => RobItem.zero

/-- Rename pushes one instruction. -/
def pushOne (item : RobItem) : TrapInput := { trapIdle with pushed := [item] }

/-- The result of one instruction comes back. -/
def resultOne (w : ExecuteWbPack) : TrapInput :=
  { trapIdle with wbCommitPortDataOut := fun j => if j = 0 then w else ExecuteWbPack.zero }

/-- An instruction that writes a CSR goes through alone. -/
def csrWriteAlone (addr value robId : Nat) : List TrapInput :=
  [pushOne { RobItem.zero with csrAddr := addr },
    resultOne { ExecuteWbPack.zero with
      enable := true, robId := robId, csrNewvalue := value, csrNewvalueValid := true },
    trapIdle]

/-- External interrupts are enabled, one is accepted, and its handler returns. -/
def interruptAndReturn : List TrapInput :=
  csrWriteAlone Csr.mie 0x800 0 ++ csrWriteAlone Csr.mstatus 0x8 1 ++
    [pushOne RobItem.zero, { trapIdle with lines := ⟨true, false, false⟩ }, trapIdle,
      pushOne { RobItem.zero with isMret := true },
      resultOne { ExecuteWbPack.zero with enable := true, opUnit := .bru }, trapIdle]

end DreamCore.Proofs
