import DreamCore.Proofs.Misprediction

/-!
# Precise traps

A trap retires what is older than the trapping entry and walks the buffer back to it,
one entry a cycle.  When commit is back in the normal state the map is the one the
trapping instruction was renamed against, and nothing at or behind that instruction
has left a trace.
-/

namespace DreamCore.Proofs

open DreamCore.Clocked DreamCore.Model DreamCore.Renaming DreamCore.Rtl

/-- Commit leaves the normal state in this cycle. -/
def TakesTrap (s : RecoveryState) (input : RecoveryInput) : Prop :=
  s.backend.commit.curState = .normal ∧
    commitNextState s.backend.commit (recoveryCommitInput s input) ≠ .normal

instance (s : RecoveryState) (input : RecoveryInput) : Decidable (TakesTrap s input) :=
  inferInstanceAs (Decidable (_ ∧ _))

/-! ## Cycles that drop everything -/

section Quiet

variable {cp : Nat → Checkpoint} {m : RegMap} {s : BackendState} {input : BackendInput}

/-- No result is written while commit flushes. -/
theorem data_flushing (hflush : flushing s.commit (backendCommitInput cp s input) = true) :
    (backendNextWith cp s input).phyf.data = s.phyf.data := by
  have hport : wbCommitPortFlush (backendFeedback cp s input) = true := hflush
  have hnone : ∀ p, anyBit wbWidth (wbPhyfIdCmp (backendPhyfInput cp s input) p) = false := by
    refine fun p => anyBit_eq_false_iff.2 fun j _ => ?_
    have hwe : (backendPhyfInput cp s input).wbPhyfWe j = false := by
      show wbPhyfWe (backendFeedback cp s input) input.executeWb j = false
      simp [wbPhyfWe, hport]
    simp [wbPhyfIdCmp, hwe]
  funext p
  show dataNext s.phyf (backendPhyfInput cp s input) p = s.phyf.data p
  rw [dataNext, hnone]
  simp

/-- The two causes of a trap. -/
theorem trap_cause (h : Settled m s) (hstate : s.commit.curState = .normal)
    (hnext : commitNextState s.commit (backendCommitInput cp s input) ≠ .normal) :
    (commitNextState s.commit (backendCommitInput cp s input) = .flush ∧
      ∃ hlt : pops cp s input < s.rob.entries.length,
        s.rob.entries[pops cp s input].item.hasException = true ∧
        commitRobRetireValid s.commit (backendCommitInput cp s input) (pops cp s input) = true) ∨
    (commitNextState s.commit (backendCommitInput cp s input) = .interruptFlush ∧
      pops cp s input = 0) := by
  have hview := backend_view cp input h.rob
  cases hkind : commitNextState s.commit (backendCommitInput cp s input) with
  | normal => exact absurd hkind hnext
  | interruptFlush =>
      refine Or.inr ⟨rfl, ?_⟩
      have hgate : retireGate s.commit (backendCommitInput cp s input) = false := by
        simp [retireGate, hkind]
      have : pops cp s input ≤ 0 := countOne_le_bound fun i _ hpop => by
        simp [commitRobRetirePop, hgate] at hpop
      omega
  | flush =>
      refine Or.inl ⟨rfl, ?_⟩
      have hexc : retireHasException s.commit (backendCommitInput cp s input) = true := by
        rw [commitNextState, hstate] at hkind
        dsimp only at hkind
        split at hkind
        · exact absurd hkind (by decide)
        · split at hkind
          · exact (Bool.and_eq_true_iff.1 ‹_›).2
          · exact absurd hkind (by decide)
      obtain ⟨_, _, i, hi, hvalid, hdata, _⟩ := retireHasException_spec hview hexc
      have hgate : retireGate s.commit (backendCommitInput cp s input) = true := by
        simp [retireGate, hstate, hkind]
      have hpop : pops cp s input = i := popCount_exception hi hgate hvalid hdata
      obtain ⟨_, _, hlt, _⟩ := retireValid_spec hview hi hvalid
      rw [retireData_eq hview hlt] at hdata
      exact hpop ▸ ⟨hlt, hdata, hvalid⟩

/-- The kind of cycle in which commit leaves the normal state. -/
theorem trapCycle_of_next (h : BackendInv m s) (hstate : s.commit.curState = .normal)
    (hnext : commitNextState s.commit (backendCommitInput cp s input) ≠ .normal) :
    TrapCycle s.commit (backendCommitInput cp s input) s.rob.toIdealRob := by
  rcases normal_cycle (backend_view cp input h.rob) (branchesClean_of_items h.items) hstate with
    hkeep | ⟨i, hmiss⟩ | htrap
  · exact absurd hkeep.nextState hnext
  · exact absurd hmiss.nextState hnext
  · exact htrap

end Quiet

/-! ## The walk as a whole -/

/-- What a cycle of the walk leaves alone. -/
structure WalkKeeps (s s' : BackendState) : Prop where
  rob : s'.rob.toIdealRob = s.rob.toIdealRob
  curState : s'.commit.curState = s.commit.curState
  curRobItem : s'.commit.curRobItem = s.commit.curRobItem
  interruptId : s'.commit.interruptId = s.commit.interruptId
  data : s'.phyf.data = s.phyf.data

theorem walk_step {m : RegMap} {s : RecoveryState} {k : Nat} (input : RecoveryInput)
    (h : BackendInv m s.backend) (hexact : GrantsExact s.backend.rob)
    (hw : WalkOk m s.backend (k + 1)) :
    BackendInv m (recoveryNext s input).backend ∧ WalkOk m (recoveryNext s input).backend k ∧
      WalkKeeps s.backend (recoveryNext s input).backend := by
  obtain ⟨hnext, hwnext, hrob, hcommit⟩ :=
    walk_next (recoveryCommitData s input) (recoveryBackendInput s input) h hexact hw
  have hflush := (walk_quiet (c := recoveryCommitInput s input) hw.walk).2.2.2
  have hsame : (recoveryNext s input).backend.commit =
      { s.backend.commit with restoreRobItemId := s.backend.rob.idAt k } := hcommit
  exact ⟨hnext, hwnext, hrob, by rw [hsame], by rw [hsame], by rw [hsame], data_flushing hflush⟩

/-- After `j` cycles of the walk nothing but its position has changed. -/
theorem walk_states {m : RegMap} {s : RecoveryState} {k : Nat} (h : BackendInv m s.backend)
    (hw : WalkOk m s.backend k) {walk : List RecoveryInput}
    (hexact : Along recoveryNext (fun s _ => GrantsExact s.backend.rob) s walk) :
    ∀ j, j ≤ k → j ≤ walk.length →
      BackendInv m (run recoveryNext s (walk.take j)).backend ∧
        WalkOk m (run recoveryNext s (walk.take j)).backend (k - j) ∧
        WalkKeeps s.backend (run recoveryNext s (walk.take j)).backend := by
  intro j
  induction j with
  | zero => exact fun _ _ => ⟨h, hw, rfl, rfl, rfl, rfl, rfl⟩
  | succ j ih =>
      intro hjk hlen
      obtain ⟨hj, hwj, hkeeps⟩ := ih (by omega) (by omega)
      have hpos : k - j = k - (j + 1) + 1 := by omega
      rw [hpos] at hwj
      obtain ⟨hnext, hwnext, hstep⟩ := walk_step walk[j] hj (hexact.getElem hlen) hwj
      rw [List.take_succ_eq_append_getElem hlen, run_append, run_cons, run_nil]
      exact ⟨hnext, hwnext, hstep.rob.trans hkeeps.rob, hstep.curState.trans hkeeps.curState,
        hstep.curRobItem.trans hkeeps.curRobItem, hstep.interruptId.trans hkeeps.interruptId,
        hstep.data.trans hkeeps.data⟩

/-- The cycle after the last entry has been visited is a normal one with an empty buffer. -/
theorem walk_returns {m : RegMap} {s : RecoveryState} {k : Nat} (h : BackendInv m s.backend)
    (hw : WalkOk m s.backend k) {walk : List RecoveryInput}
    (hexact : Along recoveryNext (fun s _ => GrantsExact s.backend.rob) s walk)
    (hlen : walk.length = k + 1) :
    BackendInv m (run recoveryNext s walk).backend ∧
      (run recoveryNext s walk).backend.rob.toIdealRob = ⟨0, []⟩ ∧
      (run recoveryNext s walk).backend.commit.curState = .normal ∧
      (run recoveryNext s walk).backend.phyf.data = s.backend.phyf.data := by
  obtain ⟨hj, hwj, hkeeps⟩ := walk_states h hw hexact k (Nat.le_refl k) (by omega)
  have hlast : k < walk.length := by omega
  have hsplit : walk = walk.take k ++ [walk[k]] := by
    rw [← List.take_succ_eq_append_getElem hlast, List.take_of_length_le (by omega)]
  rw [hsplit, run_append, run_cons, run_nil]
  rw [Nat.sub_self] at hwj
  generalize run recoveryNext s (walk.take k) = last at hj hwj hkeeps ⊢
  obtain ⟨hnext, hrob, hstate⟩ :=
    walk_done (recoveryCommitData last walk[k]) (recoveryBackendInput last walk[k]) hj hwj
  have hflush := (walk_quiet (c := recoveryCommitInput last walk[k]) hwj.walk).2.2.2
  exact ⟨hnext, hrob, hstate, (data_flushing hflush).trans hkeeps.data⟩

/-! ## What a cycle of the walk shows outside -/

section Outside

variable {cp : Nat → Checkpoint} {m : RegMap} {s : BackendState} {k : Nat} {input : BackendInput}

theorem walk_commits_nothing (hw : WalkOk m s k) (i : Nat) :
    (commitFeedbackPack s.commit (backendCommitInput cp s input)).committedRobIdValid i =
      false := by
  have hstate := hw.walk.notNormal
  cases hs : s.commit.curState with
  | normal => exact absurd hs hstate
  | flush => simp [commitFeedbackPack, hs, flushingFeedbackPack]
  | interruptFlush => simp [commitFeedbackPack, hs, flushingFeedbackPack]

/-- Only the last cycle of the walk writes control registers. -/
theorem walk_csr_quiet (h : Settled m s) (hw : WalkOk m s (k + 1)) (i : Nat) :
    (commitCsrfWrite s.commit (backendCommitInput cp s input) i).we = false := by
  have hnext := walk_nextState (backend_view cp input h.rob) hw.walk
  rw [if_neg (Nat.succ_ne_zero k)] at hnext
  have hstate := hw.walk.notNormal
  cases hs : s.commit.curState with
  | normal => exact absurd hs hstate
  | flush =>
      rw [hs] at hnext
      rw [commitCsrfWrite, hs]
      simp only [flushCsrfWrite, flushDone, hs, hnext]
      split <;> rfl
  | interruptFlush =>
      rw [hs] at hnext
      rw [commitCsrfWrite, hs]
      simp only [interruptFlushCsrfWrite, interruptFlushDone, hs, hnext]
      split <;> rfl

/-- The last cycle writes `mepc` once, on channel 0, with the trapping entry's pc. -/
theorem walk_csr_last (h : Settled m s) (hw : WalkOk m s 0) :
    commitCsrfWrite s.commit (backendCommitInput cp s input) 0 =
        ⟨true, Csr.mepc, s.commit.curRobItem.pc⟩ ∧
      ∀ i, 0 < i →
        (commitCsrfWrite s.commit (backendCommitInput cp s input) i).addr ≠ Csr.mepc := by
  have hnext := walk_nextState (backend_view cp input h.rob) hw.walk
  rw [if_pos rfl] at hnext
  have hstate := hw.walk.notNormal
  cases hs : s.commit.curState with
  | normal => exact absurd hs hstate
  | flush =>
      simp only [commitCsrfWrite, hs]
      refine ⟨by simp [flushCsrfWrite, flushDone, hs, hnext], fun i hi => ?_⟩
      obtain _ | _ | _ | i := i
      · omega
      all_goals simp [flushCsrfWrite]
  | interruptFlush =>
      simp only [commitCsrfWrite, hs]
      refine ⟨by simp [interruptFlushCsrfWrite, interruptFlushDone, hs, hnext], fun i hi => ?_⟩
      obtain _ | _ | _ | i := i
      · omega
      all_goals simp [interruptFlushCsrfWrite]

end Outside

/-! ## The cycle of the trap -/

section Trap

variable {cp : Nat → Checkpoint} {m : RegMap} {s : BackendState} {input : BackendInput}

/-- The control-register writes of that cycle are those of the retiring entries. -/
theorem trap_csr (h : Settled m s) (hstate : s.commit.curState = .normal) {i : Nat}
    (hi : i < commitWidth) :
    (commitCsrfWrite s.commit (backendCommitInput cp s input) i).we = true ↔
      i < pops cp s input ∧ ∃ e, s.rob.entries[i]? = some e ∧
        (e.item.isMret = true ∨ e.item.csrNewvalueValid = true) := by
  have hwe : (commitCsrfWrite s.commit (backendCommitInput cp s input) i).we =
      (commitRobRetirePop s.commit (backendCommitInput cp s input) i &&
        ((retireData (backendCommitInput cp s input) i).isMret ||
          (retireData (backendCommitInput cp s input) i).csrNewvalueValid)) := by
    simp only [commitCsrfWrite, hstate]
    rfl
  rw [hwe, retirePop_block i hi, Bool.and_eq_true, decide_eq_true_iff]
  refine and_congr_right fun hlt => ?_
  have hlen : i < s.rob.entries.length := Nat.lt_of_lt_of_le hlt (pops_le h)
  rw [retireData_eq (backend_view _ input h.rob) hlen, Bool.or_eq_true,
    List.getElem?_eq_getElem hlen]
  simp

/-- What retires is reported to the store buffer, and besides it at most the trapping
entry, when it carries an exception. -/
theorem trap_committed (h : BackendInv m s) (hstate : s.commit.curState = .normal) {i : Nat}
    (hi : i < commitWidth) :
    (i < pops cp s input →
      (commitFeedbackPack s.commit (backendCommitInput cp s input)).committedRobIdValid i = true ∧
        (commitFeedbackPack s.commit (backendCommitInput cp s input)).committedRobId i =
          s.rob.idAt i) ∧
    ((commitFeedbackPack s.commit (backendCommitInput cp s input)).committedRobIdValid i = true →
      i < pops cp s input ∨ i = pops cp s input ∧
        ∃ e, s.rob.entries[i]? = some e ∧ e.item.hasException = true) := by
  have hview := backend_view cp input h.rob
  have hpack : commitFeedbackPack s.commit (backendCommitInput cp s input) =
      normalFeedbackPack s.commit (backendCommitInput cp s input) := by
    simp [commitFeedbackPack, hstate]
  have hid : (commitFeedbackPack s.commit (backendCommitInput cp s input)).committedRobId i =
      s.rob.idAt i := by
    rw [hpack]
    exact retireId_eq hview i
  have hreport :
      (commitFeedbackPack s.commit (backendCommitInput cp s input)).committedRobIdValid i =
        (decide (commitNextState s.commit (backendCommitInput cp s input) ≠ .interruptFlush) &&
          commitRobRetireValid s.commit (backendCommitInput cp s input) i) := by
    rw [hpack]
    rfl
  constructor
  · intro hlt
    obtain ⟨_, hvalid, _, _, hgate⟩ := popped_spec hview hlt
    simp only [retireGate, Bool.and_eq_true] at hgate
    refine ⟨?_, hid⟩
    rw [hreport, hvalid, Bool.and_true]
    exact hgate.2
  · intro hcommitted
    rw [hreport, Bool.and_eq_true] at hcommitted
    obtain ⟨hnointerrupt, hvalid⟩ := hcommitted
    obtain ⟨_, _, hlt, _⟩ := retireValid_spec hview hi hvalid
    by_cases hexc : s.rob.entries[i].item.hasException = true
    · right
      have hgate : retireGate s.commit (backendCommitInput cp s input) = true := by
        simp only [retireGate, hstate, decide_true, Bool.true_and]
        exact hnointerrupt
      have hdata : (retireData (backendCommitInput cp s input) i).hasException = true := by
        rw [retireData_eq hview hlt]
        exact hexc
      exact ⟨(popCount_exception hi hgate hvalid hdata).symm, _,
        List.getElem?_eq_getElem hlt, hexc⟩
    · left
      have hpop : commitRobRetirePop s.commit (backendCommitInput cp s input) i = true := by
        simp only [commitRobRetirePop, Bool.and_eq_true, Bool.not_eq_true']
        refine ⟨⟨?_, hvalid⟩, ?_⟩
        · simp only [retireGate, hstate, decide_true, Bool.true_and]
          exact hnointerrupt
        · rw [retireData_eq hview hlt]
          exact Bool.eq_false_iff.2 hexc
      rw [retirePop_block i hi] at hpop
      exact of_decide_eq_true hpop

end Trap

/-! ## Every trap of every run -/

/-- The cycle `trap` in which commit leaves the normal state, with `n` entries retiring and
`e` trapping. -/
structure TrapEffects (s : RecoveryState) (trap : RecoveryInput) (n : Nat) (e : Entry InFlight) :
    Prop where
  retires : popCount s.backend.commit (recoveryCommitInput s trap) = n
  slot : s.backend.rob.entries[n]? = some e
  cause : (commitNextState s.backend.commit (recoveryCommitInput s trap) = .flush ∧
      e.item.hasException = true) ∨
    (commitNextState s.backend.commit (recoveryCommitInput s trap) = .interruptFlush ∧ n = 0)
  olderCsr : ∀ i, i < commitWidth →
    ((commitCsrfWrite s.backend.commit (recoveryCommitInput s trap) i).we = true ↔
      i < n ∧ ∃ e', s.backend.rob.entries[i]? = some e' ∧
        (e'.item.isMret = true ∨ e'.item.csrNewvalueValid = true))
  olderCsrValue : ∀ i e', i < n → s.backend.rob.entries[i]? = some e' → e'.item.isMret = false →
    (commitCsrfWrite s.backend.commit (recoveryCommitInput s trap) i).addr = e'.item.csrAddr ∧
      (commitCsrfWrite s.backend.commit (recoveryCommitInput s trap) i).data = e'.item.csrNewvalue
  olderStores : ∀ i, i < n →
    (commitFeedbackPack s.backend.commit
        (recoveryCommitInput s trap)).committedRobIdValid i = true ∧
      (commitFeedbackPack s.backend.commit
        (recoveryCommitInput s trap)).committedRobId i = s.backend.rob.idAt i
  noStore : ∀ i, i < commitWidth →
    (commitFeedbackPack s.backend.commit
        (recoveryCommitInput s trap)).committedRobIdValid i = true →
      i < n ∨ i = n ∧ e.item.hasException = true

/-- The cycles `walk` behind that one; `after j` is the state when `j` of them have passed. -/
structure WalkEffects (s : RecoveryState) (walk : List RecoveryInput)
    (after : Nat → RecoveryState) (e : Entry InFlight) : Prop where
  walking : ∀ j, j < walk.length → (after j).backend.commit.curState ≠ .normal
  visits : ∀ j (hj : j < walk.length),
    commitRobFlushId (after j).backend.commit (recoveryCommitInput (after j) walk[j]) =
      s.backend.rob.idAt (s.backend.rob.entries.length - 1 - j)
  noCsr : ∀ j (hj : j < walk.length), j + 1 < walk.length → ∀ i,
    (commitCsrfWrite (after j).backend.commit (recoveryCommitInput (after j) walk[j]) i).we = false
  mepc : ∀ j (hj : j < walk.length), j + 1 = walk.length →
    commitCsrfWrite (after j).backend.commit (recoveryCommitInput (after j) walk[j]) 0 =
        ⟨true, Csr.mepc, e.tag.op.pc⟩ ∧
      ∀ i, 0 < i →
        (commitCsrfWrite (after j).backend.commit
          (recoveryCommitInput (after j) walk[j]) i).addr ≠ Csr.mepc
  noStore : ∀ j (hj : j < walk.length), ∀ i,
    (commitFeedbackPack (after j).backend.commit
        (recoveryCommitInput (after j) walk[j])).committedRobIdValid i = false

/-- The state in which commit is back in the normal state. -/
structure TrapReturned (s last : RecoveryState) (e : Entry InFlight) : Prop where
  normal : last.backend.commit.curState = .normal
  emptied : last.backend.rob.entries = []
  map : ∀ a, 1 ≤ a → a < archRegNum → ratReadPhyId last.backend.rat a = e.tag.mapBefore a
  visible : ∀ p, last.backend.rat.mapVisible p = true ↔
    ∃ a, (1 ≤ a ∧ a < archRegNum) ∧ e.tag.mapBefore a = p
  registers : ∀ a, 1 ≤ a → a < archRegNum →
    last.backend.phyf.dataValid (e.tag.mapBefore a) = true ∧
      last.backend.phyf.data (e.tag.mapBefore a) = s.backend.phyf.data (e.tag.mapBefore a)

/-- The whole trap. -/
structure PreciseTrap (s : RecoveryState) (trap : RecoveryInput) (walk : List RecoveryInput)
    (n : Nat) (e : Entry InFlight) : Prop where
  atTrap : TrapEffects s trap n e
  inWalk : WalkEffects s walk (fun j => run recoveryNext (recoveryNext s trap) (walk.take j)) e
  returned : TrapReturned s (run recoveryNext (recoveryNext s trap) walk) e

section Whole

variable {m : RegMap} {s : RecoveryState} {trap : RecoveryInput} {walk : List RecoveryInput}

/-- The number of entries that retire in this cycle. -/
abbrev trapPops (s : RecoveryState) (trap : RecoveryInput) : Nat :=
  popCount s.backend.commit (recoveryCommitInput s trap)

theorem trapEffects_of_inv (h : BackendInv m s.backend) (htrap : TakesTrap s trap)
    (hlt : trapPops s trap < s.backend.rob.entries.length) :
    TrapEffects s trap (trapPops s trap) s.backend.rob.entries[trapPops s trap] := by
  refine ⟨rfl, List.getElem?_eq_getElem hlt, ?_, fun i hi => trap_csr h.toSettled htrap.1 hi,
    fun i e' hi hget hmret => ?_, fun i hi => ?_, fun i hi hcommitted => ?_⟩
  · rcases trap_cause h.toSettled htrap.1 htrap.2 with ⟨hkind, _, hexc, _⟩ | hinterrupt
    · exact Or.inl ⟨hkind, hexc⟩
    · exact Or.inr hinterrupt
  · obtain ⟨hlen, rfl⟩ := List.getElem?_eq_some_iff.1 hget
    have hdata : retireData (recoveryCommitInput s trap) i = s.backend.rob.entries[i].item :=
      retireData_eq (backend_view _ _ h.rob) hlen
    have hwrite : commitCsrfWrite s.backend.commit (recoveryCommitInput s trap) i =
        normalCsrfWrite s.backend.commit (recoveryCommitInput s trap) i := by
      simp [commitCsrfWrite, htrap.1]
    rw [hwrite]
    simp [normalCsrfWrite, hdata, hmret]
  · exact (trap_committed h htrap.1 (Nat.lt_of_lt_of_le hi popCount_le_width)).1 hi
  · rcases (trap_committed h htrap.1 hi).2 hcommitted with hlt' | ⟨rfl, e', hget, hexc⟩
    · exact Or.inl hlt'
    · obtain ⟨_, rfl⟩ := List.getElem?_eq_some_iff.1 hget
      exact Or.inr ⟨rfl, hexc⟩

theorem walkEffects_of_inv {s₀ : RecoveryState} {k : Nat} {e : Entry InFlight}
    (h : BackendInv m s.backend) (hw : WalkOk m s.backend k)
    (hexact : Along recoveryNext (fun s _ => GrantsExact s.backend.rob) s walk)
    (hlen : walk.length = k + 1) (hpc : s.backend.commit.curRobItem.pc = e.tag.op.pc)
    (hid : ∀ j, j ≤ k → s.backend.rob.idAt (k - j) =
      s₀.backend.rob.idAt (s₀.backend.rob.entries.length - 1 - j)) :
    WalkEffects s₀ walk (fun j => run recoveryNext s (walk.take j)) e := by
  have hstates : ∀ j, j < walk.length → _ := fun j hj =>
    walk_states h hw hexact j (by omega) (by omega)
  refine ⟨fun j hj => ?_, fun j hj => ?_, fun j hj hnot i => ?_, fun j hj hlast => ?_,
    fun j hj i => ?_⟩
  · exact (hstates j hj).2.1.walk.notNormal
  · obtain ⟨_, hwj, hkeeps⟩ := hstates j hj
    rw [walk_flushId hwj.walk, hkeeps.rob]
    exact hid j (by omega)
  · obtain ⟨hj', hwj, _⟩ := hstates j hj
    have hpos : k - j = k - j - 1 + 1 := by omega
    rw [hpos] at hwj
    exact walk_csr_quiet hj'.toSettled hwj i
  · obtain ⟨hj', hwj, hkeeps⟩ := hstates j hj
    have hzero : k - j = 0 := by omega
    rw [hzero] at hwj
    rw [← hpc, ← hkeeps.curRobItem]
    exact walk_csr_last hj'.toSettled hwj
  · exact walk_commits_nothing (hstates j hj).2.1 i

/-- Behind the trap the walk starts at the tail, with the trapping entry at the head. -/
theorem trap_starts_walk (h : BackendInv m s.backend) (hexact : GrantsExact s.backend.rob)
    (hallowed : CycleAllowed s.backend trap.backend) (haccept : MapsAccepted s trap)
    (htrap : TakesTrap s trap) :
    TrapCycle s.backend.commit (recoveryCommitInput s trap) s.backend.rob.toIdealRob ∧
      BackendInv (retiredMap m s.backend (trapPops s trap)) (recoveryNext s trap).backend ∧
      WalkOk (retiredMap m s.backend (trapPops s trap)) (recoveryNext s trap).backend
        (s.backend.rob.entries.length - trapPops s trap - 1) := by
  have hcycle := trapCycle_of_next h htrap.1 htrap.2
  obtain ⟨hsettled, hwalk, hport⟩ :=
    trap_next h hexact htrap.1 (cycleAllowed_recovery hallowed) haccept hcycle
  refine ⟨hcycle, ⟨hsettled, ?_, fun hnormal => absurd hnormal hwalk.walk.notNormal,
    fun _ => ⟨_, hwalk⟩⟩, hwalk⟩
  exact hport ▸ answers_zero _ _

theorem preciseTrap_of_inv (h : BackendInv m s.backend) (hexact : GrantsExact s.backend.rob)
    (hallowed : CycleAllowed s.backend trap.backend) (haccept : MapsAccepted s trap)
    (htrap : TakesTrap s trap)
    (hwalking : Along recoveryNext (fun s _ => GrantsExact s.backend.rob)
      (recoveryNext s trap) walk)
    (hlen : walk.length = s.backend.rob.entries.length - trapPops s trap) :
    ∃ n e, PreciseTrap s trap walk n e := by
  obtain ⟨hcycle, hinv, hwalk⟩ := trap_starts_walk h hexact hallowed haccept htrap
  have hleft : trapPops s trap < s.backend.rob.entries.length := hcycle.left
  have hbefore := (h.chain.get hleft).mapBefore
  have hpc : (recoveryNext s trap).backend.commit.curRobItem.pc =
      s.backend.rob.entries[trapPops s trap].tag.op.pc :=
    (congrArg RobItem.pc hcycle.curRobItem).trans (h.items _ (List.getElem_mem hleft)).pc
  have hid : ∀ k, (recoveryNext s trap).backend.rob.idAt k =
      s.backend.rob.idAt (trapPops s trap + k) := fun k => idAt_next hcycle.noFlush rfl
  have hlen' : walk.length =
      s.backend.rob.entries.length - trapPops s trap - 1 + 1 := by omega
  obtain ⟨hfinal, hempty, hnormal, hdata⟩ := walk_returns hinv hwalk hwalking hlen'
  have htable := (hfinal.normal hnormal).table
  have hread := ratReadPhyId_eq htable (hfinal.bounded htable)
  rw [hempty] at htable hread
  refine ⟨_, _, trapEffects_of_inv h htrap hleft,
    walkEffects_of_inv hinv hwalk hwalking hlen' hpc fun j hj => ?_, hnormal, by rw [hempty],
    fun a _ _ => ?_, fun p => ?_, fun a h1 h2 => ⟨?_, ?_⟩⟩
  · rw [hid]
    congr 1
    omega
  · rw [hread, hbefore]
    rfl
  · rw [htable.visible_iff, List.mem_map, hbefore]
    exact exists_congr fun a => and_congr_left fun _ => mem_archRegs
  · rw [hbefore]
    exact hfinal.mapped a (mem_archRegs.2 ⟨h1, h2⟩)
  · exact congrFun (hdata.trans (data_flushing hcycle.flushing)) _

end Whole

/-- In every run in which no rejected instruction is mapped, no checkpoint is overwritten and
a wrapped reorder buffer leaves a bundle free, every trap is precise: after as many cycles as
entries are left, commit is back with the map from before the trapping one. -/
theorem traps_precise (robBuffer : Nat → RobItem) (buffer : Nat → Checkpoint)
    {before walk : List RecoveryInput} {trap : RecoveryInput}
    (hallowed : Along recoveryNext (fun s input => CycleAllowed s.backend input.backend)
      (recoveryReset robBuffer buffer) (before ++ [trap]))
    (haccept : Along recoveryNext MapsAccepted (recoveryReset robBuffer buffer)
      (before ++ [trap]))
    (hover : Along recoveryNext NoOverwrite (recoveryReset robBuffer buffer) before)
    (hexact : Along recoveryNext (fun s _ => GrantsExact s.backend.rob)
      (recoveryReset robBuffer buffer) (before ++ trap :: walk))
    (htrap : TakesTrap (run recoveryNext (recoveryReset robBuffer buffer) before) trap)
    (hlen : walk.length =
      (run recoveryNext (recoveryReset robBuffer buffer) before).backend.rob.entries.length -
        trapPops (run recoveryNext (recoveryReset robBuffer buffer) before) trap) :
    ∃ n e,
      PreciseTrap (run recoveryNext (recoveryReset robBuffer buffer) before) trap walk n e := by
  rw [along_append] at hallowed haccept hexact
  obtain ⟨⟨m, h⟩, _⟩ := (recoveryInv_run (recoveryReset_inv robBuffer buffer) hallowed.1 hexact.1
    hover haccept.1).2
  exact preciseTrap_of_inv h hexact.2.1 hallowed.2.1 haccept.2.1 htrap hexact.2.2 hlen

/-! ## Two traps -/

/-- The same instruction, ending with an exception. -/
def trapping (op : DecodeRenamePack) (exceptionId : Nat) : DecodeRenamePack :=
  { op with hasException := true, exceptionId := exceptionId }

/-- The cycle in which the first two execution units answer. -/
def answers (first second : ExecuteWbPack) : BackendInput :=
  { offer [] with
    executeWb := fun j => if j = 0 then first else if j = 1 then second else ExecuteWbPack.zero }

def addX6 : DecodeRenamePack := decode (fetched 0x80000000 0x00100313)

def envCall : DecodeRenamePack := decode (fetched 0x80000004 0x00000073)

def addX5 : DecodeRenamePack := decode (fetched 0x80000008 0x00200293)

/-- An addition and an `ecall` complete, with another addition behind them. -/
def callBetweenAdds : List RecoveryInput :=
  [offer [addX6, envCall, addX5],
    answers (resultPack addX6 0 0 1) (resultPack (trapping envCall 11) 1 32 0), offer []].map
      plainCycle

theorem answers_enable {first second : ExecuteWbPack} {j : Nat}
    (h : ((answers first second).executeWb j).enable = true) : j = 0 ∨ j = 1 := by
  by_contra hne
  rw [not_or] at hne
  simp only [answers, if_neg hne.1, if_neg hne.2] at h
  exact Bool.false_ne_true h

theorem callBetweenAdds_precise :
    ∃ n e, PreciseTrap (run recoveryNext zeroReset callBetweenAdds) (plainCycle (offer []))
      [plainCycle (offer []), plainCycle (offer [])] n e := by
  have hidle : ∀ {s : BackendState}, CycleAllowed s (offer []) := offer_allowed nothing_decoded
  refine traps_precise _ _ ⟨?_, ?_, hidle, hidle, trivial⟩ (by decide +kernel)
    (by decide +kernel) (by decide +kernel) (by decide +kernel) (by decide +kernel)
  · exact offer_allowed (decodedBundle_map (by decide) (by decide) (by decide) (by decide) :
      DecodedBundle ([fetched 0x80000000 0x00100313, fetched 0x80000004 0x00000073,
        fetched 0x80000008 0x00200293].map decode))
  · refine ⟨nothing_decoded, ⟨fun j _ henable => ?_, ?_⟩, ?_⟩
    · rcases answers_enable henable with rfl | rfl
      · refine ⟨0, by decide +kernel, by decide +kernel, by decide +kernel, ?_⟩
        constructor <;> decide +kernel
      · refine ⟨1, by decide +kernel, by decide +kernel, by decide +kernel, ?_⟩
        constructor <;> decide +kernel
    · decide +kernel
    · decide +kernel

/-- `slli x5, x0, 32`, which the decoder rejects. -/
def rejectedShift : DecodeRenamePack := decode (fetched 0x80000000 0x02001293)

def rejectedAlone : List RecoveryInput :=
  [offer [rejectedShift],
    answers (resultPack (trapping rejectedShift 2) 0 0 0) ExecuteWbPack.zero, offer []].map
      plainCycle

/-- The table maps `x5` for the rejected shift, but the entry has no old register to go
back to: after the trap `x5` still stands for the register of the shift. -/
theorem rejected_shift_not_undone :
    Along recoveryNext (fun s input => CycleAllowed s.backend input.backend) zeroReset
        (rejectedAlone ++ [plainCycle (offer [])]) ∧
      TakesTrap (run recoveryNext zeroReset rejectedAlone) (plainCycle (offer [])) ∧
      ¬∃ n e, PreciseTrap (run recoveryNext zeroReset rejectedAlone) (plainCycle (offer []))
        [plainCycle (offer [])] n e := by
  have hidle : ∀ {s : BackendState}, CycleAllowed s (offer []) := offer_allowed nothing_decoded
  refine ⟨⟨?_, ?_, hidle, hidle, trivial⟩, by decide +kernel, ?_⟩
  · exact offer_allowed (decodedBundle_map (by decide) (by decide) (by decide) (by decide) :
      DecodedBundle ([fetched 0x80000000 0x02001293].map decode))
  · refine ⟨nothing_decoded, ⟨fun j hj henable => ?_, by decide +kernel⟩, by decide +kernel⟩
    have hfirst : j = 0 := by
      revert j
      decide +kernel
    subst hfirst
    refine ⟨0, by decide +kernel, by decide +kernel, by decide +kernel, ?_⟩
    constructor <;> decide +kernel
  · rintro ⟨n, e, h⟩
    have hzero : popCount (run recoveryNext zeroReset rejectedAlone).backend.commit
        (recoveryCommitInput (run recoveryNext zeroReset rejectedAlone) (plainCycle (offer []))) =
          0 := by decide +kernel
    have hslot := h.atTrap.slot
    rw [← h.atTrap.retires, hzero] at hslot
    have hbefore : (run recoveryNext zeroReset rejectedAlone).backend.rob.entries[0]?.map
        (·.tag.mapBefore 5) = some 5 := by decide +kernel
    rw [hslot, Option.map_some, Option.some_inj] at hbefore
    have hmap := h.returned.map 5 (by decide) (by decide)
    rw [hbefore] at hmap
    revert hmap
    decide +kernel

end DreamCore.Proofs
