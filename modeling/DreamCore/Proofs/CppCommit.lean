import DreamCore.Model.Traps
import DreamCore.Rtl.Wb
import DreamCore.Proofs.RetireBundle

/-!
# The C++ commit stage retires the same instructions

The loop of `commit::run` queues, entry by entry, what retiring the entries one by one
amounts to.  On entries as the execution units write them no assertion fails.
-/

namespace DreamCore.Proofs

open DreamCore.Model DreamCore.Ring DreamCore.Rtl

/-- A finished entry as write-back leaves it: a branch has no exception, a predicted
branch owns a checkpoint, `mret` is a branch and writes no other CSR. -/
structure EntryWritten (e : RobItem) : Prop where
  clean : e.bruOp = true → e.hasException = false
  checkpoint : e.bruOp = true → e.predicted = true → e.checkpointIdValid = true
  mret : e.isMret = true → e.bruOp = true ∧ e.csrNewvalueValid = false

instance (e : RobItem) : Decidable (EntryWritten e) :=
  decidable_of_iff ((e.bruOp = true → e.hasException = false) ∧
      (e.bruOp = true → e.predicted = true → e.checkpointIdValid = true) ∧
      (e.isMret = true → e.bruOp = true ∧ e.csrNewvalueValid = false))
    ⟨fun h => ⟨h.1, h.2.1, h.2.2⟩, fun h => ⟨h.clean, h.checkpoint, h.mret⟩⟩

/-- Every finished entry in flight is as write-back leaves it. -/
def AllWritten (entries : List (Nat × RobItem)) : Prop :=
  ∀ x ∈ entries, x.2.finish = true → EntryWritten x.2

theorem AllWritten.noBranchTraps {entries : List (Nat × RobItem)} (h : AllWritten entries) :
    NoBranchTraps entries := fun x hx hfinish => (h x hx hfinish).clean

/-- The C++ stage sees these entries with their ids, oldest first. -/
structure CppWindow (rob : Cpp.Rob) (buffer : Nat → RobItem) (entries : List (Nat × RobItem)) :
    Prop where
  front : rob.getFrontId = entries.head?.map (·.1)
  tail : rob.getTailId = entries.getLast?.map (·.1)
  item : ∀ x ∈ entries, buffer x.1 = x.2
  next : ∀ k, ∀ hk : k < entries.length, k + 1 < robSize → ∃ id,
    rob.getNextId entries[k].1 = some (id, decide (k + 1 < entries.length)) ∧
      ∀ hk' : k + 1 < entries.length, id = entries[k + 1].1 ∧ entries.head?.map (·.1) ≠ some id
  prev : ∀ k, ∀ hk : k + 1 < entries.length,
    rob.getPrevId entries[k + 1].1 = some (entries[k].1, true)
  prevHead : ∀ h : 0 < entries.length, ∃ id inUse, rob.getPrevId entries[0].1 = some (id, inUse)

/-! ## Windows -/

section Windows

variable {rob : RobState} {k : Nat}

theorem cppIdValid (h : RobWellFormed rob) (hk : k < robSize) :
    (Cpp.robOfRtl rob).checkIdValid (slot robSize (rob.rptr + k)) =
      decide (k < occupancy robSize rob.rptr rob.wptr) := by
  rw [Cpp.checkIdValid_eq h (slot_lt (by decide)), robIdValid h hk]

theorem slot_succ (k : Nat) : (slot robSize (rob.rptr + k) + 1) % robSize =
    slot robSize (rob.rptr + (k + 1)) := by
  simp only [slot, robSize]
  omega

theorem slot_pred (k : Nat) : (slot robSize (rob.rptr + (k + 1)) + robSize - 1) % robSize =
    slot robSize (rob.rptr + k) := by
  simp only [slot, robSize]
  omega

theorem slot_tail (h : RobWellFormed rob) (hlive : 0 < occupancy robSize rob.rptr rob.wptr) :
    (slot robSize rob.wptr + robSize - 1) % robSize =
      slot robSize (rob.rptr + (occupancy robSize rob.rptr rob.wptr - 1)) := by
  have hwptr : slot robSize rob.wptr =
      slot robSize (rob.rptr + occupancy robSize rob.rptr rob.wptr) := slot_wptr h
  obtain ⟨n, hn⟩ : ∃ n, occupancy robSize rob.rptr rob.wptr = n + 1 :=
    ⟨occupancy robSize rob.rptr rob.wptr - 1, by omega⟩
  rw [hwptr, hn, Nat.add_sub_cancel]
  exact slot_pred n

/-- The C++ stage sees the contents of the same reorder buffer. -/
theorem cppWindow_rob (h : RobWellFormed rob) :
    CppWindow (Cpp.robOfRtl rob) rob.buffer (robContents rob) := by
  have hempty := (Cpp.isEmpty_eq h).trans (robContents_isEmpty h).symm
  have hsize : (Cpp.robOfRtl rob).size = robSize := rfl
  have hfits : occupancy robSize rob.rptr rob.wptr ≤ robSize := h.fits
  have hlen : (robContents rob).length = occupancy robSize rob.rptr rob.wptr :=
    robContents_length
  constructor
  · rw [Cpp.Rob.getFrontId, hempty]
    cases hnil : robContents rob with
    | nil => rfl
    | cons x rest =>
        have hpos : 0 < (robContents rob).length := by simp [hnil]
        have hget := robContents_getElem hpos
        simp only [hnil, List.getElem_cons_zero] at hget
        rw [hget]
        rfl
  · rw [Cpp.Rob.getTailId, hempty]
    by_cases hnil : robContents rob = []
    · rw [hnil]
      rfl
    · have hpos := List.length_pos_iff.2 hnil
      rw [List.getLast?_eq_getElem?, List.getElem?_eq_getElem (by omega),
        robContents_getElem (by omega), List.isEmpty_eq_false_iff.2 hnil]
      simp only [Bool.false_eq_true, if_false, Option.map_some, hsize, hlen]
      rw [← slot_tail h (by omega)]
      rfl
  · intro x hx
    obtain ⟨k, hk, rfl⟩ := List.mem_iff_getElem.1 hx
    rw [robContents_getElem hk]
  · intro k hk hk1
    refine ⟨slot robSize (rob.rptr + (k + 1)), ?_, fun hk' => ⟨?_, ?_⟩⟩
    · rw [robContents_getElem hk, Cpp.Rob.getNextId, hsize, cppIdValid h (by omega),
        decide_eq_true (by omega), if_pos rfl, slot_succ, cppIdValid h hk1, hlen]
    · rw [robContents_getElem hk']
    · have hhead : (robContents rob).head? = some _ :=
        (List.head?_eq_getElem?).trans (List.getElem?_eq_getElem (by omega))
      rw [hhead, robContents_getElem (by omega), Option.map_some, ne_eq, Option.some_inj]
      intro heq
      have := slot_add_inj (by decide : 0 < robSize) hk1 heq
      omega
  · intro k hk
    rw [robContents_getElem hk, robContents_getElem (by omega), Cpp.Rob.getPrevId, hsize,
      cppIdValid h (by omega), decide_eq_true (by omega), if_pos rfl, slot_pred,
      cppIdValid h (by omega), decide_eq_true (by omega)]
  · intro hpos
    rw [robContents_getElem hpos, Cpp.Rob.getPrevId, cppIdValid h (by decide),
      decide_eq_true (by omega), if_pos rfl]
    exact ⟨_, _, rfl⟩

end Windows

/-! ## The loop -/

/-- Effects queued before others; the flags are those of the later ones. -/
def queued (done rest : CommitEffects) : CommitEffects :=
  { rest with
    popped := done.popped ++ rest.popped
    released := done.released ++ rest.released
    invalidated := done.invalidated ++ rest.invalidated
    csrWrites := done.csrWrites ++ rest.csrWrites
    committed := done.committed ++ rest.committed }

/-- Only what retired instructions queue, no flag. -/
def Plain (done : CommitEffects) : Prop := done = queued done CommitEffects.none

theorem plain_none : Plain CommitEffects.none := rfl

theorem Plain.flags {done : CommitEffects} (h : Plain done) :
    done.cpbufPops = 0 ∧ done.cpbufFlush = false ∧ done.predictorUpdates = [] ∧
      done.restored = none ∧ done.undone = [] ∧ done.robFlush = false ∧ done.flush = false ∧
      done.exceptionPc = none ∧ done.jump = none ∧ done.nextState = .normal := by
  rw [h]
  exact ⟨rfl, rfl, rfl, rfl, rfl, rfl, rfl, rfl, rfl, rfl⟩

/-- Running `r` on to `r'` from position `k` on has the effects `rest`. -/
structure RunsOn (entries : List (Nat × RobItem)) (k : Nat) (r : Cpp.CommitRun)
    (rest : CommitEffects) (r' : Cpp.CommitRun) : Prop where
  effects : r'.effects = queued r.effects rest
  commitNum : r'.commitNum = r.commitNum + rest.popped.length
  curState : r'.state.curState = rest.nextState
  flush : rest.nextState = .flush →
    entries.getLast?.map (·.1) = some r'.state.restoreRobItemId ∧
      entries[k + rest.popped.length]? = some (r'.state.robItemId, r'.state.robItem)

section Loop

variable {c : Cpp.CommitInput} {entries : List (Nat × RobItem)}

/-- On the implemented bits both ways to move `MPIE` into `MIE` agree. -/
theorem mretMstatus_eq {mstatus : Nat} (h : mstatus &&& 0x88 = mstatus) :
    Cpp.mretMstatus mstatus = mretValue mstatus := by
  have hall : ∀ m, m < 256 → m &&& 0x88 = m → Cpp.mretMstatus m = mretValue m := by
    decide +kernel
  have hle : mstatus &&& 0x88 ≤ 0x88 := Nat.and_le_right
  exact hall mstatus (by omega) h

/-! ### The cases of one step -/

theorem retireLoop_unfinished {firstId n : Nat} {r : Cpp.CommitRun} {e : RobItem}
    (he : c.buffer r.state.robItemId = e) (hfinish : e.finish = false) :
    Cpp.retireLoop c firstId (n + 1) r =
      some { r with state := { r.state with robItem := e } } := by
  rw [Cpp.retireLoop]
  simp only [he, hfinish, Bool.false_eq_true, if_false]

/-- The run once the entry at `rob_item_id` has been read and reported. -/
def reported (r : Cpp.CommitRun) (e : RobItem) : Cpp.CommitRun :=
  { r with
    state := { r.state with robItem := e }
    effects := { r.effects with committed := r.effects.committed ++ [r.state.robItemId] } }

theorem retireLoop_trap {firstId n nextId : Nat} {inUse : Bool} {r : Cpp.CommitRun} {e : RobItem}
    (he : c.buffer r.state.robItemId = e) (hfinish : e.finish = true)
    (hnext : c.rob.getNextId r.state.robItemId = some (nextId, inUse))
    (hexc : e.hasException = true) :
    Cpp.retireLoop c firstId (n + 1) r = Cpp.handleException c (reported r e) := by
  rw [Cpp.retireLoop]
  simp only [he, hfinish, hnext, hexc, if_true]
  rfl

theorem retireLoop_branch {firstId n nextId : Nat} {inUse : Bool} {r : Cpp.CommitRun}
    {e : RobItem} (he : c.buffer r.state.robItemId = e) (hfinish : e.finish = true)
    (hnext : c.rob.getNextId r.state.robItemId = some (nextId, inUse))
    (hexc : e.hasException = false) (hbru : e.bruOp = true) :
    Cpp.retireLoop c firstId (n + 1) r =
      Cpp.handleBranch c (Cpp.retireItem (reported r e) r.state.robItemId e) e := by
  rw [Cpp.retireLoop]
  simp only [he, hfinish, hnext, hexc, hbru, if_true, Bool.false_eq_true, if_false]
  rfl

/-- The run with `rob_item_id` moved on. -/
def movedOn (r : Cpp.CommitRun) (e : RobItem) (nextId : Nat) : Cpp.CommitRun :=
  let r := Cpp.retireItem (reported r e) r.state.robItemId e
  { r with state := { r.state with robItemId := nextId } }

theorem retireLoop_next {firstId n nextId : Nat} {inUse : Bool} {r : Cpp.CommitRun}
    {e : RobItem} (he : c.buffer r.state.robItemId = e) (hfinish : e.finish = true)
    (hnext : c.rob.getNextId r.state.robItemId = some (nextId, inUse))
    (hexc : e.hasException = false) (hbru : e.bruOp = false) :
    Cpp.retireLoop c firstId (n + 1) r =
      if !inUse || decide (nextId = firstId) then some (movedOn r e nextId)
      else Cpp.retireLoop c firstId n (movedOn r e nextId) := by
  rw [Cpp.retireLoop]
  simp only [he, hfinish, hnext, hexc, hbru, if_true, Bool.false_eq_true, if_false]
  rfl

/-! ### What each case amounts to -/

theorem runsOn_nothing {k : Nat} {r r' : Cpp.CommitRun} (hplain : Plain r.effects)
    (heffects : r'.effects = r.effects) (hnum : r'.commitNum = r.commitNum)
    (hstate : r'.state.curState = .normal) : RunsOn entries k r CommitEffects.none r' where
  effects := heffects.trans hplain
  commitNum := hnum
  curState := hstate
  flush := fun hflush => CommitFsm.noConfusion hflush

theorem runsOn_trap {k : Nat} {r : Cpp.CommitRun} {e : RobItem}
    (h : CppWindow c.rob c.buffer entries) (hentry : entries[k]? = some (r.state.robItemId, e))
    (hplain : Plain r.effects) :
    ∃ r', Cpp.handleException c (reported r e) = some r' ∧
      RunsOn entries k r (trapEffects r.state.robItemId) r' := by
  obtain ⟨hk, _⟩ := List.getElem?_eq_some_iff.1 hentry
  obtain ⟨last, hlast⟩ : ∃ last, entries.getLast? = some last :=
    ⟨_, List.getLast?_eq_some_getLast (List.ne_nil_of_length_pos (by omega))⟩
  rw [Cpp.handleException, h.tail, hlast]
  refine ⟨_, rfl, ?_, rfl, rfl, fun _ => ⟨by rw [hlast]; rfl, hentry⟩⟩
  simp [reported, queued, trapEffects, CommitEffects.none, hplain.flags]

theorem runsOn_branch {k : Nat} {r : Cpp.CommitRun} {e : RobItem} (hwritten : EntryWritten e)
    (hmstatus : c.mstatus &&& 0x88 = c.mstatus) (hbru : e.bruOp = true)
    (hstate : r.state.curState = .normal) (hplain : Plain r.effects) :
    ∃ r', Cpp.handleBranch c (Cpp.retireItem (reported r e) r.state.robItemId e) e = some r' ∧
      RunsOn entries k r (retireOne c.mstatus e r.state.robItemId (branchEffects e)) r' := by
  have hcsr : (if e.csrNewvalueValid then [(e.csrAddr, e.csrNewvalue)] else []) ++
      (if e.isMret then [(Csr.mstatus, Cpp.mretMstatus c.mstatus)] else []) =
        retiredCsrWrites c.mstatus e := by
    unfold retiredCsrWrites
    rw [mretMstatus_eq hmstatus]
    cases hmret : e.isMret with
    | false => simp
    | true => simp [(hwritten.mret hmret).2]
  have hhit : (e.bruJump = e.predictedJump ∧
      (e.bruNextPc = e.predictedNextPc ∨ (!e.predictedJump) = true)) ↔
        predictionHit e = true := by
    simp [predictionHit]
  unfold Cpp.handleBranch branchEffects
  cases hpredicted : e.predicted with
  | false =>
      refine ⟨_, rfl, ?_, rfl, hstate, fun hflush => CommitFsm.noConfusion hflush⟩
      simp [reported, Cpp.retireItem, queued, retireOne, releasedRegisters, jumpTarget,
        CommitEffects.none, hplain.flags, ← hcsr]
  | true =>
      simp only [if_true, hhit]
      cases hmiss : predictionHit e with
      | true =>
          refine ⟨_, rfl, ?_, rfl, hstate, fun hflush => CommitFsm.noConfusion hflush⟩
          simp [reported, Cpp.retireItem, queued, retireOne, releasedRegisters,
            CommitEffects.none, hplain.flags, ← hcsr]
      | false =>
          rw [hwritten.checkpoint hbru hpredicted]
          refine ⟨_, rfl, ?_, rfl, hstate, fun hflush => CommitFsm.noConfusion hflush⟩
          simp [reported, Cpp.retireItem, queued, retireOne, releasedRegisters, jumpTarget,
            CommitEffects.none, hplain.flags, ← hcsr]

theorem runsOn_next {k nextId : Nat} {r r' : Cpp.CommitRun} {e : RobItem} {rest : CommitEffects}
    (hwritten : EntryWritten e) (hbru : e.bruOp = false)
    (h : RunsOn entries (k + 1) (movedOn r e nextId) rest r') :
    RunsOn entries k r (retireOne c.mstatus e r.state.robItemId rest) r' := by
  have hmret : e.isMret = false := by
    rw [Bool.eq_false_iff]
    intro hmret
    exact Bool.false_ne_true (hbru.symm.trans (hwritten.mret hmret).1)
  refine ⟨?_, ?_, h.curState, fun hflush => ?_⟩
  · rw [h.effects]
    simp [movedOn, reported, Cpp.retireItem, queued, retireOne, releasedRegisters,
      retiredCsrWrites, hmret]
  · rw [h.commitNum]
    show r.commitNum + 1 + _ = r.commitNum + (_ :: rest.popped).length
    rw [List.length_cons]
    omega
  · obtain ⟨hrestore, hitem⟩ := h.flush hflush
    refine ⟨hrestore, ?_⟩
    show entries[k + (_ :: rest.popped).length]? = _
    rw [List.length_cons, show k + (rest.popped.length + 1) = k + 1 + rest.popped.length by omega]
    exact hitem

theorem plain_movedOn {nextId : Nat} {r : Cpp.CommitRun} {e : RobItem} (h : Plain r.effects) :
    Plain (movedOn r e nextId).effects := by
  unfold Plain
  simp [movedOn, reported, Cpp.retireItem, queued, CommitEffects.none, h.flags]

/-- The loop from position `k` on retires what is left to retire, one by one. -/
theorem retireLoop_eq (h : CppWindow c.rob c.buffer entries) (hwritten : AllWritten entries)
    (hmstatus : c.mstatus &&& 0x88 = c.mstatus) {firstId : Nat}
    (hfirst : entries.head?.map (·.1) = some firstId) {n k : Nat} (hfits : k + n ≤ commitWidth)
    (hk : k < entries.length) {r : Cpp.CommitRun} (hid : r.state.robItemId = entries[k].1)
    (hstate : r.state.curState = .normal) (hplain : Plain r.effects) :
    ∃ r', Cpp.retireLoop c firstId n r = some r' ∧
      RunsOn entries k r (retireInOrder c.mstatus n (entries.drop k)) r' := by
  induction n generalizing k r with
  | zero => exact ⟨r, rfl, runsOn_nothing hplain rfl rfl hstate⟩
  | succ n ih =>
      have hsize : k + 1 < robSize := by
        simp only [commitWidth, robSize] at *
        omega
      obtain ⟨e, hentry⟩ : ∃ e, entries[k] = (r.state.robItemId, e) := ⟨entries[k].2, by rw [hid]⟩
      have hmem : (r.state.robItemId, e) ∈ entries := hentry ▸ List.getElem_mem hk
      have hat : entries[k]? = some (r.state.robItemId, e) :=
        (List.getElem?_eq_getElem hk).trans (congrArg some hentry)
      have hread := h.item _ hmem
      rw [List.drop_eq_getElem_cons hk, hentry, retireInOrder]
      cases hfinish : e.finish with
      | false =>
          refine ⟨_, retireLoop_unfinished hread hfinish, ?_⟩
          exact runsOn_nothing hplain rfl rfl hstate
      | true =>
          obtain ⟨nextId, hnext, hnextId⟩ := h.next k hk hsize
          rw [← hid] at hnext
          have hok := hwritten _ hmem hfinish
          simp only [Bool.not_true, Bool.false_eq_true, if_false]
          cases hexc : e.hasException with
          | true =>
              rw [retireLoop_trap hread hfinish hnext hexc]
              exact runsOn_trap h hat hplain
          | false =>
              cases hbru : e.bruOp with
              | true =>
                  rw [retireLoop_branch hread hfinish hnext hexc hbru]
                  exact runsOn_branch hok hmstatus hbru hstate hplain
              | false =>
                  rw [retireLoop_next hread hfinish hnext hexc hbru]
                  have hmoved : Plain (movedOn r e nextId).effects := plain_movedOn hplain
                  by_cases hmore : k + 1 < entries.length
                  · obtain ⟨hsame, hother⟩ := hnextId hmore
                    have hne : nextId ≠ firstId := fun heq => hother (hfirst.trans (by rw [heq]))
                    obtain ⟨r', hloop, hruns⟩ :=
                      ih (r := movedOn r e nextId) (by omega) hmore hsame hstate hmoved
                    refine ⟨r', ?_, runsOn_next hok hbru hruns⟩
                    rw [← hloop]
                    simp [hmore, hne]
                  · have hruns : RunsOn entries (k + 1) (movedOn r e nextId)
                        (retireInOrder c.mstatus n (entries.drop (k + 1)))
                        (movedOn r e nextId) := by
                      rw [List.drop_eq_nil_of_le (by omega)]
                      cases n <;> exact runsOn_nothing hmoved rfl rfl hstate
                    refine ⟨_, ?_, runsOn_next hok hbru hruns⟩
                    simp [hmore]

end Loop

/-! ## The normal state -/

/-- What a run in the normal state ends in, with the entries it started from. -/
structure RunEnds (entries : List (Nat × RobItem)) (cause : Option Nat) (done : CommitEffects)
    (r : Cpp.CommitRun) : Prop where
  effects : r.effects = done
  commitNum : r.commitNum = done.popped.length
  curState : r.state.curState = done.nextState
  restore : done.nextState ≠ .normal →
    entries.getLast?.map (·.1) = some r.state.restoreRobItemId
  flush : done.nextState = .flush →
    entries[done.popped.length]? = some (r.state.robItemId, r.state.robItem)
  interrupt : done.nextState = .interruptFlush →
    entries[0]? = some (r.state.robItemId, r.state.robItem) ∧
      r.state.interruptPc = r.state.robItem.pc ∧ cause = some r.state.interruptId

section Normal

variable {c : Cpp.CommitInput} {entries : List (Nat × RobItem)} {t : Cpp.CommitState}

theorem queued_none (rest : CommitEffects) : queued CommitEffects.none rest = rest := rfl

theorem nextState_retireInOrder (mstatus n : Nat) (l : List (Nat × RobItem)) :
    (retireInOrder mstatus n l).nextState ≠ .interruptFlush := by
  induction n generalizing l with
  | zero => exact CommitFsm.noConfusion
  | succ n ih =>
      cases l with
      | nil => exact CommitFsm.noConfusion
      | cons x rest =>
          obtain ⟨id, e⟩ := x
          unfold retireInOrder
          split
          · exact CommitFsm.noConfusion
          · split
            · exact CommitFsm.noConfusion
            · split
              · show (branchEffects e).nextState ≠ _
                unfold branchEffects
                split
                · split <;> exact CommitFsm.noConfusion
                · exact CommitFsm.noConfusion
              · exact ih rest

/-- A run of the C++ stage in the normal state does not fail and retires sequentially. -/
theorem commitRun_normal (h : CppWindow c.rob c.buffer entries) (hwritten : AllWritten entries)
    (hmstatus : c.mstatus &&& 0x88 = c.mstatus) (hstate : t.curState = .normal) :
    ∃ r, Cpp.commitRun c t = some r ∧
      RunEnds entries c.cause (retireSequentially c.mstatus c.cause.isSome entries) r := by
  have hrun : Cpp.commitRun c t = Cpp.runNormal c t := by
    unfold Cpp.commitRun
    rw [hstate]
  unfold retireSequentially
  rw [hrun, Cpp.runNormal, h.front]
  cases entries with
  | nil =>
      exact ⟨_, rfl, rfl, rfl, hstate, fun hne => absurd rfl hne, CommitFsm.noConfusion,
        CommitFsm.noConfusion⟩
  | cons x rest =>
      obtain ⟨id, e⟩ := x
      simp only [List.head?_cons, Option.map_some, List.isEmpty_cons, Bool.false_eq_true, if_false]
      cases hcause : c.cause with
      | some cause =>
          obtain ⟨last, hlast⟩ : ∃ last, ((id, e) :: rest).getLast? = some last :=
            ⟨_, List.getLast?_eq_some_getLast (List.cons_ne_nil _ _)⟩
          rw [h.tail, hlast]
          have hitem : c.buffer id = e := h.item (id, e) List.mem_cons_self
          refine ⟨_, rfl, rfl, rfl, rfl, fun _ => by rw [hlast]; rfl, CommitFsm.noConfusion,
            fun _ => ⟨?_, rfl, rfl⟩⟩
          simp [hitem]
      | none =>
          obtain ⟨r, hloop, hruns⟩ := retireLoop_eq (k := 0) h hwritten hmstatus rfl
            (Nat.le_of_eq (Nat.zero_add _)) (by simp)
            (r := ⟨{ t with robItemId := id }, CommitEffects.none, 0⟩) rfl hstate plain_none
          have hnone := nextState_retireInOrder c.mstatus commitWidth ((id, e) :: rest)
          refine ⟨r, hloop, hruns.effects.trans (queued_none _), ?_, hruns.curState, ?_, ?_,
            fun hint => absurd hint hnone⟩
          · have hnum := hruns.commitNum
            simpa using hnum
          · intro hne
            cases hnext : (retireInOrder c.mstatus commitWidth ((id, e) :: rest)).nextState with
            | normal => exact absurd hnext hne
            | interruptFlush => exact absurd hnext hnone
            | flush => exact (hruns.flush hnext).1
          · intro hflush
            have := (hruns.flush hflush).2
            rwa [Nat.zero_add] at this

end Normal

/-! ## The walk back -/

section Walk

variable {c : Cpp.CommitInput} {t : Cpp.CommitState} {prevId : Nat}

theorem runFlush_last {inUse : Bool}
    (hprev : c.rob.getPrevId t.restoreRobItemId = some (prevId, inUse))
    (hlast : t.restoreRobItemId = t.robItemId) :
    ∃ r, Cpp.runFlush c t = some r ∧ r.state.curState = .normal ∧ r.commitNum = 1 := by
  rw [Cpp.runFlush, hprev]
  simp only [hlast, if_true]
  exact ⟨_, rfl, rfl, rfl⟩

theorem runFlush_step (hprev : c.rob.getPrevId t.restoreRobItemId = some (prevId, true))
    (hmore : t.restoreRobItemId ≠ t.robItemId) :
    ∃ r, Cpp.runFlush c t = some r ∧ r.state = { t with restoreRobItemId := prevId } ∧
      r.commitNum = 0 := by
  rw [Cpp.runFlush, hprev]
  simp only [hmore, if_true, if_false]
  exact ⟨_, rfl, rfl, rfl⟩

end Walk

/-! ## Hardware, C++ model and sequential retirement -/

/-- Both commit stages look at the same reorder buffer, interrupt and `mstatus`. -/
structure SameCycle (rob : RobState) (c : CommitInput) (input : Cpp.CommitInput) : Prop where
  view : c.rob = robView rob
  buffer : input.buffer = rob.buffer
  pointers : input.rob = Cpp.robOfRtl rob
  cause : input.cause.isSome = c.intifCommitHasInterrupt
  mstatus : input.mstatus = c.csrfAllMstatusData

/-- On entries as write-back leaves them, a cycle of the hardware in the normal state is
sequential retirement, and the C++ model queues the same effects. -/
theorem retire_bundle_sequential {rob : RobState} {s : CommitState} {c : CommitInput}
    {t : Cpp.CommitState} {input : Cpp.CommitInput} (hsame : SameCycle rob c input)
    (h : RobWellFormed rob) (hwritten : AllWritten (robContents rob))
    (hmstatus : c.csrfAllMstatusData &&& 0x88 = c.csrfAllMstatusData)
    (hs : s.curState = .normal) (ht : t.curState = .normal) :
    hardwareEffects s c = retireSequentially c.csrfAllMstatusData c.intifCommitHasInterrupt
        (robContents rob) ∧
      ∃ r, Cpp.commitRun input t = some r ∧ r.effects = hardwareEffects s c := by
  have hhardware := hardware_sequential (window_rob hsame.view h) hs hwritten.noBranchTraps
  have hwindow : CppWindow input.rob input.buffer (robContents rob) := by
    rw [hsame.pointers, hsame.buffer]
    exact cppWindow_rob h
  obtain ⟨r, hrun, hends⟩ := commitRun_normal hwindow hwritten (hsame.mstatus ▸ hmstatus) ht
  refine ⟨hhardware, r, hrun, ?_⟩
  rw [hends.effects, hhardware, hsame.mstatus, hsame.cause]

/-! ### Single entries -/

/-- A reorder buffer with these entries from slot 0 on. -/
def robHolding (entries : List RobItem) : RobState where
  buffer := fun id => entries.getD id RobItem.zero
  rptr := 0
  wptr := entries.length

def inputHolding (mstatus : Nat) (entries : List RobItem) : CommitInput where
  rob := robView (robHolding entries)
  intifCommitHasInterrupt := false
  intifCommitMcauseData := 0
  intifCommitAckData := 0
  csrfCommitReadData := 0
  csrfAllMstatusData := mstatus
  cpbufCommitData := fun _ => ⟨fun _ => false, fun _ => false, 0, 0⟩
  wbCommitPortDataOut := fun _ => ExecuteWbPack.zero

def cppInputHolding (mstatus : Nat) (entries : List RobItem) : Cpp.CommitInput where
  rob := Cpp.robOfRtl (robHolding entries)
  buffer := (robHolding entries).buffer
  cause := none
  mstatus := mstatus
  mtvec := 0

/-- The two commit stages and sequential retirement agree on these entries. -/
abbrev Agree (mstatus : Nat) (entries : List RobItem) : Prop :=
  hardwareEffects commitReset (inputHolding mstatus entries) =
      retireSequentially mstatus false (robContents (robHolding entries)) ∧
    (Cpp.commitRun (cppInputHolding mstatus entries) cppCommitReset).map (·.effects) =
      some (hardwareEffects commitReset (inputHolding mstatus entries))

def doneItem : RobItem := { RobItem.zero with finish := true }

def doneBranch : RobItem := { doneItem with bruOp := true, bruJump := true, bruNextPc := 64 }

/-- An addition and a taken branch that was predicted not taken. -/
def missedBundle : List RobItem :=
  [{ doneItem with oldPhyRegId := 5, oldPhyRegIdValid := true },
    { doneBranch with predicted := true, checkpointIdValid := true, checkpointId := 3 }]

theorem missedBundle_written : AllWritten (robContents (robHolding missedBundle)) := by
  have hcontents : robContents (robHolding missedBundle) =
      [(0, { doneItem with oldPhyRegId := 5, oldPhyRegIdValid := true }),
        (1, { doneBranch with
          predicted := true, checkpointIdValid := true, checkpointId := 3 })] := rfl
  intro x hx _
  rw [hcontents] at hx
  rcases List.mem_pair.1 hx with rfl | rfl
  · exact ⟨by decide, by decide, by decide⟩
  · exact ⟨by decide, by decide, by decide⟩

theorem retire_bundle_sequential_missedBundle : Agree 0x88 missedBundle := by
  have hsame : SameCycle (robHolding missedBundle) (inputHolding 0x88 missedBundle)
      (cppInputHolding 0x88 missedBundle) := ⟨rfl, rfl, rfl, rfl, rfl⟩
  have hwf : RobWellFormed (robHolding missedBundle) := ⟨by decide, by decide, by decide⟩
  obtain ⟨hsequential, r, hrun, heffects⟩ := retire_bundle_sequential (s := commitReset)
    (t := cppCommitReset) hsame hwf missedBundle_written (by decide) rfl rfl
  exact ⟨hsequential, by rw [hrun, Option.map_some, heffects]⟩

/-- On entries that write-back never leaves behind they differ: a branch with an
exception, a predicted branch without a checkpoint, an `mret` that is no branch or writes
another CSR, and `mret` with bits of `mstatus` that are not implemented. -/
theorem unwritten_entries_differ :
    ¬Agree 0 [{ doneBranch with hasException := true }] ∧
      ¬Agree 0 [{ doneBranch with predicted := true }] ∧
      ¬Agree 0 [{ doneItem with isMret := true }] ∧
      ¬Agree 0 [{ doneBranch with isMret := true, csrNewvalueValid := true }] ∧
      ¬Agree 1 [{ doneBranch with isMret := true }] := by
  decide +kernel

end DreamCore.Proofs
