import DreamCore.Rtl.Fetch
import DreamCore.Lib.Clocked

/-!
# Contents of live checkpoints

Fetch and the checkpoint buffer wired together, with rename and commit as ports.
Fetch pushes on a predicted jump without looking at the free flag, and the write
channel follows the push; only the write pointer stops when the ring is full.
As long as no push meets a full ring, a live entry changes only when rename
writes it.
-/

namespace DreamCore.Proofs

open DreamCore.Clocked DreamCore.Ring DreamCore.Rtl

abbrev cpbufOccupancy (s : CheckpointBufferState) : Nat :=
  occupancy checkpointBufferSize s.rptr s.wptr

abbrev CpbufLive (s : CheckpointBufferState) (id : Nat) : Prop :=
  Live checkpointBufferSize s.rptr s.wptr id

abbrev CpbufWellFormed (s : CheckpointBufferState) : Prop :=
  WellFormed checkpointBufferSize s.rptr s.wptr

/-! ## Pointers -/

/-- Entries that leave in this cycle. -/
def cpbufPopped (s : CheckpointBufferState) (input : CheckpointBufferInput) : Nat :=
  if cpbufEmpty s then 0 else cpbufCommitNum input

/-- Entries the write pointer passes in this cycle. -/
def cpbufPushed (s : CheckpointBufferState) (input : CheckpointBufferInput) : Nat :=
  if cpbufFull s then 0 else input.fetchCpbufPush.toNat

theorem cpbufReset_wellFormed (buffer : Nat → Checkpoint) :
    CpbufWellFormed (cpbufReset buffer) :=
  (⟨by decide, by decide, by decide⟩ : WellFormed checkpointBufferSize 0 0)

theorem cpbufFull_iff {s : CheckpointBufferState} (h : CpbufWellFormed s) :
    cpbufFull s = true ↔ cpbufOccupancy s = checkpointBufferSize := by
  rw [cpbufOccupancy, ← full_iff h.rptr_lt h.wptr_lt, cpbufFull, Bool.and_eq_true,
    decide_eq_true_iff, decide_eq_true_iff]

theorem cpbufEmpty_iff {s : CheckpointBufferState} (h : CpbufWellFormed s) :
    cpbufEmpty s = true ↔ cpbufOccupancy s = 0 := by
  rw [cpbufOccupancy, occupancy_eq_zero_iff h.rptr_lt h.wptr_lt, cpbufEmpty,
    decide_eq_true_iff]

theorem cpbufPopped_le {s : CheckpointBufferState} (h : CpbufWellFormed s)
    {input : CheckpointBufferInput} (hpop : cpbufCommitNum input ≤ 1) :
    cpbufPopped s input ≤ cpbufOccupancy s := by
  rw [cpbufPopped]
  split
  · exact Nat.zero_le _
  · have : cpbufOccupancy s ≠ 0 := fun hocc =>
      ‹¬cpbufEmpty s = true› ((cpbufEmpty_iff h).2 hocc)
    omega

theorem cpbufPushed_le {s : CheckpointBufferState} (h : CpbufWellFormed s)
    (input : CheckpointBufferInput) :
    cpbufOccupancy s + cpbufPushed s input ≤ checkpointBufferSize := by
  have hfit : cpbufOccupancy s ≤ checkpointBufferSize := h.fits
  rw [cpbufPushed]
  split
  · omega
  · have : cpbufOccupancy s ≠ checkpointBufferSize := fun hocc =>
      ‹¬cpbufFull s = true› ((cpbufFull_iff h).2 hocc)
    have := Bool.toNat_le input.fetchCpbufPush
    omega

theorem cpbufRptrNext_eq {s : CheckpointBufferState} (h : CpbufWellFormed s)
    (input : CheckpointBufferInput) :
    cpbufRptrNext s input = (s.rptr + cpbufPopped s input) % (2 * checkpointBufferSize) := by
  rw [cpbufRptrNext, cpbufPopped]
  split
  · rw [Nat.add_zero, Nat.mod_eq_of_lt h.rptr_lt]
  · rfl

theorem cpbufWptrNext_eq {s : CheckpointBufferState} (h : CpbufWellFormed s)
    (input : CheckpointBufferInput) :
    cpbufWptrNext s input = (s.wptr + cpbufPushed s input) % (2 * checkpointBufferSize) := by
  rw [cpbufWptrNext, cpbufPushed]
  split
  · rw [Nat.add_zero, Nat.mod_eq_of_lt h.wptr_lt]
  · cases input.fetchCpbufPush with
    | true => rfl
    | false => exact (Nat.mod_eq_of_lt h.wptr_lt).symm

/-- What a cycle without a clear does to the number of entries. -/
theorem cpbufNext_occupancy {s : CheckpointBufferState} (h : CpbufWellFormed s)
    {input : CheckpointBufferInput} (hpop : cpbufCommitNum input ≤ 1)
    (hflush : input.commitCpbufFlush = false) :
    cpbufOccupancy (cpbufNext s input) =
      cpbufOccupancy s - cpbufPopped s input + cpbufPushed s input := by
  have hpopped := cpbufPopped_le h hpop
  have hpushed := cpbufPushed_le h input
  have hrnext := cpbufRptrNext_eq h input
  have hwnext := cpbufWptrNext_eq h input
  obtain ⟨hr, hw, hfit⟩ := h
  have hocc := occupancy_pop hr hw hpopped
  simp only [cpbufOccupancy, cpbufNext, hflush, Bool.false_eq_true, if_false, hrnext, hwnext]
    at *
  rw [occupancy_push (Nat.mod_lt _ (by decide)) hw (by rw [hocc]; omega), hocc]

theorem cpbufNext_wellFormed {s : CheckpointBufferState} (h : CpbufWellFormed s)
    {input : CheckpointBufferInput} (hpop : cpbufCommitNum input ≤ 1) :
    CpbufWellFormed (cpbufNext s input) := by
  cases hflush : input.commitCpbufFlush with
  | true =>
      simp only [CpbufWellFormed, cpbufNext, hflush, if_true]
      exact ⟨by decide, by decide, by decide⟩
  | false =>
      have hocc := cpbufNext_occupancy h hpop hflush
      have hpushed := cpbufPushed_le h input
      refine ⟨?_, ?_, ?_⟩
      · simp only [cpbufNext, hflush, Bool.false_eq_true, if_false, cpbufRptrNext_eq h]
        exact Nat.mod_lt _ (by decide)
      · simp only [cpbufNext, hflush, Bool.false_eq_true, if_false, cpbufWptrNext_eq h]
        exact Nat.mod_lt _ (by decide)
      · change cpbufOccupancy (cpbufNext s input) ≤ _
        omega

theorem cpbufNewId_live_iff {s : CheckpointBufferState} (h : CpbufWellFormed s) :
    CpbufLive s (cpbufFetchNewId s) ↔ cpbufFull s = true := by
  rw [cpbufFull_iff h]
  obtain ⟨hr, hw, hfit⟩ := h
  have hocc := occupancy_eq hr hw
  constructor
  · rintro ⟨k, hk, heq⟩
    simp only [cpbufFetchNewId, slot, cpbufOccupancy, checkpointBufferSize] at *
    split at hocc <;> omega
  · intro hfull
    refine ⟨0, ?_, ?_⟩
    · rw [show occupancy _ _ _ = _ from hfull]
      decide
    · simp only [cpbufFetchNewId, slot, cpbufOccupancy, checkpointBufferSize] at *
      split at hocc <;> omega

/-- The entry `id` is popped in this cycle, or the ring is cleared. -/
def Released (s : CheckpointBufferState) (input : CheckpointBufferInput) (id : Nat) : Prop :=
  input.commitCpbufFlush = true ∨
    ∃ k, k < cpbufCommitNum input ∧ id = slot checkpointBufferSize (s.rptr + k)

/-- A live entry that is not released stays live. -/
theorem cpbufNext_live {s : CheckpointBufferState} (h : CpbufWellFormed s)
    {input : CheckpointBufferInput} (hpop : cpbufCommitNum input ≤ 1) {id : Nat}
    (hlive : CpbufLive s id) (hkept : ¬Released s input id) :
    CpbufLive (cpbufNext s input) id := by
  obtain ⟨hnoflush, hnopop⟩ := not_or.1 hkept
  obtain ⟨k, hk, hid⟩ := hlive
  have hflush : input.commitCpbufFlush = false := by simpa using hnoflush
  have hocc := cpbufNext_occupancy h hpop hflush
  have hpopped : cpbufPopped s input ≤ k := by
    by_contra hlt
    refine hnopop ⟨k, ?_, hid⟩
    rw [cpbufPopped] at hlt
    split at hlt <;> omega
  refine ⟨k - cpbufPopped s input, ?_, ?_⟩
  · change _ < cpbufOccupancy _
    rw [hocc]
    change k < cpbufOccupancy s at hk
    omega
  · rw [hid]
    simp only [cpbufNext, hflush, Bool.false_eq_true, if_false, cpbufRptrNext_eq h, slot,
      checkpointBufferSize]
    omega

/-! ## Contents -/

/-- The same cycle with the push of fetch suppressed. -/
def withoutPush (input : CheckpointBufferInput) : CheckpointBufferInput :=
  { input with fetchCpbufPush := false }

/-- Rename writes entry `id` in this cycle. -/
def RenameWrites (input : CheckpointBufferInput) (id : Nat) : Prop :=
  ∃ j, j < renameWidth ∧ input.renameCpbufWe j = true ∧ input.renameCpbufId j = id

theorem cpbufWritePortAddrCmp_iff {s : CheckpointBufferState} {input : CheckpointBufferInput}
    {id j : Nat} : cpbufWritePortAddrCmp s input id j = true ↔
      cpbufWriteChannelAddr s input j = id ∧ cpbufWriteChannelEnable input j = true := by
  rw [cpbufWritePortAddrCmp, Bool.and_eq_true, decide_eq_true_iff]

theorem cpbufBufferNext_withoutPush {s : CheckpointBufferState}
    {input : CheckpointBufferInput} {id : Nat}
    (h : input.fetchCpbufPush = true → cpbufFetchNewId s ≠ id) :
    cpbufBufferNext s input id =
      cpbufBufferNext s (withoutPush input) id := by
  have hcmp : cpbufWritePortAddrCmp s input id =
      cpbufWritePortAddrCmp s (withoutPush input) id := by
    funext j
    cases j with
    | zero =>
        simp only [cpbufWritePortAddrCmp, cpbufWriteChannelAddr, cpbufWriteChannelEnable]
        cases hpush : input.fetchCpbufPush with
        | false => simp [withoutPush]
        | true => simp [h hpush]
    | succ j => rfl
  have hdata : cpbufWriteChannelData input =
      cpbufWriteChannelData (withoutPush input) := by
    funext j
    cases j <;> rfl
  rw [cpbufBufferNext, cpbufBufferNext, hcmp, hdata]

theorem cpbufBufferNext_quiet {s : CheckpointBufferState} {input : CheckpointBufferInput}
    {id : Nat} (hpush : input.fetchCpbufPush = true → cpbufFetchNewId s ≠ id)
    (hrename : ¬RenameWrites input id) : cpbufBufferNext s input id = s.buffer id := by
  rw [cpbufBufferNext_withoutPush hpush, cpbufBufferNext, if_neg]
  rw [anyBit_iff]
  rintro ⟨j, hj, hcmp⟩
  obtain ⟨haddr, henable⟩ := cpbufWritePortAddrCmp_iff.1 hcmp
  cases j with
  | zero => exact Bool.false_ne_true henable
  | succ j => exact hrename ⟨j, by omega, henable, haddr⟩

/-- A write by exactly one rename channel stores that channel's data. -/
theorem cpbufBufferNext_rename {s : CheckpointBufferState} {input : CheckpointBufferInput}
    {id i : Nat} (hpush : input.fetchCpbufPush = true → cpbufFetchNewId s ≠ id)
    (hi : i < renameWidth) (hwe : input.renameCpbufWe i = true)
    (hid : input.renameCpbufId i = id)
    (hone : ∀ j, j < renameWidth → j ≠ i → input.renameCpbufWe j = true →
      input.renameCpbufId j ≠ id) :
    cpbufBufferNext s input id = input.renameCpbufData i := by
  rw [cpbufBufferNext_withoutPush hpush, cpbufBufferNext, if_pos]
  · refine dataSelector_single (Checkpoint.zero_or) (Checkpoint.or_zero) (k := i + 1)
      (by omega) fun j hj => ?_
    rw [cpbufWritePortAddrCmp_iff]
    cases j with
    | zero => simp [cpbufWriteChannelEnable, withoutPush]
    | succ j =>
        constructor
        · rintro ⟨heq, hj'⟩
          by_contra hne
          exact hone j (by omega) (by omega) hj' heq
        · intro heq
          obtain rfl : j = i := by omega
          exact ⟨hid, hwe⟩
  · rw [anyBit_iff]
    exact ⟨i + 1, by omega, cpbufWritePortAddrCmp_iff.2 ⟨hid, hwe⟩⟩

/-- A push alone stores what fetch offers in the entry it was granted. -/
theorem cpbufBufferNext_push {s : CheckpointBufferState} {input : CheckpointBufferInput}
    (hpush : input.fetchCpbufPush = true) (hrename : ¬RenameWrites input (cpbufFetchNewId s)) :
    cpbufBufferNext s input (cpbufFetchNewId s) = input.fetchCpbufData := by
  rw [cpbufBufferNext, if_pos]
  · refine dataSelector_single (Checkpoint.zero_or) (Checkpoint.or_zero) (k := 0) (by decide)
      fun j hj => ?_
    rw [cpbufWritePortAddrCmp_iff]
    cases j with
    | zero => simp [cpbufWriteChannelAddr, cpbufWriteChannelEnable, hpush]
    | succ j =>
        refine ⟨fun h => absurd ⟨j, by omega, h.2, h.1⟩ hrename, fun h => by omega⟩
  · rw [anyBit_iff]
    exact ⟨0, by decide, cpbufWritePortAddrCmp_iff.2 ⟨rfl, hpush⟩⟩

/-! ## Fetch and the checkpoint buffer together -/

structure FetchCpbufState where
  fetch : FetchState
  cpbuf : CheckpointBufferState

/-- One cycle at the ports; the two `cpbuf` wires of `fetch` come from the buffer. -/
structure FetchCpbufInput where
  fetch : FetchInput
  renameCpbufId : Nat → Nat
  renameCpbufData : Nat → Checkpoint
  renameCpbufWe : Nat → Bool
  commitCpbufPop : Nat → Bool
  commitCpbufFlush : Bool

def wiredFetchInput (s : FetchCpbufState) (input : FetchCpbufInput) : FetchInput :=
  { input.fetch with
    cpbufFetchNewId := cpbufFetchNewId s.cpbuf
    cpbufFetchNewIdValid := cpbufFetchNewIdValid s.cpbuf }

def wiredCpbufInput (s : FetchCpbufState) (input : FetchCpbufInput) :
    CheckpointBufferInput where
  fetchCpbufData := fetchCpbufData (wiredFetchInput s input)
  fetchCpbufPush := fetchCpbufPush s.fetch (wiredFetchInput s input)
  renameCpbufId := input.renameCpbufId
  renameCpbufData := input.renameCpbufData
  renameCpbufWe := input.renameCpbufWe
  commitCpbufPop := input.commitCpbufPop
  commitCpbufFlush := input.commitCpbufFlush

def fetchCpbufNext (s : FetchCpbufState) (input : FetchCpbufInput) : FetchCpbufState where
  fetch := fetchNext s.fetch (wiredFetchInput s input)
  cpbuf := cpbufNext s.cpbuf (wiredCpbufInput s input)

theorem fetchCpbufNext_buffer (s : FetchCpbufState) (input : FetchCpbufInput) :
    (fetchCpbufNext s input).cpbuf.buffer = cpbufBufferNext s.cpbuf (wiredCpbufInput s input) :=
  rfl

def fetchCpbufReset (buffer : Nat → Checkpoint) : FetchCpbufState :=
  ⟨fetchReset, cpbufReset buffer⟩

/-- Commit retires at most one branch a cycle. -/
def PopAllowed (s : FetchCpbufState) (input : FetchCpbufInput) : Prop :=
  cpbufCommitNum (wiredCpbufInput s input) ≤ 1

def NoPushWhileFull (s : FetchCpbufState) (input : FetchCpbufInput) : Prop :=
  ¬(cpbufFull s.cpbuf = true ∧ fetchCpbufPush s.fetch (wiredFetchInput s input) = true)

/-- Every live entry becomes what it would become without the push of fetch. -/
def PushKeepsLive (s : FetchCpbufState) (input : FetchCpbufInput) : Prop :=
  ∀ id, CpbufLive s.cpbuf id →
    cpbufBufferNext s.cpbuf (wiredCpbufInput s input) id =
      cpbufBufferNext s.cpbuf (withoutPush (wiredCpbufInput s input)) id

/-- Entry `id` is neither released nor written by rename in this cycle. -/
def LeftAlone (id : Nat) (s : FetchCpbufState) (input : FetchCpbufInput) : Prop :=
  ¬Released s.cpbuf (wiredCpbufInput s input) id ∧ ¬RenameWrites (wiredCpbufInput s input) id

/-- Only rename's channel `i` writes entry `id` in this cycle. -/
def RenameWritesOnly (input : FetchCpbufInput) (i id : Nat) : Prop :=
  i < renameWidth ∧ input.renameCpbufWe i = true ∧ input.renameCpbufId i = id ∧
    ∀ j, j < renameWidth → j ≠ i → input.renameCpbufWe j = true → input.renameCpbufId j ≠ id

theorem push_misses_live {s : FetchCpbufState} {input : FetchCpbufInput}
    (h : CpbufWellFormed s.cpbuf) (hcond : NoPushWhileFull s input) {id : Nat}
    (hlive : CpbufLive s.cpbuf id) :
    (wiredCpbufInput s input).fetchCpbufPush = true → cpbufFetchNewId s.cpbuf ≠ id := by
  rintro hpush rfl
  exact hcond ⟨(cpbufNewId_live_iff h).1 hlive, hpush⟩

/-- Over any stretch of allowed cycles an untouched live entry keeps its contents. -/
theorem leftAlone_run {s : FetchCpbufState} (h : CpbufWellFormed s.cpbuf) {id : Nat}
    (hlive : CpbufLive s.cpbuf id) {inputs : List FetchCpbufInput}
    (hport : Along fetchCpbufNext PopAllowed s inputs)
    (hcond : Along fetchCpbufNext NoPushWhileFull s inputs)
    (halone : Along fetchCpbufNext (LeftAlone id) s inputs) :
    (run fetchCpbufNext s inputs).cpbuf.buffer id = s.cpbuf.buffer id := by
  induction inputs generalizing s with
  | nil => rfl
  | cons input inputs ih =>
      have hkept := cpbufBufferNext_quiet (push_misses_live h hcond.1 hlive) halone.1.2
      rw [run_cons, ih (cpbufNext_wellFormed h hport.1)
        (cpbufNext_live h hport.1 hlive halone.1.1) hport.2 hcond.2 halone.2]
      exact hkept

/-- Along every run in which fetch never pushes into a full ring, no push changes
a live entry, and what rename wrote stays until the entry is released. -/
theorem checkpoints_kept (buffer : Nat → Checkpoint) (inputs : List FetchCpbufInput)
    (hport : Along fetchCpbufNext PopAllowed (fetchCpbufReset buffer) inputs)
    (hcond : Along fetchCpbufNext NoPushWhileFull (fetchCpbufReset buffer) inputs) :
    Along fetchCpbufNext PushKeepsLive (fetchCpbufReset buffer) inputs ∧
      ∀ before write after i id, inputs = before ++ write :: after →
        let s := run fetchCpbufNext (fetchCpbufReset buffer) before
        CpbufLive s.cpbuf id → RenameWritesOnly write i id →
        ¬Released s.cpbuf (wiredCpbufInput s write) id →
        Along fetchCpbufNext (LeftAlone id) (fetchCpbufNext s write) after →
        (run fetchCpbufNext (fetchCpbufReset buffer) inputs).cpbuf.buffer id =
          write.renameCpbufData i := by
  have hinv : ∀ s input, CpbufWellFormed s.cpbuf → PopAllowed s input →
      CpbufWellFormed (fetchCpbufNext s input).cpbuf :=
    fun _ _ h hpop => cpbufNext_wellFormed h hpop
  constructor
  · have hboth := Along.strengthen hinv (cpbufReset_wellFormed buffer) hport
    refine (hboth.and hcond).mono fun s input h id hlive => ?_
    exact cpbufBufferNext_withoutPush (push_misses_live h.1.1 h.2 hlive)
  · rintro before write after i id rfl s hlive ⟨hi, hwe, hid, hone⟩ hkept halone
    rw [along_append] at hport hcond
    have h : CpbufWellFormed s.cpbuf := invariant_run hinv (cpbufReset_wellFormed buffer) hport.1
    have hwritten : (fetchCpbufNext s write).cpbuf.buffer id = write.renameCpbufData i :=
      cpbufBufferNext_rename (push_misses_live h hcond.2.1 hlive) hi hwe hid hone
    rw [run_append, run_cons, ← hwritten]
    exact leftAlone_run (hinv _ _ h hport.2.1) (cpbufNext_live h hport.2.1 hlive hkept)
      hport.2.2 hcond.2.2 halone

/-! ## A full ring -/

def quietCommitFeedback : CommitFeedbackPack where
  enable := false
  nextHandleRobIdValid := false
  nextHandleRobId := 0
  hasException := false
  exceptionPc := 0
  flush := false
  committedRobId := fun _ => 0
  committedRobIdValid := fun _ => false
  jumpEnable := false
  jump := false
  nextPc := 0

/-- The first word at `INIT_PC` is a `jal`, predicted to jump to itself. -/
def jumpToSelf : FetchCpbufInput where
  fetch :=
    { bpFetchJump := true
      bpFetchNextPc := initPc
      bpFetchValid := true
      bpFetchGlobalHistory := 0
      bpFetchLocalHistory := 0
      busFetchData := 0x6f
      busFetchReadAck := true
      cpbufFetchNewId := 0
      cpbufFetchNewIdValid := false
      stbufAllEmpty := true
      fetchDecodeFifoDataInEnable := fun _ => true
      decodeFeedbackIdle := true
      renameFeedbackIdle := true
      commitFeedbackPack := quietCommitFeedback }
  renameCpbufId := fun _ => 0
  renameCpbufData := fun _ => Checkpoint.zero
  renameCpbufWe := fun _ => false
  commitCpbufPop := fun _ => false
  commitCpbufFlush := false

/-- Fetch gets no answer from the bus; rename's first channel writes entry 0. -/
def renameEntryZero : FetchCpbufInput :=
  { jumpToSelf with
    fetch := { jumpToSelf.fetch with busFetchReadAck := false }
    renameCpbufData := fun _ => { Checkpoint.zero with ratPhyMapTableVisible := fun _ => true }
    renameCpbufWe := fun j => decide (j = 0) }

theorem jumpToSelf_pushes (s : FetchCpbufState) (h : s.fetch = fetchReset) :
    fetchCpbufPush s.fetch (wiredFetchInput s jumpToSelf) = true := by
  have hid : fetchCpbufPush s.fetch (wiredFetchInput s jumpToSelf) =
      fetchCpbufPush s.fetch jumpToSelf.fetch := rfl
  rw [hid, h]
  decide +kernel

theorem jumpToSelf_popAllowed (s : FetchCpbufState) : PopAllowed s jumpToSelf :=
  (by decide : 0 ≤ 1)

theorem renameEntryZero_popAllowed (s : FetchCpbufState) : PopAllowed s renameEntryZero :=
  (by decide : 0 ≤ 1)

theorem jumpToSelf_fetchNext {s : FetchCpbufState} (hfetch : s.fetch = fetchReset)
    (hfree : cpbufFull s.cpbuf = false) : (fetchCpbufNext s jumpToSelf).fetch = fetchReset := by
  -- The next fetch state does not depend on the id offered, only on its valid bit.
  have hid : (fetchCpbufNext s jumpToSelf).fetch = fetchNext s.fetch
      { jumpToSelf.fetch with cpbufFetchNewIdValid := cpbufFetchNewIdValid s.cpbuf } := rfl
  rw [hid, hfetch, cpbufFetchNewIdValid, hfree]
  decide +kernel

theorem jumpToSelf_step {s : FetchCpbufState} {n : Nat} (hn : n < checkpointBufferSize)
    (hfetch : s.fetch = fetchReset) (hr : s.cpbuf.rptr = 0) (hw : s.cpbuf.wptr = n) :
    (fetchCpbufNext s jumpToSelf).fetch = fetchReset ∧
      (fetchCpbufNext s jumpToSelf).cpbuf.rptr = 0 ∧
      (fetchCpbufNext s jumpToSelf).cpbuf.wptr = n + 1 := by
  have hocc : cpbufOccupancy s.cpbuf = n := by
    simp only [cpbufOccupancy, occupancy, hr, hw, checkpointBufferSize] at *
    omega
  have h : CpbufWellFormed s.cpbuf :=
    ⟨by rw [hr]; decide, by rw [hw]; omega, by rw [← cpbufOccupancy, hocc]; omega⟩
  have hfree : cpbufFull s.cpbuf = false := by
    rw [Bool.eq_false_iff, Ne, cpbufFull_iff h, hocc]
    omega
  have hpushed : cpbufPushed s.cpbuf (wiredCpbufInput s jumpToSelf) = 1 := by
    simp only [cpbufPushed, hfree, wiredCpbufInput, jumpToSelf_pushes s hfetch]
    rfl
  have hpopped : cpbufPopped s.cpbuf (wiredCpbufInput s jumpToSelf) = 0 := by
    have hnum : cpbufCommitNum (wiredCpbufInput s jumpToSelf) = 0 := rfl
    rw [cpbufPopped, hnum, ite_self]
  have hflush : (wiredCpbufInput s jumpToSelf).commitCpbufFlush = false := rfl
  refine ⟨jumpToSelf_fetchNext hfetch hfree, ?_, ?_⟩
  · simp only [fetchCpbufNext, cpbufNext, hflush, cpbufRptrNext_eq h, hpopped, hr]
    rfl
  · simp only [fetchCpbufNext, cpbufNext, hflush, cpbufWptrNext_eq h, hpushed, hw,
      Bool.false_eq_true, if_false]
    simp only [checkpointBufferSize] at *
    omega

/-- After `n` such cycles from reset the ring holds `n` entries. -/
theorem jumpToSelf_run {n : Nat} (hn : n ≤ checkpointBufferSize) :
    let s := run fetchCpbufNext (fetchCpbufReset fun _ => Checkpoint.zero)
      (List.replicate n jumpToSelf)
    s.fetch = fetchReset ∧ s.cpbuf.rptr = 0 ∧ s.cpbuf.wptr = n := by
  induction n with
  | zero => exact ⟨rfl, rfl, rfl⟩
  | succ n ih =>
      obtain ⟨hfetch, hr, hw⟩ := ih (by omega)
      rw [List.replicate_succ', run_append]
      exact jumpToSelf_step (by omega) hfetch hr hw

/-- One predicted branch fetched and renamed: its entry holds what rename wrote. -/
theorem checkpoints_kept_one :
    Along fetchCpbufNext PushKeepsLive (fetchCpbufReset fun _ => Checkpoint.zero)
        [jumpToSelf, renameEntryZero] ∧
      (run fetchCpbufNext (fetchCpbufReset fun _ => Checkpoint.zero)
        [jumpToSelf, renameEntryZero]).cpbuf.buffer 0 = renameEntryZero.renameCpbufData 0 := by
  have h := checkpoints_kept (fun _ => Checkpoint.zero) [jumpToSelf, renameEntryZero]
    ⟨jumpToSelf_popAllowed _, renameEntryZero_popAllowed _, trivial⟩
    ⟨fun h => absurd h.1 (by decide +kernel), fun h => absurd h.1 (by decide +kernel), trivial⟩
  refine ⟨h.1, h.2 [jumpToSelf] renameEntryZero [] 0 0 rfl ⟨0, by decide +kernel, by decide +kernel⟩
    ⟨by decide, by decide, by decide, by decide⟩ ?_ trivial⟩
  rintro (hflush | ⟨k, hk, -⟩)
  · exact absurd hflush (by decide)
  · exact absurd hk (Nat.not_lt_zero k)

/-- The ring is full, and rename has written the entry of the oldest branch. -/
def fullRing : FetchCpbufState :=
  run fetchCpbufNext (fetchCpbufReset fun _ => Checkpoint.zero)
    (List.replicate checkpointBufferSize jumpToSelf ++ [renameEntryZero])

theorem fullRing_spec :
    fullRing.fetch = fetchReset ∧ fullRing.cpbuf.rptr = 0 ∧
      fullRing.cpbuf.wptr = checkpointBufferSize ∧
      fullRing.cpbuf.buffer 0 = renameEntryZero.renameCpbufData 0 := by
  obtain ⟨hfetch, hr, hw⟩ := jumpToSelf_run (Nat.le_refl checkpointBufferSize)
  have hfull : fullRing = fetchCpbufNext (run fetchCpbufNext
      (fetchCpbufReset fun _ => Checkpoint.zero)
      (List.replicate checkpointBufferSize jumpToSelf)) renameEntryZero := by
    rw [fullRing, run_append]
    rfl
  rw [hfull]
  generalize run fetchCpbufNext (fetchCpbufReset fun _ => Checkpoint.zero)
    (List.replicate checkpointBufferSize jumpToSelf) = s at hfetch hr hw
  have hfullS : cpbufFull s.cpbuf = true := by
    rw [cpbufFull, hr, hw]
    decide +kernel
  have hpush : (wiredCpbufInput s renameEntryZero).fetchCpbufPush = false := by
    have hid : (wiredCpbufInput s renameEntryZero).fetchCpbufPush =
        fetchCpbufPush s.fetch renameEntryZero.fetch := rfl
    rw [hid, hfetch]
    decide +kernel
  have hnext : (fetchCpbufNext s renameEntryZero).fetch = fetchNext s.fetch
      { renameEntryZero.fetch with cpbufFetchNewIdValid := cpbufFetchNewIdValid s.cpbuf } := rfl
  refine ⟨?_, ?_, ?_, ?_⟩
  · rw [hnext, hfetch, cpbufFetchNewIdValid, hfullS]
    decide +kernel
  · change cpbufRptrNext _ _ = 0
    rw [cpbufRptrNext, hr]
    split <;> rfl
  · change cpbufWptrNext _ _ = _
    rw [cpbufWptrNext, if_pos hfullS, hw]
  · exact cpbufBufferNext_rename (i := 0) (fun h => absurd h (by simp [hpush])) (by decide)
      rfl rfl fun j _ hne hwe => absurd (of_decide_eq_true hwe) hne

/-- A predicted jump fetched while the ring is full clears the map of its head. -/
theorem push_full_overwrites {s : FetchCpbufState} (hfetch : s.fetch = fetchReset)
    (hr : s.cpbuf.rptr = 0) (hw : s.cpbuf.wptr = checkpointBufferSize)
    (hbefore : (s.cpbuf.buffer 0).ratPhyMapTableVisible 1 = true) :
    CpbufLive s.cpbuf 0 ∧
      ((fetchCpbufNext s jumpToSelf).cpbuf.buffer 0).ratPhyMapTableVisible 1 = false ∧
      ¬PushKeepsLive s jumpToSelf := by
  have hlive : CpbufLive s.cpbuf 0 := by
    rw [CpbufLive, hr, hw]
    exact ⟨0, by decide +kernel, by decide +kernel⟩
  have hid : cpbufFetchNewId s.cpbuf = 0 := by
    rw [cpbufFetchNewId, hw]
    decide +kernel
  have hrename : ¬RenameWrites (wiredCpbufInput s jumpToSelf) 0 := by
    rintro ⟨j, _, hwe, _⟩
    exact Bool.false_ne_true hwe
  have hafter : (cpbufBufferNext s.cpbuf (wiredCpbufInput s jumpToSelf)
      0).ratPhyMapTableVisible 1 = false := by
    have hwritten := cpbufBufferNext_push (jumpToSelf_pushes s hfetch) (hid ▸ hrename)
    rw [hid] at hwritten
    rw [hwritten]
    rfl
  refine ⟨hlive, ?_, ?_⟩
  · rw [fetchCpbufNext_buffer, hafter]
  · intro hkeeps
    have hquiet : cpbufBufferNext s.cpbuf (withoutPush (wiredCpbufInput s jumpToSelf)) 0 =
        s.cpbuf.buffer 0 :=
      cpbufBufferNext_quiet (fun h => absurd h Bool.false_ne_true) hrename
    rw [hkeeps 0 hlive, hquiet, hbefore] at hafter
    exact Bool.false_ne_true hafter.symm

/-- The next predicted branch overwrites the live entry of the oldest one. -/
theorem fullRing_push_overwrites :
    Along fetchCpbufNext PopAllowed (fetchCpbufReset fun _ => Checkpoint.zero)
        (List.replicate checkpointBufferSize jumpToSelf ++ [renameEntryZero]) ∧
      PopAllowed fullRing jumpToSelf ∧
      (fullRing.cpbuf.buffer 0).ratPhyMapTableVisible 1 = true ∧
      CpbufLive fullRing.cpbuf 0 ∧
      ((fetchCpbufNext fullRing jumpToSelf).cpbuf.buffer 0).ratPhyMapTableVisible 1 = false ∧
      ¬PushKeepsLive fullRing jumpToSelf := by
  obtain ⟨hfetch, hr, hw, hbuffer⟩ := fullRing_spec
  have hbefore : (fullRing.cpbuf.buffer 0).ratPhyMapTableVisible 1 = true := by
    rw [hbuffer]
    rfl
  refine ⟨?_, jumpToSelf_popAllowed _, hbefore, push_full_overwrites hfetch hr hw hbefore⟩
  rw [along_append]
  refine ⟨?_, renameEntryZero_popAllowed _, trivial⟩
  exact along_of_forall fun s input hmem => by
    rw [List.eq_of_mem_replicate hmem]
    exact jumpToSelf_popAllowed s

end DreamCore.Proofs
