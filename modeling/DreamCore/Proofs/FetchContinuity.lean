import DreamCore.Model.FetchStream
import DreamCore.Proofs.CheckpointContents

/-!
# The pushed instructions form one stream

Fetch pushes the enabled slots of a bundle, which are its first ones and end at a
jump.  Its pc and its wait flag are at any time what the stream so far says.
-/

namespace DreamCore.Proofs

open DreamCore.Clocked DreamCore.Model DreamCore.Rtl

/-! ## The bundle -/

section Bundle

variable {s : FetchState} {input : FetchInput}

theorem fetchEnable_closed {space : Nat}
    (hspace : ∀ i, i < fetchWidth → input.fetchDecodeFifoDataInEnable i = expandOne space i)
    {i : Nat} (hi : i + 1 < fetchWidth) (h : fetchEnable s input (i + 1) = true) :
    fetchEnable s input i = true ∧ fetchJump s input i = false := by
  simp only [fetchEnable, pushForbiddenFenceI, pushForbiddenJump, hspace (i + 1) hi,
    hspace i (by omega), expandOne, Bool.and_eq_true, Bool.not_eq_true', Bool.or_eq_false_iff,
    decide_eq_true_eq] at h ⊢
  obtain ⟨⟨⟨hlt, hfence, _⟩, hjump, hbefore⟩, hack⟩ := h
  exact ⟨⟨⟨⟨by omega, hfence⟩, hbefore⟩, hack⟩, hjump⟩

/-- The enabled slots are the first ones, and only the last of them is a jump. -/
theorem fetchEnable_block {space : Nat}
    (hspace : ∀ i, i < fetchWidth → input.fetchDecodeFifoDataInEnable i = expandOne space i) :
    ∃ n, n ≤ fetchWidth ∧ (∀ i, i < fetchWidth → fetchEnable s input i = decide (i < n)) ∧
      ∀ i, i + 1 < n → fetchJump s input i = false := by
  have hclosed : ∀ i, i + 1 < fetchWidth → fetchEnable s input (i + 1) = true →
      fetchEnable s input i = true := fun i hi h => (fetchEnable_closed hspace hi h).1
  have hblock := countOne_block_of_closed hclosed
  have hle := countOne_le fetchWidth (fetchEnable s input)
  refine ⟨_, hle, hblock, fun i hi => ?_⟩
  have hnext := hblock (i + 1) (by omega)
  rw [decide_eq_true hi] at hnext
  exact (fetchEnable_closed hspace (by omega) hnext).2

/-- What enters the FIFO are the enabled slots. -/
theorem fetchPushed_eq {n : Nat} (hn : n ≤ fetchWidth)
    (hblock : ∀ i, i < fetchWidth → fetchEnable s input i = decide (i < n))
    (hpush : fetchDecodeFifoPush s input = true) :
    fetchPushed s input = (List.range n).map (fetchDecodePack s input) := by
  have hbits : ∀ i, i < fifoPortNum →
      (fetchEnable s input i && input.fetchDecodeFifoDataInEnable i) = decide (i < n) := by
    intro i hi
    rw [hblock i hi]
    cases hin : decide (i < n) with
    | false => rfl
    | true =>
        have henable := (hblock i hi).trans hin
        simp only [fetchEnable, Bool.and_eq_true] at henable
        exact henable.1.1.1
  have hcount : fifoPortCount input.fetchDecodeFifoDataInEnable (fetchEnable s input) = n := by
    rw [fifoPortCount, countOneContinuous, continuousSum_block hbits (by decide)]
    simp only [fifoPortNum, fetchWidth] at *
    omega
  rw [fetchPushed, fifoWritten, hpush, if_pos rfl, hcount]

theorem fetchPushed_none (hpush : fetchDecodeFifoPush s input = false) :
    fetchPushed s input = [] := by
  rw [fetchPushed, fifoWritten, hpush, if_neg Bool.false_ne_true]

theorem fetchCurPc_succ (s : FetchState) (i : Nat) :
    (fetchCurPc s i + 4) % 2 ^ 32 = fetchCurPc s (i + 1) := by
  simp only [fetchCurPc, Nat.shiftLeft_eq]
  omega

/-! ### The next pc -/

theorem noSlot_next
    (hblock : ∀ i, i < fetchWidth → fetchEnable s input i = decide (i < 0)) :
    jumpIndexValid s input = false ∧ enableIndexValid s input = false := by
  constructor
  · refine anyBit_eq_false_iff.2 fun i hi => ?_
    rw [jumpIndexCmp, hblock i hi, decide_eq_false (Nat.not_lt_zero i), Bool.and_false]
  · refine anyBit_eq_false_iff.2 fun i hi => ?_
    rw [enableIndexCmp, hblock i hi, decide_eq_false (Nat.not_lt_zero i), Bool.and_false]

/-- The finders return the last slot that is pushed. -/
theorem lastSlot_next {k : Nat} (hk : k < fetchWidth) (hack : input.busFetchReadAck = true)
    (hblock : ∀ i, i < fetchWidth → fetchEnable s input i = decide (i < k + 1))
    (hjump : ∀ i, i < k → fetchJump s input i = false) :
    jumpIndexValid s input = fetchJump s input k ∧
      (fetchJump s input k = true → jumpIndex s input = k) ∧
      enableIndexValid s input = true ∧ enableIndex s input = k := by
  have hcmp : ∀ i, i < fetchWidth →
      (jumpIndexCmp s input i = true ↔ i = k ∧ fetchJump s input k = true) := by
    intro i hi
    rw [jumpIndexCmp, hack, Bool.true_and, hblock i hi, Bool.and_eq_true, decide_eq_true_iff]
    constructor
    · rintro ⟨hji, hik⟩
      have heq : i = k := by
        by_contra hne
        exact Bool.false_ne_true ((hjump i (by omega)).symm.trans hji)
      exact ⟨heq, heq ▸ hji⟩
    · rintro ⟨rfl, hji⟩
      exact ⟨hji, Nat.lt_succ_self i⟩
  have henable : ∀ i, i < fetchWidth → (enableIndexCmp s input i = true ↔ i < k + 1) := by
    intro i hi
    rw [enableIndexCmp, hack, Bool.true_and, hblock i hi, decide_eq_true_iff]
  refine ⟨?_, fun hji => ?_, ?_, ?_⟩
  · rw [Bool.eq_iff_iff, jumpIndexValid, anyBit_iff]
    constructor
    · rintro ⟨i, hi, hbit⟩
      exact ((hcmp i hi).1 hbit).2
    · exact fun hji => ⟨k, hk, (hcmp k hk).2 ⟨rfl, hji⟩⟩
  · refine priorityFinderFirst_eq hk ((hcmp k hk).2 ⟨rfl, hji⟩) fun j hj => ?_
    rw [Bool.eq_false_iff]
    intro hbit
    have := ((hcmp j (by omega)).1 hbit).1
    omega
  · exact anyBit_iff.2 ⟨k, hk, (henable k hk).2 (Nat.lt_succ_self k)⟩
  · refine lastIndexTemp_eq (by omega) ((henable k hk).2 (Nat.lt_succ_self k)) fun j hj hle => ?_
    rw [Bool.eq_false_iff]
    intro hbit
    have := (henable j (by omega)).1 hbit
    omega

end Bundle

/-! ## One cycle -/

/-- What the pc and the wait flag stand for. -/
def expectedPc (s : FetchState) : Expected :=
  if s.jumpWait then .waiting s.pc else .next s.pc

section Cycle

variable {s : FetchState} {input : FetchInput}

theorem push_append (e : Expected) (ps qs : List FetchDecodePack) :
    e.push (ps ++ qs) = (e.push ps).bind (·.push qs) := by
  induction ps generalizing e with
  | nil => cases qs <;> rfl
  | cons p ps ih =>
      cases e with
      | waiting fallThrough => rfl
      | next pc =>
          rw [List.cons_append, Expected.push, Expected.push]
          split
          · exact ih _
          · rfl

theorem after_eq (s : FetchState) {input : FetchInput} (hack : input.busFetchReadAck = true)
    (k : Nat) : Expected.after (fetchDecodePack s input k) =
      if fetchJump s input k then
        if fetchPredicted s input k then .next (fetchDecodePack s input k).predictedNextPc
        else .waiting (fetchCurPc s (k + 1))
      else .next (fetchCurPc s (k + 1)) := by
  rw [fetchJump, hack, Bool.and_true, ← fetchCurPc_succ]
  rfl

/-- Slots without a jump continue one another. -/
theorem push_slots (hack : input.busFetchReadAck = true) {k : Nat}
    (hjump : ∀ i, i < k → fetchJump s input i = false) :
    ∃ pc, (Expected.next s.pc).push ((List.range k).map (fetchDecodePack s input)) =
      some (.next pc) ∧ pc % 2 ^ 32 = fetchCurPc s k := by
  induction k with
  | zero => exact ⟨s.pc, rfl, by simp [fetchCurPc]⟩
  | succ k ih =>
      obtain ⟨pc, hpush, hpc⟩ := ih fun i hi => hjump i (by omega)
      have hslot : (fetchDecodePack s input k).pc = pc % 2 ^ 32 := hpc.symm
      refine ⟨fetchCurPc s (k + 1), ?_, Nat.mod_eq_of_lt (Nat.mod_lt _ (by decide))⟩
      rw [List.range_succ, List.map_append, push_append, hpush, Option.bind_some,
        List.map_singleton, Expected.push, if_pos hslot, after_eq s hack,
        hjump k (Nat.lt_succ_self k)]
      rfl

theorem push_bundle (hack : input.busFetchReadAck = true) {k : Nat}
    (hjump : ∀ i, i < k → fetchJump s input i = false) :
    (Expected.next s.pc).push ((List.range (k + 1)).map (fetchDecodePack s input)) =
      some (Expected.after (fetchDecodePack s input k)) := by
  obtain ⟨pc, hpush, hpc⟩ := push_slots hack hjump
  have hslot : (fetchDecodePack s input k).pc = pc % 2 ^ 32 := hpc.symm
  rw [List.range_succ, List.map_append, push_append, hpush, Option.bind_some,
    List.map_singleton, Expected.push, if_pos hslot]
  rfl

/-- A bundle is accepted: pc and wait flag follow its last slot. -/
theorem expectedPc_bundle {space : Nat}
    (hspace : ∀ i, i < fetchWidth → input.fetchDecodeFifoDataInEnable i = expandOne space i)
    (hwait : s.jumpWait = false) (hack : input.busFetchReadAck = true)
    (hflush : fetchDecodeFifoFlush input = false) :
    (Expected.next s.pc).push (fetchPushed s input) = some (expectedPc (fetchNext s input)) := by
  have hpush : fetchDecodeFifoPush s input = true := by
    rw [fetchDecodeFifoPush, hack, hwait, hflush]
    rfl
  have hnoflush : (input.commitFeedbackPack.enable && input.commitFeedbackPack.flush) = false :=
    hflush
  obtain ⟨n, hn, hblock, hjump⟩ := fetchEnable_block (s := s) hspace
  rw [fetchPushed_eq hn hblock hpush]
  cases n with
  | zero =>
      obtain ⟨hnoJump, hnone⟩ := noSlot_next hblock
      simp [expectedPc, fetchNext, jumpWaitNext, pcNext, hnoflush, hwait, hack, hnoJump, hnone,
        Expected.push]
  | succ k =>
      have hbefore : ∀ i, i < k → fetchJump s input i = false := fun i hi => hjump i (by omega)
      obtain ⟨hvalid, hindex, henable, hlast⟩ := lastSlot_next (by omega) hack hblock hbefore
      rw [push_bundle hack hbefore, after_eq s hack]
      have hpredicted : fetchPredicted s input k = (decide (jumpIndex s input = k) &&
          jumpIndexValid s input && input.bpFetchValid && input.cpbufFetchNewIdValid) := rfl
      cases hj : fetchJump s input k with
      | false =>
          rw [hj] at hvalid
          simp [expectedPc, fetchNext, jumpWaitNext, pcNext, hnoflush, hwait, hack, hvalid,
            henable, hlast, ← fetchCurPc_succ]
      | true =>
          have hk := hindex hj
          rw [hj] at hvalid
          rw [hpredicted, hk, hvalid]
          cases hbp : input.bpFetchValid <;> cases hcp : input.cpbufFetchNewIdValid <;>
            cases hbj : input.bpFetchJump <;>
            simp [expectedPc, fetchNext, jumpWaitNext, pcNext, hnoflush, hwait, hack, hvalid, hk,
              hbp, hcp, hbj, ← fetchCurPc_succ, fetchDecodePack]

theorem feedback_flush {fb : CommitFeedbackPack} (h : (fb.enable && fb.flush) = true)
    (e : Expected) : e.feedback fb =
      if fb.hasException then .next fb.exceptionPc
      else if fb.jumpEnable then .next fb.nextPc
      else .next e.position := by
  cases e <;> simp [Expected.feedback, h]

theorem feedback_next {fb : CommitFeedbackPack} (h : (fb.enable && fb.flush) = false) (pc : Nat) :
    (Expected.next pc).feedback fb = .next pc := by
  simp [Expected.feedback, h]

theorem feedback_waiting {fb : CommitFeedbackPack} (h : (fb.enable && fb.flush) = false)
    (pc : Nat) : (Expected.waiting pc).feedback fb =
      if fb.jumpEnable then .next (if fb.jump then fb.nextPc else pc) else .waiting pc := by
  simp [Expected.feedback, h]

/-- One cycle continues the stream. -/
theorem expectedPc_next {space : Nat}
    (hspace : ∀ i, i < fetchWidth → input.fetchDecodeFifoDataInEnable i = expandOne space i) :
    ((expectedPc s).feedback input.commitFeedbackPack).push (fetchPushed s input) =
      some (expectedPc (fetchNext s input)) := by
  cases hflush : fetchDecodeFifoFlush input with
  | true =>
      have hpush : fetchDecodeFifoPush s input = false := by
        rw [fetchDecodeFifoPush, hflush, Bool.not_true, Bool.and_false]
      have hcond : (input.commitFeedbackPack.enable && input.commitFeedbackPack.flush) = true :=
        hflush
      have hposition : (expectedPc s).position = s.pc := by
        rw [expectedPc]
        split <;> rfl
      rw [fetchPushed_none hpush, feedback_flush hcond, hposition]
      simp only [expectedPc, fetchNext, jumpWaitNext, pcNext, hcond, if_true, Bool.false_eq_true,
        if_false]
      cases input.commitFeedbackPack.hasException <;>
        cases input.commitFeedbackPack.jumpEnable <;> rfl
  | false =>
      have hcond : (input.commitFeedbackPack.enable && input.commitFeedbackPack.flush) = false :=
        hflush
      cases hwait : s.jumpWait with
      | true =>
          have hpush : fetchDecodeFifoPush s input = false := by
            rw [fetchDecodeFifoPush, hwait, Bool.not_true, Bool.and_false, Bool.false_and]
          rw [fetchPushed_none hpush, expectedPc, hwait, if_pos rfl, feedback_waiting hcond]
          simp only [expectedPc, fetchNext, jumpWaitNext, pcNext, hcond, hwait, if_true,
            Bool.false_eq_true, if_false]
          cases input.commitFeedbackPack.jumpEnable <;>
            cases input.commitFeedbackPack.jump <;> rfl
      | false =>
          rw [expectedPc, hwait, if_neg Bool.false_ne_true, feedback_next hcond]
          cases hack : input.busFetchReadAck with
          | true => exact expectedPc_bundle hspace hwait hack hflush
          | false =>
              have hpush : fetchDecodeFifoPush s input = false := by
                rw [fetchDecodeFifoPush, hack, Bool.false_and, Bool.false_and]
              have hnoJump : jumpIndexValid s input = false :=
                anyBit_eq_false_iff.2 fun i _ => by
                  rw [jumpIndexCmp, hack, Bool.false_and, Bool.false_and]
              have hnone : enableIndexValid s input = false :=
                anyBit_eq_false_iff.2 fun i _ => by rw [enableIndexCmp, hack, Bool.false_and]
              rw [fetchPushed_none hpush]
              simp [expectedPc, fetchNext, jumpWaitNext, pcNext, hcond, hwait, hack, hnoJump,
                hnone, Expected.push]

end Cycle

/-! ## Runs -/

/-- What was requested is at the pc. -/
def RequestAtPc (s : FetchPathState) : Prop :=
  ∀ addr words, s.request = some (addr, words) → addr = s.fetch.pc

theorem requestAtPc_next (s : FetchPathState) (input : FetchPathInput) :
    RequestAtPc (fetchPathNext s input) := by
  intro addr words hrequest
  simp only [fetchPathNext] at hrequest
  split at hrequest
  · cases hrequest
    rfl
  · cases hrequest

theorem follow_append (e : Expected) (first second : List (CommitFeedbackPack ×
    List FetchDecodePack)) : follow e (first ++ second) =
      (follow e first).bind fun e => follow e second := by
  induction first generalizing e with
  | nil => rfl
  | cons cycle first ih =>
      obtain ⟨fb, pushed⟩ := cycle
      rw [List.cons_append, follow, follow, Option.bind_assoc]
      exact congrArg _ (funext fun e => ih e)

theorem follow_run {s : FetchPathState} {inputs : List FetchPathInput}
    (h : Along fetchPathNext FetchAnswered s inputs) :
    follow (expectedPc s.fetch) (outputs fetchPathNext fetchTrace s inputs) =
      some (expectedPc (run fetchPathNext s inputs).fetch) := by
  induction inputs generalizing s with
  | nil => rfl
  | cons input inputs ih =>
      obtain ⟨space, hspace⟩ := h.1.space
      rw [outputs, follow_append, fetchTrace, follow, expectedPc_next hspace, Option.bind_some]
      exact ih h.2

theorem fetchedAt_pushed {s : FetchPathState} {input : FetchPathInput} (hinv : RequestAtPc s)
    (h : FetchAnswered s input) :
    ∀ p ∈ fetchPushed s.fetch input.toFetchInput, FetchedAt s.request p := by
  intro p hp
  rw [fetchPushed, fifoWritten] at hp
  split at hp
  · rename_i hpush
    obtain ⟨i, hi, rfl⟩ := List.mem_map.1 hp
    have hack : input.toFetchInput.busFetchReadAck = true := by
      simp only [fetchDecodeFifoPush, Bool.and_eq_true] at hpush
      exact hpush.1.1
    obtain ⟨space, hspace⟩ := h.space
    obtain ⟨addr, hrequest⟩ := h.answer hack
    obtain ⟨n, hn, hblock, _⟩ := fetchEnable_block (s := s.fetch) hspace
    have hpushed := fetchPushed_eq hn hblock hpush
    rw [fetchPushed, fifoWritten, if_pos hpush] at hpushed
    have hin : i < fetchWidth := by
      have hlen := congrArg List.length hpushed
      rw [List.length_map, List.length_map, List.length_range, List.length_range] at hlen
      have := List.mem_range.1 hi
      omega
    refine ⟨addr, _, i, hrequest, hin, ?_, rfl, rfl⟩
    rw [hinv _ _ hrequest]
    simp only [fetchDecodePack, fetchCurPc, Nat.shiftLeft_eq]
    congr 2
    omega
  · exact absurd hp List.not_mem_nil

/-- Whatever the FIFO, the bus, the predictor, the checkpoint buffer, the idle flags and
commit do: what fetch pushes follows the stream without a gap, and every instruction
carries the word at its own address. -/
theorem fetch_stream_continuous (inputs : List FetchPathInput)
    (h : Along fetchPathNext FetchAnswered fetchPathReset inputs) :
    (∃ e, follow (.next initPc) (outputs fetchPathNext fetchTrace fetchPathReset inputs) =
        some e) ∧
      Along fetchPathNext (fun s input => ∀ p ∈ fetchPushed s.fetch input.toFetchInput,
        FetchedAt s.request p) fetchPathReset inputs := by
  have hreset : RequestAtPc fetchPathReset := fun addr words hrequest => by cases hrequest
  refine ⟨⟨_, follow_run h⟩, ?_⟩
  exact (Along.strengthen (fun s input _ _ => requestAtPc_next s input) hreset h).mono
    fun s input hboth => fetchedAt_pushed hboth.1 hboth.2

/-! ## An unpredicted jump -/

/-- `addi x6, x0, 1` and `jal x1, 8`. -/
def addThenJal : Nat := 0x008000ef00100313

/-- The bus answers, the predictor knows nothing, commit reports nothing. -/
def plainFetch : FetchInput :=
  { jumpToSelf.fetch with busFetchData := addThenJal, bpFetchValid := false }

/-- The request, its answer, the report of the jump, the answer at its target. -/
def addJalTarget : List FetchPathInput :=
  [⟨{ plainFetch with busFetchReadAck := false }, fun _ => addThenJal⟩,
    ⟨plainFetch, fun _ => addThenJal⟩,
    ⟨{ plainFetch with
        busFetchReadAck := false
        commitFeedbackPack :=
          { quietCommitFeedback with jumpEnable := true, jump := true, nextPc := 0x8000000c } },
      fun _ => addThenJal⟩,
    ⟨plainFetch, fun _ => addThenJal⟩]

theorem fetch_stream_continuous_jal :
    outputs fetchPathNext (fun s input => (fetchPushed s.fetch input.toFetchInput).map (·.pc))
        fetchPathReset addJalTarget = [0x80000000, 0x80000004, 0x8000000c, 0x80000010] ∧
      ∃ e, follow (.next initPc) (outputs fetchPathNext fetchTrace fetchPathReset addJalTarget) =
        some e := by
  have hspace : ∀ i, i < fetchWidth → plainFetch.fetchDecodeFifoDataInEnable i = expandOne 4 i :=
    by decide
  refine ⟨by decide +kernel, (fetch_stream_continuous addJalTarget
    ⟨⟨⟨4, hspace⟩, ?_⟩, ⟨⟨4, hspace⟩, ?_⟩, ⟨⟨4, hspace⟩, ?_⟩, ⟨⟨4, hspace⟩, ?_⟩, trivial⟩).1⟩
  · exact fun hack => absurd hack Bool.false_ne_true
  · exact fun _ => ⟨0x80000000, by decide +kernel⟩
  · exact fun hack => absurd hack Bool.false_ne_true
  · exact fun _ => ⟨0x8000000c, by decide +kernel⟩

end DreamCore.Proofs
