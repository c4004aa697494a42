import DreamCore.Proofs.ProgramOrder

/-!
# The path of the program

What is in flight continues what has retired: every instruction is at the pc that fetch
expects behind its predecessor.  When a jump retires, the branch unit's answer is what fetch
has predicted, or what is behind it goes and fetch starts again at the answer.
-/

namespace DreamCore.Proofs

open DreamCore.Clocked DreamCore.Model DreamCore.Rtl

/-! ## The words of the branch unit -/

section Decode

variable {w : Nat} {f : DecodeFields}

theorem isJumpWord_iff : isJumpWord w = true ↔
    wordOpcode w = 0x6f ∨ wordOpcode w = 0x67 ∨ wordOpcode w = 0x63 ∨ w = 0x30200073 := by
  have hopcode : w &&& 0x7f = wordOpcode w := Nat.and_two_pow_sub_one_eq_mod w 7
  simp only [isJumpWord, hopcode, Bool.or_eq_true, decide_eq_true_eq, or_assoc]

theorem decodeOp_notBru : (decodeOp w f).opUnit ≠ .bru := by
  unfold decodeOp
  dsimp only
  split_ifs <;>
  · refine decodeByFunct7_cases (P := fun g => g.opUnit ≠ .bru) ?_ ?_ ?_ ?_ <;>
    simp [DecodeFields.withOp, DecodeFields.withUnit, DecodeFields.invalid]

theorem decodeMiscMem_unit (hf : f.opUnit = .alu) : (decodeMiscMem w f).opUnit = .alu := by
  unfold decodeMiscMem
  split_ifs <;> first | rfl | exact hf

/-- The fields of `mret` are those of one word. -/
theorem decodeSystem_bru (hw : w < 2 ^ 32) (hopcode : wordOpcode w = 0x73)
    (hf : f.opUnit = .alu) : (decodeSystem w f).opUnit = .bru ↔ w = 0x30200073 := by
  constructor
  · intro h
    unfold decodeSystem decodeCsrReg decodeCsrImm at h
    split_ifs at h with hfunct3 hregs _ _ _ hfunct7 hrs2
    all_goals first
      | simp [DecodeFields.withUnit, DecodeFields.invalid, hf] at h
        done
      | simp only [wordOpcode, wordRd, wordFunct3, wordRs1, wordRs2, wordFunct7, bits,
          Nat.shiftRight_eq_div_pow] at hopcode hfunct3 hregs hfunct7 hrs2
        omega
  · rintro rfl
    rfl

/-- Only jumps and `mret` go to the branch unit. -/
theorem decodeByOpcode_bru (hw : w < 2 ^ 32) (hf : f.opUnit = .alu) :
    (decodeByOpcode w f).opUnit = .bru ↔ isJumpWord w = true := by
  rw [isJumpWord_iff]
  by_cases hsystem : wordOpcode w = 0x73
  · have hfields : decodeByOpcode w f = decodeSystem w f := by simp [decodeByOpcode, hsystem]
    rw [hfields, decodeSystem_bru hw hsystem hf, hsystem]
    simp only [Nat.reduceEqDiff, false_or]
  · have hmret : w ≠ 0x30200073 := fun h => hsystem (by rw [h]; decide)
    simp only [hmret, or_false]
    by_cases hjal : wordOpcode w = 0x6f
    · simp [decodeByOpcode, hjal, decodeJal, DecodeFields.withUnit]
    by_cases hjalr : wordOpcode w = 0x67
    · simp [decodeByOpcode, hjalr, decodeJalr, DecodeFields.withUnit]
    by_cases hbranch : wordOpcode w = 0x63
    · simp [decodeByOpcode, hbranch, decodeBranch_unit]
    simp only [decodeByOpcode, hjal, hjalr, hbranch, hsystem, if_false, or_self, iff_false]
    split_ifs
    · simp [decodeLui, DecodeFields.withUnit]
    · simp [decodeAuipc, DecodeFields.withUnit]
    · simp [decodeLoad_unit]
    · simp [decodeStore_unit]
    · simp [decodeOpImm_unit]
    · exact decodeOp_notBru
    · simp [decodeMiscMem_unit hf]
    · simp [DecodeFields.invalid, hf]

theorem decode_bru {p : FetchDecodePack} (hp : p.value < 2 ^ 32) :
    (decode p).opUnit = .bru ↔ isJumpWord p.value = true :=
  decodeByOpcode_bru hp rfl

end Decode

/-! ## The branch unit's answers -/

/-- What the branch unit has found for `op`. -/
structure BruAnswered (op : DecodeRenamePack) (predictedNextPc : Nat) (jump : Bool)
    (nextPc : Nat) : Prop where
  predicted : predictedNextPc = op.predictedNextPc
  executed : ∃ mepc, ∃ pack : IssueExecutePack, pack.toDecodeRenamePack = op ∧
    jump = bruJump pack ∧ nextPc = bruNextPc mepc pack

theorem BruAnswered.goesOn {op : DecodeRenamePack} {predictedNextPc nextPc : Nat} {jump : Bool}
    (h : BruAnswered op predictedNextPc jump nextPc) (hunit : op.opUnit = .bru) :
    goesOnAt op (if jump then nextPc else (op.pc + 4) % 2 ^ 32) = true := by
  obtain ⟨mepc, pack, rfl, rfl, rfl⟩ := h.executed
  rw [goesOnAt, if_pos hunit, bruNextPc]
  by_cases hjalr : pack.subOp = BruOp.jalr
  · have hjump : bruJump pack = true := by simp [bruJump, hjalr]
    simp [hjump, hjalr]
  by_cases hmret : pack.subOp = BruOp.mret
  · rw [if_neg hjalr, if_pos hmret]
  by_cases hjal : pack.subOp = BruOp.jal
  · have hjump : bruJump pack = true := by simp [bruJump, hjal]
    simp [hjump, hjal]
  rw [if_neg hjalr, if_neg hmret, if_neg hjal]
  cases bruJump pack <;> simp [hjalr, hmret]

/-- Fetch follows a jump that is not predicted taken to the word behind it. -/
structure PlainFetched (p : FetchDecodePack) : Prop where
  value : p.value < 2 ^ 32
  fallThrough : p.predicted = true → p.predictedJump = false →
    p.predictedNextPc = (p.pc + 4) % 2 ^ 32

/-- A branch that has finished holds its answer. -/
def AnswerEntry (e : Entry LsuInFlight) : Prop :=
  e.item.finish = true → e.tag.op.opUnit = .bru →
    BruAnswered e.tag.op e.item.predictedNextPc e.item.bruJump e.item.bruNextPc

/-- A pack in flight that answers for an operation of the branch unit. -/
def BringsAnswer (s : SpeculationState) (w : ExecuteWbPack) : Prop :=
  w.enable = true → ∀ k, ∀ hk : k < s.front.loadStore.rob.entries.length,
    w.robId = s.front.loadStore.rob.idAt k →
    s.front.loadStore.rob.entries[k].tag.op.opUnit = .bru →
    BruAnswered s.front.loadStore.rob.entries[k].tag.op w.predictedNextPc w.bruJump w.bruNextPc

/-- In the normal state. -/
structure Answering (s : SpeculationState) : Prop where
  entries : ∀ e ∈ s.front.loadStore.rob.entries, AnswerEntry e
  results : ∀ j, j < wbWidth → BringsAnswer s (s.front.loadStore.wbCommitPort j)
  port : BringsAnswer s s.bruWbPort

structure AnswerInv (s : SpeculationState) : Prop where
  pipeline : PipelineInv s
  fetched : ∀ p ∈ inFlight s.front, PlainFetched p
  waiting : ∀ op ∈ s.front.decodeRenameFifo, op = decode op.toFetchDecodePack
  decoded : ∀ e ∈ s.front.loadStore.rob.entries, e.tag.op = decode e.tag.op.toFetchDecodePack
  normal : s.front.loadStore.commit.curState = .normal → Answering s

variable {s : SpeculationState} {x : SpeculationInput}

section Keep

variable (h : AnswerInv s) (hallowed : SpeculationStep s x) (hothers : BranchesAnswered s x)
  (hflush : (speculationFeedback s x).flushing = false)
include h hallowed hflush

/-- An entry was there before, or is new and has not finished. -/
theorem answerEntry_next : ∀ e ∈ (speculationNext s x).front.loadStore.rob.entries,
    AnswerEntry e := by
  have hkeep := speculation_keeps h.pipeline hallowed hflush
  have ht := h.normal hkeep.state
  intro e he
  have hrob : (speculationNext s x).front.loadStore.rob.toIdealRob = _ := hkeep.rob_next
  rw [hrob, entries_next_list] at he
  rcases List.mem_append.1 he with hold | hnew
  · obtain ⟨k, hk, rfl⟩ := List.mem_mapIdx.1 (List.mem_of_mem_drop hold)
    have hentry := ht.entries _ (List.getElem_mem hk)
    rcases hkeep.item_cases hk with hsame | ⟨j, hj, henable, hid, _, hwritten⟩
    · intro hfinish hunit
      rw [update_op] at hunit ⊢
      rw [hsame] at hfinish ⊢
      exact hentry hfinish hunit
    · intro _ hunit
      rw [update_op] at hunit ⊢
      rw [hwritten]
      exact ht.results j hj henable k hk hid hunit
  · rw [hkeep.pushed_eq] at hnew
    obtain ⟨y, hy, rfl⟩ := List.mem_map.1 hnew
    have hy' : y ∈ frontEndRenamed s.front (speculationFront s x) := hy
    rw [frontEndRenamed] at hy'
    split at hy'
    · obtain ⟨i, _, rfl⟩ := List.mem_map.1 hy'
      exact fun hfinish => absurd hfinish Bool.false_ne_true
    · exact absurd hy' List.not_mem_nil

/-- An id that names an entry before and behind the cycle names the same operation. -/
theorem op_kept {id k i : Nat} (hk : k < s.front.loadStore.rob.entries.length)
    (hle : speculationRetired s x ≤ k) (hid : id = s.front.loadStore.rob.idAt k)
    (hi : i < (speculationNext s x).front.loadStore.rob.entries.length)
    (hid' : id = (speculationNext s x).front.loadStore.rob.idAt i) :
    (speculationNext s x).front.loadStore.rob.entries[i].tag.op =
      s.front.loadStore.rob.entries[k].tag.op := by
  have hkeep := speculation_keeps h.pipeline hallowed hflush
  have hnext : (speculationNext s x).front.loadStore.commit.curState = .normal :=
    hkeep.nextState
  have hwf := (pipelineInv_next h.pipeline hallowed).front.loadStore.rob.wf
  obtain ⟨j, hj, hkept, hget⟩ := entry_kept h.pipeline hallowed hflush hk hle
  have heq := entry_position hwf hj hi (hkept.trans (hid.symm.trans hid'))
  subst heq
  rw [hget, update_op]

theorem portAnswer_next : BringsAnswer (speculationNext s x) (speculationNext s x).bruWbPort := by
  intro henable k hk hid _
  obtain ⟨hvalid, hport⟩ := issued_of_port hflush henable
  obtain ⟨j, hj, hissued, hop, hunit, hfinish⟩ := (hallowed.issued hvalid hflush).inFlight
  rw [hport] at hid ⊢
  rw [op_kept h hallowed hflush hj (unfinished_kept h.pipeline hallowed hflush hj hfinish)
    hissued hk hid, ← hop]
  exact ⟨rfl, _, _, rfl, rfl, rfl⟩

include hothers in
theorem answers_next : ∀ j, j < wbWidth →
    BringsAnswer (speculationNext s x) ((speculationNext s x).front.loadStore.wbCommitPort j) := by
  have hkeep := speculation_keeps h.pipeline hallowed hflush
  have hport : (speculationNext s x).front.loadStore.wbCommitPort = _ := hkeep.wbCommitPort_next
  intro j hj henable k hk hid hunit
  rw [hport] at henable hid ⊢
  obtain ⟨i, hi, hid', hfinish, hresult⟩ :=
    executeWb_entry h.pipeline hallowed hflush hj henable
  rw [op_kept h hallowed hflush hi (unfinished_kept h.pipeline hallowed hflush hi hfinish)
    hid' hk hid] at hunit ⊢
  rw [executeWbPort] at henable hid' hresult ⊢
  split at henable
  · rename_i hlsu
    rw [if_pos hlsu] at hresult
    have hload := (h.pipeline.normal hkeep.state).lsuPort henable
    have hbru := hload.symm.trans (hresult.opUnit.trans hunit)
    cases hbru
  · rename_i hlsu
    rw [if_neg hlsu] at hid' ⊢
    rcases eq_or_ne j bruWbIndex with rfl | hbru
    · rw [executeWb_bru] at henable hid' ⊢
      exact (h.normal hkeep.state).port henable i hi hid' hunit
    · rw [executeWb_other hbru] at henable hid'
      exact absurd hunit (hothers j hj hlsu hbru henable i hi hid')

end Keep

/-- What fetch pushes is a word; unless its prediction jumps, the next pc is behind it. -/
theorem plainFetched_pushed {p : FetchDecodePack}
    (hp : p ∈ fetchPushed s.front.fetch (speculationFetchInput s x)) : PlainFetched p := by
  rw [fetchPushed, fifoWritten] at hp
  split at hp
  · obtain ⟨i, _, rfl⟩ := List.mem_map.1 hp
    refine ⟨?_, fun _ hjump => if_neg fun h => Bool.false_ne_true (hjump.symm.trans h)⟩
    show fetchOpcode _ _ i < 2 ^ 32
    rw [fetchOpcode]
    split
    · decide
    · exact Nat.mod_lt _ (by decide)
  · exact absurd hp List.not_mem_nil

/-- Nothing is left that could answer. -/
theorem answering_flushed (hflush : (speculationFeedback s x).flushing = true)
    (hempty : fullyFlushed s x = true) : Answering (speculationNext s x) := by
  have hentries : (speculationNext s x).front.loadStore.rob.entries = [] := by
    have hops := robOps_flushed hflush
    rw [hempty, if_pos rfl] at hops
    exact List.map_eq_nil_iff.1 hops
  have hnone : ∀ w, BringsAnswer (speculationNext s x) w := fun w _ k hk => by
    rw [hentries] at hk
    exact absurd hk (Nat.not_lt_zero k)
  refine ⟨?_, fun _ _ => hnone _, hnone _⟩
  rw [hentries]
  exact fun e he => absurd he List.not_mem_nil

section Inv

variable (h : AnswerInv s) (hallowed : SpeculationStep s x)
include h hallowed

theorem answering_next (hothers : BranchesAnswered s x)
    (hnext : (speculationNext s x).front.loadStore.commit.curState = .normal) :
    Answering (speculationNext s x) := by
  by_cases hstate : s.front.loadStore.commit.curState = .normal
  · cases hflush : (speculationFeedback s x).flushing with
    | true => exact answering_flushed hflush (flushing_cleared hstate hflush hnext)
    | false =>
        exact ⟨answerEntry_next h hallowed hflush, answers_next h hallowed hothers hflush,
          portAnswer_next h hallowed hflush⟩
  · obtain ⟨hflush, _, _, hback⟩ := walking_quiet (c := speculationCommitInput s x) hstate
    exact answering_flushed hflush (hback hnext)

theorem answerInv_next (hothers : BranchesAnswered s x) : AnswerInv (speculationNext s x) where
  pipeline := pipelineInv_next h.pipeline hallowed
  fetched := fun p hp => by
    rcases mem_inFlight_next h.pipeline hallowed hp with hold | hnew
    · exact h.fetched p hold
    · exact plainFetched_pushed hnew
  waiting := fun op hop => by
    rcases waiting_origin hop with hold | ⟨p, _, rfl⟩
    · exact h.waiting op hold
    · rfl
  decoded := fun e he => by
    rcases robOp_origin h.pipeline hallowed he with ⟨e', he', heq⟩ | hmem
    · rw [heq]
      exact h.decoded e' he'
    · exact h.waiting _ hmem
  normal := answering_next h hallowed hothers

end Inv

theorem answerInv_reset (mem : Nat → Nat → BitVec 8) (outData : Nat → BitVec 8)
    (robBuffer : Nat → RobItem) (buffer : Nat → StoreBufferItem) :
    AnswerInv (speculationReset mem outData robBuffer buffer) where
  pipeline := pipelineInv_reset mem outData robBuffer buffer
  fetched := fun _ hp => absurd hp List.not_mem_nil
  waiting := fun _ hop => absurd hop List.not_mem_nil
  decoded := fun _ he => absurd he List.not_mem_nil
  normal := fun _ =>
    { entries := fun _ he => absurd he List.not_mem_nil
      results := fun _ _ henable => absurd henable Bool.false_ne_true
      port := fun henable => absurd henable Bool.false_ne_true }

/-! ## What retires -/

section Bundle

variable {c : CommitInput} {m : CommitState} {i : Nat}

/-- At most one branch retires in a cycle. -/
theorem anyBit_retiringBranch (hi : i < commitWidth) (hvalid : commitRobRetireValid m c i = true)
    (hbru : (retireData c i).bruOp = true) (q : Nat → Bool) :
    anyBit commitWidth (fun j => commitRobRetireValid m c j && (retireData c j).bruOp && q j) =
      q i := by
  rw [Bool.eq_iff_iff, anyBit_iff]
  constructor
  · rintro ⟨j, _, hj⟩
    simp only [Bool.and_eq_true] at hj
    obtain ⟨⟨hvalidj, hbruj⟩, hq⟩ := hj
    rcases Nat.lt_trichotomy i j with hlt | rfl | hlt
    · exact absurd ((retireValid_before hlt hvalidj).2.2.symm.trans hbru) Bool.false_ne_true
    · exact hq
    · exact absurd ((retireValid_before hlt hvalid).2.2.symm.trans hbruj) Bool.false_ne_true
  · intro hq
    exact ⟨i, hi, by rw [hvalid, hbru, hq]; rfl⟩

end Bundle

/-- An entry that retires is at its instruction's pc and names one that its word allows. -/
structure Retires (e : Entry LsuInFlight) : Prop where
  pc : e.item.pc = e.tag.op.pc
  goesOn : goesOnAt (decode e.tag.op.toFetchDecodePack) (itemNextPc e.item) = true

/-- Fetch goes on at the pc it names. -/
structure Continues (e : Entry LsuInFlight) : Prop extends Retires e where
  after : Expected.after e.tag.op.toFetchDecodePack = .next (itemNextPc e.item)

abbrev retiredEvent (e : Entry LsuInFlight) : PathEvent :=
  .retired e.tag.op.toFetchDecodePack e.item

/-- The entries `rob.sv` shows are those of the list. -/
theorem retiredEvents_eq (x : SpeculationInput) (h : PipelineInv s) : retiredEvents s x =
    (s.front.loadStore.rob.entries.take (speculationRetired s x)).map retiredEvent := by
  refine List.ext_getElem (by rw [retiredEvents, List.length_mapIdx, List.length_map])
    fun i hi _ => ?_
  rw [retiredEvents, List.length_mapIdx, List.length_take] at hi
  simp only [retiredEvents, List.getElem_mapIdx, List.getElem_map, List.getElem_take]
  rw [retireData_eq (speculation_view x h.front.loadStore.rob) (by omega)]

theorem walkPath_append (pc : Nat) (a b : List PathEvent) :
    walkPath pc (a ++ b) = (walkPath pc a).bind (walkPath · b) := by
  induction a generalizing pc with
  | nil => rfl
  | cons event a ih =>
      cases event with
      | retired p item =>
          rw [List.cons_append, walkPath, walkPath]
          split
          · exact ih _
          · rfl
      | trapped handler => exact ih handler

/-- The walk over entries is the one fetch expects. -/
theorem push_continues {es : List (Entry LsuInFlight)} (h : ∀ e ∈ es, Continues e) (cur : Nat) :
    (Expected.next cur).push (es.map fun e => e.tag.op.toFetchDecodePack) =
      (walkPath cur (es.map retiredEvent)).map .next := by
  induction es generalizing cur with
  | nil => rfl
  | cons e es ih =>
      have he := h e List.mem_cons_self
      rw [List.map_cons, List.map_cons, Expected.push, walkPath, he.goesOn, Bool.and_true,
        ← he.pc, he.after]
      by_cases hpc : e.item.pc = cur % 2 ^ 32
      · rw [if_pos hpc, if_pos (decide_eq_true hpc)]
        exact ih (fun e he => h e (List.mem_cons_of_mem _ he)) _
      · rw [if_neg hpc, if_neg (by simpa using hpc)]
        rfl

/-- What commit finds out about a branch that retires. -/
structure BranchRetires (s : SpeculationState) (x : SpeculationInput) (k : Nat)
    (e : Entry LsuInFlight) : Prop where
  last : speculationRetired s x = k + 1
  miss : retireIsMiss s.front.loadStore.commit (speculationCommitInput s x) =
    (e.tag.op.predicted && !bruOpIsHit (speculationCommitInput s x) k)
  jumpEnable : (speculationFeedback s x).jumpEnable =
    !(e.tag.op.predicted && bruOpIsHit (speculationCommitInput s x) k)
  jump : (speculationFeedback s x).jump = e.item.bruJump
  nextPc : (speculationFeedback s x).nextPc = itemNextPc e.item

section Retired

variable (h : AnswerInv s) (hstate : s.front.loadStore.commit.curState = .normal) {k : Nat}
  (hpop : k < speculationRetired s x) (hk : k < s.front.loadStore.rob.entries.length)
include h

/-- Fetch knows the operations of the branch unit. -/
theorem jumpWord_iff : isJumpWord s.front.loadStore.rob.entries[k].tag.op.value = true ↔
    s.front.loadStore.rob.entries[k].tag.op.opUnit = .bru := by
  have hvalue := (h.fetched _ (mem_inFlight_rob hk)).value
  rw [← decode_bru hvalue, ← h.decoded _ (List.getElem_mem hk)]

include hstate hpop

theorem popped_item : s.front.loadStore.rob.entries[k].item.finish = true ∧
    s.front.loadStore.rob.entries[k].item.bruOp =
      decide (s.front.loadStore.rob.entries[k].tag.op.opUnit = .bru) := by
  have hrob := h.pipeline.front.loadStore.rob
  obtain ⟨_, _, hfinish, _, _⟩ := popped_spec (speculation_view x hrob) hpop
  exact ⟨hfinish, ((h.pipeline.normal hstate).entries _ (List.getElem_mem hk)).bruOp hfinish⟩

theorem popped_retires : Retires s.front.loadStore.rob.entries[k] := by
  obtain ⟨hfinish, hbru⟩ := popped_item h hstate hpop hk
  have hmem := List.getElem_mem hk
  have hpc := h.pipeline.front.pcs hstate _ hmem
  refine ⟨hpc, ?_⟩
  rw [← h.decoded _ hmem, itemNextPc, hbru, hpc]
  by_cases hunit : s.front.loadStore.rob.entries[k].tag.op.opUnit = .bru
  · rw [decide_eq_true hunit, Bool.true_and]
    exact ((h.normal hstate).entries _ hmem hfinish hunit).goesOn hunit
  · rw [decide_eq_false hunit, Bool.false_and, if_neg Bool.false_ne_true, goesOnAt,
      if_neg hunit]
    exact decide_eq_true rfl

theorem popped_continues
    (hunit : s.front.loadStore.rob.entries[k].tag.op.opUnit ≠ .bru) :
    Continues s.front.loadStore.rob.entries[k] := by
  have hretires := popped_retires h hstate hpop hk
  refine ⟨hretires, ?_⟩
  rw [Expected.after, if_neg fun hword => hunit ((jumpWord_iff h hk).1 hword),
    itemNextPc, (popped_item h hstate hpop hk).2, decide_eq_false hunit, Bool.false_and,
    if_neg Bool.false_ne_true, hretires.pc]

theorem popped_branch (hunit : s.front.loadStore.rob.entries[k].tag.op.opUnit = .bru) :
    BranchRetires s x k s.front.loadStore.rob.entries[k] := by
  have hrob := h.pipeline.front.loadStore.rob
  obtain ⟨hfinish, hbru⟩ := popped_item h hstate hpop hk
  rw [decide_eq_true hunit] at hbru
  obtain ⟨_, hvalid, _, hexc, hgate⟩ := popped_spec (speculation_view x hrob) hpop
  have hwidth : k < commitWidth := Nat.lt_of_lt_of_le hpop popCount_le_width
  have hdata := retireData_eq (speculation_view x hrob) hk
  have hbru' : (retireData (speculationCommitInput s x) k).bruOp = true := by rw [hdata, hbru]
  have hpredicted := (((h.pipeline.normal hstate).entries _ (List.getElem_mem hk)).finished
    hfinish hunit).1
  have hone := anyBit_retiringBranch hwidth hvalid hbru'
  have hhas : retireHasBruOp s.front.loadStore.commit (speculationCommitInput s x) = true :=
    anyBit_iff.2 ⟨k, hwidth, by rw [retireHasBruOpCmp, hvalid, hbru']; rfl⟩
  have hindex : retireHasBruOpIndex s.front.loadStore.commit (speculationCommitInput s x) = k :=
    priorityFinderFirst_eq hwidth (by rw [retireHasBruOpCmp, hvalid, hbru']; rfl) fun j hj => by
      rw [retireHasBruOpCmp, (retireValid_before hj hvalid).2.2, Bool.and_false]
  have hispredicted : retireIsPredicted s.front.loadStore.commit (speculationCommitInput s x) =
      s.front.loadStore.rob.entries[k].tag.op.predicted := by
    refine (hone fun j => (retireData (speculationCommitInput s x) j).predicted).trans ?_
    rw [hdata, hpredicted]
  have hismiss : retireIsMiss s.front.loadStore.commit (speculationCommitInput s x) =
      (s.front.loadStore.rob.entries[k].tag.op.predicted &&
        !bruOpIsHit (speculationCommitInput s x) k) := by
    have hcmp : retireIsMissCmp s.front.loadStore.commit (speculationCommitInput s x) =
        fun j => commitRobRetireValid s.front.loadStore.commit (speculationCommitInput s x) j &&
          (retireData (speculationCommitInput s x) j).bruOp &&
          ((retireData (speculationCommitInput s x) j).predicted &&
            !bruOpIsHit (speculationCommitInput s x) j) :=
      funext fun j => by rw [retireIsMissCmp, ← Bool.and_assoc]
    rw [retireIsMiss, hcmp, hone, hdata, hpredicted]
  have hfeedback : speculationFeedback s x =
      normalFeedbackPack s.front.loadStore.commit (speculationCommitInput s x) := by
    show commitFeedbackPack s.front.loadStore.commit (speculationCommitInput s x) = _
    rw [commitFeedbackPack, hstate]
  refine ⟨popCount_branch hwidth hgate hvalid hbru' (by rw [hdata, hexc]), hismiss, ?_, ?_, ?_⟩
    <;> rw [hfeedback]
  · show (retireHasBruOp _ _ && (retireIsMiss _ _ || !retireIsPredicted _ _)) = _
    rw [hhas, hismiss, hispredicted]
    cases s.front.loadStore.rob.entries[k].tag.op.predicted <;>
      cases bruOpIsHit (speculationCommitInput s x) k <;> rfl
  · show (retireData _ (retireHasBruOpIndex _ _)).bruJump = _
    rw [hindex, hdata]
  · show (if (retireData _ (retireHasBruOpIndex _ _)).bruJump then _ else _) = _
    rw [hindex, hdata, itemNextPc, hbru, Bool.true_and]

/-- A branch that was predicted right. -/
theorem popped_hit (hunit : s.front.loadStore.rob.entries[k].tag.op.opUnit = .bru)
    (hpredicted : s.front.loadStore.rob.entries[k].tag.op.predicted = true)
    (hhit : bruOpIsHit (speculationCommitInput s x) k = true) :
    Continues s.front.loadStore.rob.entries[k] := by
  have hrob := h.pipeline.front.loadStore.rob
  have hmem := List.getElem_mem hk
  have hretires := popped_retires h hstate hpop hk
  obtain ⟨hfinish, hbru⟩ := popped_item h hstate hpop hk
  have hjump := (((h.pipeline.normal hstate).entries _ hmem).finished hfinish hunit).2
  have htarget := ((h.normal hstate).entries _ hmem hfinish hunit).predicted
  refine ⟨hretires, ?_⟩
  rw [Expected.after, if_pos ((jumpWord_iff h hk).2 hunit), if_pos hpredicted, itemNextPc, hbru,
    decide_eq_true hunit, Bool.true_and]
  rw [bruOpIsHit, retireData_eq (speculation_view x hrob) hk, Bool.and_eq_true,
    decide_eq_true_eq, hjump, htarget] at hhit
  rw [hhit.1]
  cases htaken : s.front.loadStore.rob.entries[k].tag.op.predictedJump with
  | true =>
      rw [htaken, Bool.not_true, Bool.or_false, decide_eq_true_eq] at hhit
      rw [if_pos rfl, hhit.2]
  | false =>
      rw [if_neg Bool.false_ne_true, hretires.pc]
      exact congrArg _ ((h.fetched _ (mem_inFlight_rob hk)).fallThrough hpredicted htaken)

theorem popped_unpredicted (hunit : s.front.loadStore.rob.entries[k].tag.op.opUnit = .bru)
    (hpredicted : s.front.loadStore.rob.entries[k].tag.op.predicted = false) :
    Expected.after s.front.loadStore.rob.entries[k].tag.op.toFetchDecodePack =
        .waiting ((s.front.loadStore.rob.entries[k].item.pc + 4) % 2 ^ 32) := by
  rw [Expected.after, if_pos ((jumpWord_iff h hk).2 hunit), hpredicted,
    if_neg Bool.false_ne_true, (popped_retires h hstate hpop hk).pc]

end Retired

/-! ## One cycle of the walk -/

/-- In the normal state what is in flight leads from `cur` to the pc of fetch. -/
def PathAt (s : SpeculationState) (cur : Nat) : Prop :=
  s.front.loadStore.commit.curState = .normal →
    (Expected.next cur).push (inFlight s.front) = some (expectedPc s.front.fetch)

theorem feedback_quiet {fb : CommitFeedbackPack} (hflush : (fb.enable && fb.flush) = false)
    (hjump : fb.jumpEnable = false) (e : Expected) : e.feedback fb = e := by
  cases e with
  | next pc => exact feedback_next hflush pc
  | waiting pc => rw [feedback_waiting hflush, hjump, if_neg Bool.false_ne_true]

section Walk

variable {cur : Nat} {E : Expected}
  (hpath : (Expected.next cur).push (inFlight s.front) = some E)
include hpath

theorem path_continues (hn : speculationRetired s x ≤ s.front.loadStore.rob.entries.length)
    (hall : ∀ e ∈ s.front.loadStore.rob.entries.take (speculationRetired s x), Continues e) :
    ∃ cur', walkPath cur ((s.front.loadStore.rob.entries.take (speculationRetired s x)).map
        retiredEvent) = some cur' ∧
      (Expected.next cur').push ((inFlight s.front).drop (speculationRetired s x)) = some E := by
  have htake : (inFlight s.front).take (speculationRetired s x) =
      (s.front.loadStore.rob.entries.take (speculationRetired s x)).map
        fun e => e.tag.op.toFetchDecodePack := by
    rw [inFlight, List.append_assoc, List.take_append_of_le_length (by rwa [List.length_map]),
      List.map_take]
  rw [← List.take_append_drop (speculationRetired s x) (inFlight s.front), push_append, htake,
    push_continues hall] at hpath
  cases hwalk : walkPath cur ((s.front.loadStore.rob.entries.take
      (speculationRetired s x)).map retiredEvent) with
  | none =>
      rw [hwalk] at hpath
      cases hpath
  | some cur' =>
      rw [hwalk] at hpath
      exact ⟨cur', rfl, hpath⟩

/-- The last instruction that retires need not continue as fetch expects. -/
theorem path_branch {k : Nat} (hk : k < s.front.loadStore.rob.entries.length)
    (hn : speculationRetired s x = k + 1)
    (hbefore : ∀ e ∈ s.front.loadStore.rob.entries.take k, Continues e)
    (hlast : Retires s.front.loadStore.rob.entries[k]) :
    walkPath cur ((s.front.loadStore.rob.entries.take (speculationRetired s x)).map
        retiredEvent) = some (itemNextPc s.front.loadStore.rob.entries[k].item) ∧
      (Expected.after s.front.loadStore.rob.entries[k].tag.op.toFetchDecodePack).push
        ((inFlight s.front).drop (speculationRetired s x)) = some E := by
  have hsplit : s.front.loadStore.rob.entries.take (k + 1) =
      s.front.loadStore.rob.entries.take k ++ [s.front.loadStore.rob.entries[k]] :=
    List.take_succ_eq_append_getElem hk
  have htake : (inFlight s.front).take (k + 1) =
      (s.front.loadStore.rob.entries.take (k + 1)).map fun e => e.tag.op.toFetchDecodePack := by
    rw [inFlight, List.append_assoc, List.take_append_of_le_length (by rwa [List.length_map]),
      List.map_take]
  rw [← List.take_append_drop (k + 1) (inFlight s.front), htake, hsplit, List.map_append,
    List.append_assoc, push_append, push_continues hbefore] at hpath
  rw [hn, hsplit, List.map_append, walkPath_append]
  cases hwalk : walkPath cur ((s.front.loadStore.rob.entries.take k).map retiredEvent) with
  | none =>
      rw [hwalk] at hpath
      cases hpath
  | some c =>
      rw [hwalk, Option.map_some, Option.bind_some, List.map_singleton, List.singleton_append,
        Expected.push] at hpath
      split at hpath
      · rename_i hpc
        refine ⟨?_, hpath⟩
        rw [Option.bind_some, List.map_singleton, walkPath, hlast.goesOn, Bool.and_true,
          if_pos (decide_eq_true (hlast.pc.trans hpc))]
        rfl
      · cases hpath

end Walk

section Normal

variable (h : AnswerInv s) (hstate : s.front.loadStore.commit.curState = .normal)
include h hstate

/-- No branch retires, or one does and is the last. -/
theorem retires_cases :
    (∀ e ∈ s.front.loadStore.rob.entries.take (speculationRetired s x), Continues e) ∧
        (∀ k, ∀ hk : k < s.front.loadStore.rob.entries.length, k < speculationRetired s x →
          s.front.loadStore.rob.entries[k].tag.op.opUnit ≠ .bru) ∨
      ∃ k, ∃ hk : k < s.front.loadStore.rob.entries.length, speculationRetired s x = k + 1 ∧
        s.front.loadStore.rob.entries[k].tag.op.opUnit = .bru ∧
        ∀ e ∈ s.front.loadStore.rob.entries.take k, Continues e := by
  have hcontinues : ∀ m, m ≤ speculationRetired s x →
      (∀ k, ∀ hk : k < s.front.loadStore.rob.entries.length, k < m →
        s.front.loadStore.rob.entries[k].tag.op.opUnit ≠ .bru) →
      ∀ e ∈ s.front.loadStore.rob.entries.take m, Continues e := by
    intro m hm hnone e he
    obtain ⟨k, hk, rfl⟩ := List.mem_iff_getElem.1 he
    rw [List.length_take] at hk
    rw [List.getElem_take]
    exact popped_continues (x := x) h hstate (by omega) (by omega) (hnone k (by omega) (by omega))
  by_cases hbru : ∃ k, ∃ hk : k < s.front.loadStore.rob.entries.length,
      k < speculationRetired s x ∧ s.front.loadStore.rob.entries[k].tag.op.opUnit = .bru
  · right
    obtain ⟨k, hk, hpop, hunit⟩ := hbru
    have hlast := (popped_branch h hstate hpop hk hunit).last
    refine ⟨k, hk, hlast, hunit, hcontinues k (by omega) fun j hj hjk hother => ?_⟩
    have := (popped_branch (x := x) h hstate (by omega) hj hother).last
    omega
  · left
    have hnone : ∀ k, ∀ hk : k < s.front.loadStore.rob.entries.length,
        k < speculationRetired s x →
          s.front.loadStore.rob.entries[k].tag.op.opUnit ≠ .bru :=
      fun k hk hpop hunit => hbru ⟨k, hk, hpop, hunit⟩
    exact ⟨hcontinues _ (Nat.le_refl _) hnone, hnone⟩

/-- A slot that retires a branch without an exception is popped, unless an interrupt is
taken. -/
theorem branch_popped {i : Nat} (hi : i < commitWidth)
    (hnext : commitNextState s.front.loadStore.commit (speculationCommitInput s x) = .normal)
    (hvalid : commitRobRetireValid s.front.loadStore.commit (speculationCommitInput s x) i = true)
    (hbru : (retireData (speculationCommitInput s x) i).bruOp = true) :
    i < speculationRetired s x ∧ ∃ hk : i < s.front.loadStore.rob.entries.length,
      s.front.loadStore.rob.entries[i].tag.op.opUnit = .bru := by
  have hrob := h.pipeline.front.loadStore.rob
  obtain ⟨_, hint, hk, hfinish⟩ := retireValid_spec (speculation_view x hrob) hi hvalid
  have hexc : (retireData (speculationCommitInput s x) i).hasException = false := by
    by_contra hexc
    rw [Bool.not_eq_false] at hexc
    have hany : retireHasException s.front.loadStore.commit (speculationCommitInput s x) =
        true := anyBit_iff.2 ⟨i, hi, by rw [retireHasExceptionCmp, hvalid, hexc]; rfl⟩
    have hempty := (retireHasException_spec (speculation_view x hrob) hany).1
    simp [commitNextState, hstate, hint, hany, hempty] at hnext
  have hpop : commitRobRetirePop s.front.loadStore.commit (speculationCommitInput s x) i =
      true := by
    rw [commitRobRetirePop, retireGate, hvalid, hexc, hstate, hnext]
    rfl
  rw [retireData_eq (speculation_view x hrob) hk] at hbru
  have hentry := (h.pipeline.normal hstate).entries _ (List.getElem_mem hk)
  exact ⟨of_decide_eq_true ((retirePop_block i hi).symm.trans hpop), hk,
    of_decide_eq_true ((hentry.bruOp hfinish).symm.trans hbru)⟩

variable (hallowed : SpeculationStep s x)
include hallowed

/-- Without a flush fetch stays behind what retires. -/
theorem keep_path (hflush : (speculationFeedback s x).flushing = false) {cur : Nat}
    (hpath : PathAt s cur) : ∃ cur', walkPath cur (retiredEvents s x) = some cur' ∧
      (Expected.next cur').push ((inFlight s.front).drop (speculationRetired s x)) =
        some ((expectedPc s.front.fetch).feedback (speculationFeedback s x)) := by
  have hnext : commitNextState s.front.loadStore.commit (speculationCommitInput s x) = .normal :=
    (speculation_keeps h.pipeline hallowed hflush).nextState
  have hclear : commitRobFlush s.front.loadStore.commit (speculationCommitInput s x) = false :=
    (speculation_keeps h.pipeline hallowed hflush).noFlush
  rw [retiredEvents_eq x h.pipeline]
  rcases retires_cases (x := x) h hstate with ⟨hall, hnone⟩ | ⟨k, hk, hn, hunit, hbefore⟩
  · have hjump : (speculationFeedback s x).jumpEnable = false := by
      have hhas : retireHasBruOp s.front.loadStore.commit (speculationCommitInput s x) = false :=
        anyBit_eq_false_iff.2 fun i hi => by
          by_contra hcmp
          rw [Bool.not_eq_false, retireHasBruOpCmp, Bool.and_eq_true] at hcmp
          obtain ⟨hpop, hk, hunit⟩ := branch_popped h hstate hi hnext hcmp.1 hcmp.2
          exact hnone i hk hpop hunit
      show (commitFeedbackPack s.front.loadStore.commit (speculationCommitInput s x)).jumpEnable =
        false
      rw [commitFeedbackPack, hstate]
      show (retireHasBruOp _ _ && _) = false
      rw [hhas, Bool.false_and]
    rw [feedback_quiet hflush hjump]
    exact path_continues (hpath hstate) (retired_le x h.pipeline) hall
  · have hpop : k < speculationRetired s x := by omega
    have hretires := popped_branch h hstate hpop hk hunit
    have hjump := hretires.jumpEnable
    obtain ⟨hwalk, hrest⟩ :=
      path_branch (hpath hstate) hk hn hbefore (popped_retires h hstate hpop hk)
    refine ⟨_, hwalk, ?_⟩
    cases hpredicted : s.front.loadStore.rob.entries[k].tag.op.predicted with
    | true =>
        rw [hpredicted, Bool.true_and] at hjump
        cases hhit : bruOpIsHit (speculationCommitInput s x) k with
        | true =>
            rw [hhit] at hjump
            rw [feedback_quiet hflush hjump,
              ← (popped_hit h hstate hpop hk hunit hpredicted hhit).after]
            exact hrest
        | false =>
            have hmiss := hretires.miss
            rw [hpredicted, hhit] at hmiss
            rw [commitRobFlush, hmiss, hstate] at hclear
            exact absurd hclear.symm Bool.false_ne_true
    | false =>
        rw [popped_unpredicted h hstate hpop hk hunit hpredicted] at hrest
        cases hbehind : (inFlight s.front).drop (speculationRetired s x) with
        | nil =>
            rw [hbehind, Expected.push, Option.some.injEq] at hrest
            rw [hpredicted, Bool.false_and, Bool.not_false] at hjump
            rw [← hrest, feedback_waiting hflush, hjump, if_pos rfl, hretires.jump, hretires.nextPc,
              Expected.push, itemNextPc, (popped_item h hstate hpop hk).2, decide_eq_true hunit,
              Bool.true_and]
            cases s.front.loadStore.rob.entries[k].item.bruJump <;> rfl
        | cons p ps =>
            rw [hbehind] at hrest
            cases hrest

end Normal

section Step

variable (h : AnswerInv s) (hallowed : SpeculationStep s x)
include h

/-- A mispredicted branch retires, and fetch starts at the pc that it names. -/
theorem miss_path (hstate : s.front.loadStore.commit.curState = .normal)
    (hflush : (speculationFeedback s x).flushing = true)
    (hnext : (speculationNext s x).front.loadStore.commit.curState = .normal) {cur : Nat}
    (hpath : PathAt s cur) : ∃ cur', walkPath cur (retiredEvents s x) = some cur' ∧
      (expectedPc s.front.fetch).feedback (speculationFeedback s x) = .next cur' := by
  rw [retiredEvents_eq x h.pipeline]
  have hrob := h.pipeline.front.loadStore.rob
  have hclear : commitRobFlush s.front.loadStore.commit (speculationCommitInput s x) = true :=
    flushing_cleared hstate hflush hnext
  have hmiss : retireIsMiss s.front.loadStore.commit (speculationCommitInput s x) = true := by
    rw [commitRobFlush, hstate] at hclear
    simpa using hclear
  obtain ⟨_, _, i, hi, hvalid, hbru, _⟩ := retireIsMiss_spec (speculation_view x hrob) hmiss
  obtain ⟨hpop, hk, hunit⟩ := branch_popped h hstate hi hnext hvalid hbru
  have hretires := popped_branch h hstate hpop hk hunit
  rcases retires_cases (x := x) h hstate with ⟨_, hnone⟩ | ⟨k, hk', hn, _, hbefore⟩
  · exact absurd hunit (hnone i hk hpop)
  have heq : k = i := by
    have := hretires.last
    omega
  subst heq
  refine ⟨_, (path_branch (hpath hstate) hk hn hbefore (popped_retires h hstate hpop hk)).1, ?_⟩
  have hjump : (speculationFeedback s x).jumpEnable = true := by
    have hno := hretires.miss
    rw [hmiss] at hno
    rw [hretires.jumpEnable]
    cases hhit : bruOpIsHit (speculationCommitInput s x) k with
    | true =>
        rw [hhit, Bool.not_true, Bool.and_false] at hno
        exact absurd hno.symm Bool.false_ne_true
    | false => rw [Bool.and_false, Bool.not_false]
  have hexc : (speculationFeedback s x).hasException = false := by
    show (commitFeedbackPack s.front.loadStore.commit (speculationCommitInput s x)).hasException =
      false
    rw [commitFeedbackPack, hstate]
    rfl
  rw [feedback_flush hflush, hexc, if_neg Bool.false_ne_true, hjump, if_pos rfl, hretires.nextPc]

/-- What retires continues the walk. -/
theorem retired_path (hstate : s.front.loadStore.commit.curState = .normal) {cur : Nat}
    (hpath : PathAt s cur) : ∃ cur', walkPath cur (retiredEvents s x) = some cur' := by
  rw [retiredEvents_eq x h.pipeline]
  rcases retires_cases (x := x) h hstate with ⟨hall, _⟩ | ⟨k, hk, hn, _, hbefore⟩
  · obtain ⟨cur', hwalk, _⟩ := path_continues (hpath hstate) (retired_le x h.pipeline) hall
    exact ⟨cur', hwalk⟩
  · exact ⟨_, (path_branch (hpath hstate) hk hn hbefore
      (popped_retires (x := x) h hstate (by omega) hk)).1⟩

omit h in
/-- A walk that ends enters the handler, one that goes on does nothing. -/
theorem walking_path (hstate : s.front.loadStore.commit.curState ≠ .normal) {cur : Nat} :
    ∃ cur', walkPath cur (pathEvents s x) = some cur' ∧
      ((speculationNext s x).front.loadStore.commit.curState = .normal →
        (expectedPc s.front.fetch).feedback (speculationFeedback s x) = .next cur') := by
  obtain ⟨hflush, hzero, _⟩ := walking_quiet (c := speculationCommitInput s x) hstate
  have hretired : retiredEvents s x = [] := by
    have hnone : speculationRetired s x = 0 := hzero
    rw [retiredEvents, hnone, List.take_zero, List.mapIdx_nil]
  have hflushing : (speculationFeedback s x).flushing = true := hflush
  have hdone : (speculationFeedback s x).hasException =
      decide ((speculationNext s x).front.loadStore.commit.curState = .normal) := by
    show (commitFeedbackPack s.front.loadStore.commit (speculationCommitInput s x)).hasException =
      decide (commitNextState s.front.loadStore.commit (speculationCommitInput s x) = .normal)
    cases hcur : s.front.loadStore.commit.curState with
    | normal => exact absurd hcur hstate
    | flush => simp [commitFeedbackPack, hcur, flushingFeedbackPack, flushDone]
    | interruptFlush => simp [commitFeedbackPack, hcur, flushingFeedbackPack, interruptFlushDone]
  rw [pathEvents, hretired, List.nil_append, trapEvents, hflushing, Bool.true_and, hdone]
  by_cases hnext : (speculationNext s x).front.loadStore.commit.curState = .normal
  · refine ⟨(speculationFeedback s x).exceptionPc, ?_, fun _ => ?_⟩
    · rw [if_pos (decide_eq_true hnext)]
      rfl
    · rw [feedback_flush hflushing, hdone, if_pos (decide_eq_true hnext)]
  · refine ⟨cur, ?_, fun h => absurd h hnext⟩
    rw [decide_eq_false hnext, if_neg Bool.false_ne_true]
    rfl

include hallowed

/-- One cycle continues the walk, and fetch stays behind what is in flight. -/
theorem pathAt_next {cur : Nat} (hpath : PathAt s cur) :
    ∃ cur', walkPath cur (pathEvents s x) = some cur' ∧ PathAt (speculationNext s x) cur' := by
  obtain ⟨space, hspace⟩ := frontEnd_space s.front (speculationFront s x)
  have hfetch : ((expectedPc s.front.fetch).feedback (speculationFeedback s x)).push
      (frontEndPushed s.front (speculationFront s x)) =
        some (expectedPc (speculationNext s x).front.fetch) := expectedPc_next hspace
  -- behind a flush nothing is in flight
  have hflushed : (speculationFeedback s x).flushing = true → ∀ cur',
      ((speculationNext s x).front.loadStore.commit.curState = .normal →
        (expectedPc s.front.fetch).feedback (speculationFeedback s x) = .next cur') →
      PathAt (speculationNext s x) cur' := by
    intro hflush cur' hfeedback hnext
    have hnone : inFlight (speculationNext s x).front = [] := by
      have hawaiting := @awaiting_flush s.front (speculationFront s x) hflush
      exact (if_pos hnext).symm.trans hawaiting
    rw [hfeedback hnext, @frontEndPushed_flush s.front (speculationFront s x) hflush] at hfetch
    rw [hnone]
    exact hfetch
  by_cases hstate : s.front.loadStore.commit.curState = .normal
  · have hquiet : pathEvents s x = retiredEvents s x := by
      have hexc : (speculationFeedback s x).hasException = false := by
        show (commitFeedbackPack s.front.loadStore.commit
          (speculationCommitInput s x)).hasException = false
        rw [commitFeedbackPack, hstate]
        rfl
      rw [pathEvents, trapEvents, hexc, Bool.and_false, if_neg Bool.false_ne_true,
        List.append_nil]
    rw [hquiet]
    cases hflush : (speculationFeedback s x).flushing with
    | false =>
        obtain ⟨cur', hwalk, hbehind⟩ := keep_path h hstate hallowed hflush hpath
        refine ⟨cur', hwalk, fun _ => ?_⟩
        have hflow := inFlight_next h.pipeline.front (front_allowed h.pipeline hallowed)
          hallowed.fills hflush
        have hretired : frontEndRetired s.front (speculationFront s x) =
            (inFlight s.front).take (speculationRetired s x) :=
          retired_take h.pipeline.front hstate
        rw [hretired, ← List.take_append_drop (speculationRetired s x) (inFlight s.front),
          List.append_assoc, List.take_append_drop] at hflow
        have hbehind' : inFlight (speculationNext s x).front =
            (inFlight s.front).drop (speculationRetired s x) ++
              frontEndPushed s.front (speculationFront s x) :=
          (List.append_cancel_left hflow).symm
        rw [hbehind', push_append, hbehind]
        exact hfetch
    | true =>
        by_cases hnext : (speculationNext s x).front.loadStore.commit.curState = .normal
        · obtain ⟨cur', hwalk, hfeedback⟩ := miss_path h hstate hflush hnext hpath
          exact ⟨cur', hwalk, hflushed hflush cur' fun _ => hfeedback⟩
        · obtain ⟨cur', hwalk⟩ := retired_path (x := x) h hstate hpath
          exact ⟨cur', hwalk, fun h => absurd h hnext⟩
  · obtain ⟨cur', hwalk, hfeedback⟩ := walking_path (x := x) hstate
    exact ⟨cur', hwalk, hflushed
      (walking_quiet (c := speculationCommitInput s x) hstate).1 cur' hfeedback⟩

end Step

/-! ## Runs -/

theorem walkPath_run (inputs : List SpeculationInput) {cur : Nat} (h : AnswerInv s)
    (hpath : PathAt s cur) (hallowed : Along speculationNext SpeculationStep s inputs)
    (hothers : Along speculationNext BranchesAnswered s inputs) :
    (walkPath cur (outputs speculationNext pathEvents s inputs)).isSome = true := by
  induction inputs generalizing s cur with
  | nil => rfl
  | cons x inputs ih =>
      obtain ⟨cur', hstep, hpath'⟩ := pathAt_next h hallowed.1 hpath
      rw [outputs, walkPath_append, hstep, Option.bind_some]
      exact ih (answerInv_next h hallowed.1 hothers.1) hpath' hallowed.2 hothers.2

/-- In every run from reset that keeps the reorder buffer and in which the branch unit
answers for its operations, what retires is a path of the program: the first instruction is
at the reset address, each further one at the pc that its predecessor or a trap names, and
each names a pc that its word allows. -/
theorem retired_instructions_form_path (mem : Nat → Nat → BitVec 8) (outData : Nat → BitVec 8)
    (robBuffer : Nat → RobItem) (buffer : Nat → StoreBufferItem) (inputs : List SpeculationInput)
    (hallowed : Along speculationNext SpeculationAllowed
      (speculationReset mem outData robBuffer buffer) inputs)
    (hfills : Along speculationNext SpeculationFills
      (speculationReset mem outData robBuffer buffer) inputs)
    (hothers : Along speculationNext BranchesAnswered
      (speculationReset mem outData robBuffer buffer) inputs) :
    (walkPath initPc (outputs speculationNext pathEvents
      (speculationReset mem outData robBuffer buffer) inputs)).isSome = true :=
  walkPath_run inputs (answerInv_reset mem outData robBuffer buffer) (fun _ => rfl)
    (speculationStep_along hallowed hfills) hothers

/-! ## A branch and an interrupt behind it -/

theorem branchesAnswered_none (hwb : x.front.loadStore.executeWb = fun _ => ExecuteWbPack.zero) :
    BranchesAnswered s x := fun j _ _ _ henable => by
  rw [hwb] at henable
  exact absurd henable Bool.false_ne_true

/-- Commit walks back and reads the handler's address. -/
def entersHandler : SpeculationInput :=
  { stalledSpeculation with
    front := { stalledSpeculation.front with
      loadStore := { quietLoadStore with
        env := { quietLoadStore.env with csrfCommitReadData := 0x80000100 } } } }

/-- What is at the branch's target is renamed and discarded by an interrupt. -/
def branchThenInterrupt : List SpeculationInput :=
  branchRetires ++ List.replicate 3 quietSpeculation ++ interrupted ::
    List.replicate 4 entersHandler

theorem retired_instructions_form_path_interrupt :
    walkPath initPc (outputs speculationNext pathEvents branchReset branchRetires) =
        some 0x80000008 ∧
      walkPath initPc (outputs speculationNext pathEvents branchReset branchThenInterrupt) =
        some 0x80000100 ∧
      (walkPath initPc (outputs speculationNext pathEvents branchReset
        branchThenInterrupt)).isSome = true := by
  refine ⟨by decide +kernel, by decide +kernel, retired_instructions_form_path branchFirst
    (fun _ => 0) (fun _ => RobItem.zero) noStores branchThenInterrupt ?_ (by decide +kernel) ?_⟩
  · refine (along_append ..).2 ⟨(along_append ..).2 ⟨(along_append ..).2
      ⟨branchFound_allowed, ?_, ?_, ?_, trivial⟩, ?_, ?_, ?_, trivial⟩,
      ?_, ?_, ?_, ?_, ?_, trivial⟩
    all_goals exact quietSpeculation_allowed rfl rfl fun h => absurd h Bool.false_ne_true
  · refine ⟨?_, ?_, ?_, ?_, ?_, ?_, ?_, ?_, ?_, ?_, ?_, ?_, ?_, ?_, ?_, ?_, trivial⟩
    all_goals exact branchesAnswered_none rfl

end DreamCore.Proofs
