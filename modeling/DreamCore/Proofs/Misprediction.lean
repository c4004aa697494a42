import DreamCore.Model.Recovery
import DreamCore.Proofs.RegisterMap
import DreamCore.Proofs.CheckpointContents

/-!
# Recovery from mispredictions

The checkpoint rename wrote for a branch comes back at its retirement, many cycles
later, as the register map.  It still fits the table because a register leaves the
table only when no older instruction can need it.
-/

namespace DreamCore.Proofs

open DreamCore.Clocked DreamCore.Model DreamCore.Renaming DreamCore.Rtl

/-! ## The checkpoints of branches in flight -/

/-- A write channel other than rename's `i` writes entry `id` in this cycle. -/
def WritesBesides (s : RecoveryState) (input : RecoveryInput) (i id : Nat) : Prop :=
  (input.fetchCpbufPush = true ∧ cpbufFetchNewId s.cpbuf = id) ∨
    ∃ j, j < renameWidth ∧ j ≠ i ∧ (recoveryCpbufInput s input).renameCpbufWe j = true ∧
      (recoveryCpbufInput s input).renameCpbufId j = id

instance (s : RecoveryState) (input : RecoveryInput) (i id : Nat) :
    Decidable (WritesBesides s input i id) := inferInstanceAs (Decidable (_ ∨ _))

/-- No checkpoint is overwritten between its branch's renaming and retirement, nor in the
cycle of the renaming itself. -/
structure NoOverwrite (s : RecoveryState) (input : RecoveryInput) : Prop where
  inFlight : ∀ e ∈ s.backend.rob.entries, e.tag.op.predicted = true →
    ¬WritesBesides s input renameWidth e.tag.op.checkpointId
  renamed : ∀ i, i < renameWidth → (recoveryCpbufInput s input).renameCpbufWe i = true →
    ¬WritesBesides s input i ((recoveryCpbufInput s input).renameCpbufId i)

instance (s : RecoveryState) (input : RecoveryInput) : Decidable (NoOverwrite s input) :=
  decidable_of_iff
    ((∀ e ∈ s.backend.rob.entries, e.tag.op.predicted = true →
        ¬WritesBesides s input renameWidth e.tag.op.checkpointId) ∧
      ∀ i, i < renameWidth → (recoveryCpbufInput s input).renameCpbufWe i = true →
        ¬WritesBesides s input i ((recoveryCpbufInput s input).renameCpbufId i))
    ⟨fun h => ⟨h.1, h.2⟩, fun h => ⟨h.1, h.2⟩⟩

/-- A wrapped reorder buffer leaves a bundle free, and no checkpoint is overwritten. -/
structure BuffersKept (s : RecoveryState) (input : RecoveryInput) : Prop where
  exact : GrantsExact s.backend.rob
  noOverwrite : NoOverwrite s input

instance (s : RecoveryState) (input : RecoveryInput) : Decidable (BuffersKept s input) :=
  decidable_of_iff (GrantsExact s.backend.rob ∧ NoOverwrite s input)
    ⟨fun h => ⟨h.1, h.2⟩, fun h => ⟨h.1, h.2⟩⟩

/-- The buffer still holds what rename computed for every predicted branch in flight. -/
def CheckpointsHeld (s : RecoveryState) : Prop :=
  ∀ e ∈ s.backend.rob.entries, e.tag.op.predicted = true →
    s.cpbuf.buffer e.tag.op.checkpointId = e.tag.checkpoint

theorem readsOwn_of_held {m : RegMap} {s : RecoveryState} {input : RecoveryInput}
    (h : Settled m s.backend) (hheld : CheckpointsHeld s) :
    ReadsOwnCheckpoint (recoveryCommitData s input) s.backend := by
  intro k hk hfinish _ hpredicted
  have hok := h.items _ (List.getElem_mem hk)
  have hread : recoveryCommitData s input k =
      s.cpbuf.buffer s.backend.rob.entries[k].tag.op.checkpointId := by
    rw [recoveryCommitData, commitCpbufId,
      retireData_eq (backend_view _ input.backend h.rob) hk, hok.checkpointId hfinish]
    rfl
  rw [hread, hheld _ (List.getElem_mem hk) ((hok.predicted hfinish).symm.trans hpredicted)]

theorem no_push_of_not_writes {s : RecoveryState} {input : RecoveryInput} {i id : Nat}
    (h : ¬WritesBesides s input i id) :
    (recoveryCpbufInput s input).fetchCpbufPush = true → cpbufFetchNewId s.cpbuf ≠ id :=
  fun hpush heq => h (Or.inl ⟨hpush, heq⟩)

/-- An entry nothing writes keeps its checkpoint. -/
theorem buffer_kept {s : RecoveryState} {input : RecoveryInput} {id : Nat}
    (h : ¬WritesBesides s input renameWidth id) :
    cpbufBufferNext s.cpbuf (recoveryCpbufInput s input) id = s.cpbuf.buffer id := by
  refine cpbufBufferNext_quiet (no_push_of_not_writes h) ?_
  rintro ⟨j, hj, hwe, heq⟩
  exact h (Or.inr ⟨j, hj, Nat.ne_of_lt hj, hwe, heq⟩)

/-- An entry one slot of rename writes holds that slot's checkpoint. -/
theorem buffer_written {s : RecoveryState} {input : RecoveryInput} {i : Nat}
    (hi : i < renameWidth) (hwe : (recoveryCpbufInput s input).renameCpbufWe i = true)
    (h : ¬WritesBesides s input i ((recoveryCpbufInput s input).renameCpbufId i)) :
    cpbufBufferNext s.cpbuf (recoveryCpbufInput s input)
        ((recoveryCpbufInput s input).renameCpbufId i) =
      (recoveryRenameInput s input).newCp i :=
  cpbufBufferNext_rename (no_push_of_not_writes h) hi hwe rfl
    fun j hj hne hwej heq => h (Or.inr ⟨j, hj, hne, hwej, heq⟩)

theorem held_next {s : RecoveryState} {input : RecoveryInput}
    (hbundle : DecodedBundle input.backend.bundle) (hover : NoOverwrite s input)
    (hheld : CheckpointsHeld s) : CheckpointsHeld (recoveryNext s input) := by
  intro e he hpredicted
  have hback : (recoveryNext s input).backend = backendNextWith (recoveryCommitData s input)
      s.backend (recoveryBackendInput s input) := rfl
  have hbuffer : (recoveryNext s input).cpbuf.buffer =
      cpbufBufferNext s.cpbuf (recoveryCpbufInput s input) := rfl
  rw [hback] at he
  rw [hbuffer]
  cases hflush : commitRobFlush s.backend.commit (backendCommitInput (recoveryCommitData s input)
      s.backend (recoveryBackendInput s input)) with
  | true =>
      rw [entries_flushed hflush] at he
      simp at he
  | false =>
      rcases mem_entries_next hflush he with ⟨k, hk, _, rfl⟩ | hnew
      · have hmem := List.getElem_mem hk
        have htag : ∀ e' : Entry InFlight, (backendUpdate (recoveryCommitData s input) s.backend
            (recoveryBackendInput s input) k e').tag = e'.tag := fun _ => rfl
        rw [htag] at hpredicted ⊢
        exact (buffer_kept (hover.inFlight _ hmem hpredicted)).trans (hheld _ hmem hpredicted)
      · obtain ⟨i, hi, hpush, hdata, rfl⟩ := mem_pushed hnew
        have hmem := pushed_mem_bundle hdata
        have hop := hbundle.checkpointIdValid _ hmem
        have hwe : (recoveryCpbufInput s input).renameCpbufWe i = true := by
          have hsend := (Bool.and_eq_true_iff.1 hdata).2
          exact Bool.and_eq_true_iff.2
            ⟨Bool.and_eq_true_iff.2 ⟨hpush, hsend⟩, hop.trans hpredicted⟩
        exact buffer_written hi hwe (hover.renamed i hi hwe)

/-! ## The map behind a retiring branch -/

/-- The register map right after the instruction of entry `e` was renamed. -/
def mapAfter (e : Entry InFlight) : RegMap :=
  if e.item.oldPhyRegIdValid then
    Function.update e.tag.mapBefore e.tag.op.rd e.item.newPhyRegId
  else e.tag.mapBefore

theorem mapAfter_eq {m : RegMap} {s : BackendState} (h : Settled m s) {k : Nat}
    (hk : k < s.rob.entries.length) : mapAfter s.rob.entries[k] = retiredMap m s (k + 1) := by
  rw [mapAfter, retiredMap, bindings_take_succ hk, bindAll_append, (h.chain.get hk).mapBefore,
    entryBinding]
  split <;> rfl

/-- The predicted branch in retire slot `i` brings the map behind it back. -/
structure Recovers (s : RecoveryState) (input : RecoveryInput) (i : Nat) (e : Entry InFlight) :
    Prop where
  slot : s.backend.rob.entries[i]? = some e
  predicted : e.item.bruOp = true ∧ e.item.predicted = true
  pops : popCount s.backend.commit (recoveryCommitInput s input) = i + 1
  restores : commitRatMapTableRestore s.backend.commit (recoveryCommitInput s input) = true
  count : ((List.range phyRegNum).filter
    (commitRatMapTableVisible s.backend.commit (recoveryCommitInput s input))).length = 31
  selects : ∀ p, commitRatMapTableVisible s.backend.commit (recoveryCommitInput s input) p = true ↔
    ∃ a, (1 ≤ a ∧ a < archRegNum) ∧ mapAfter e a = p
  row : ∀ a, 1 ≤ a → a < archRegNum → mapAfter e a < phyRegNum
  named : ∀ a, 1 ≤ a → a < archRegNum →
    s.backend.rat.mapTable (mapAfter e a) = a ∧
      (recoveryNext s input).backend.rat.mapTable (mapAfter e a) = a
  dataValid : ∀ a, 1 ≤ a → a < archRegNum →
    s.backend.phyf.dataValid (mapAfter e a) = true ∧
      (recoveryNext s input).backend.phyf.dataValid (mapAfter e a) = true
  current : ∀ a, 1 ≤ a → a < archRegNum →
    ratReadPhyId (recoveryNext s input).backend.rat a = mapAfter e a
  freed : ∀ k e', i < k → s.backend.rob.entries[k]? = some e' →
    e'.item.oldPhyRegIdValid = true →
    (recoveryNext s input).backend.rat.mapValid e'.item.newPhyRegId = false

theorem missCycle_of_retireIsMiss {m : RegMap} {s : RecoveryState} {input : RecoveryInput}
    (h : BackendInv m s.backend)
    (hmiss : retireIsMiss s.backend.commit (recoveryCommitInput s input) = true) :
    s.backend.commit.curState = .normal ∧
      ∃ i, MissCycle s.backend.commit (recoveryCommitInput s input) s.backend.rob.toIdealRob i := by
  have hview := backend_view (recoveryCommitData s input) (recoveryBackendInput s input) h.rob
  obtain ⟨_, _, j, hj, hvalid, _⟩ := retireIsMiss_spec hview hmiss
  have hstate := (retireValid_spec hview hj hvalid).1
  have hflush : commitRobFlush s.backend.commit (recoveryCommitInput s input) = true := by
    simp [commitRobFlush, hstate, hmiss]
  refine ⟨hstate, ?_⟩
  rcases normal_cycle hview (branchesClean_of_items h.items) hstate with hkeep | hcase | htrap
  · exact absurd (hkeep.noFlush.symm.trans hflush) Bool.false_ne_true
  · exact hcase
  · exact absurd (htrap.noFlush.symm.trans hflush) Bool.false_ne_true

/-- A register bound by an entry behind position `i` is not in the map after position `i`. -/
theorem younger_not_current {m : RegMap} {s : BackendState}
    (htable : RatSound s.rat m (bindings s.rob.entries)) {i k : Nat}
    (hk : k < s.rob.entries.length) (hik : i < k)
    (hold : s.rob.entries[k].item.oldPhyRegIdValid = true) :
    s.rob.entries[k].item.newPhyRegId ∉ archRegs.map (retiredMap m s (i + 1)) := by
  have hyounger : s.rob.entries[k] ∈ s.rob.entries.drop (i + 1) := by
    rw [List.mem_iff_getElem]
    exact ⟨k - (i + 1), by rw [List.length_drop]; omega,
      by rw [List.getElem_drop]; congr 1; omega⟩
  rw [bindings_split s.rob.entries (i + 1)] at htable
  exact htable.younger_not_mem archRegs_nodup (mem_bindings.2 ⟨_, hyounger, hold, rfl⟩)

theorem recovers_of_inv {m : RegMap} {s : RecoveryState} {input : RecoveryInput}
    (h : BackendInv m s.backend) (hheld : CheckpointsHeld s)
    (hmiss : retireIsMiss s.backend.commit (recoveryCommitInput s input) = true) :
    ∃ i e, Recovers s input i e := by
  obtain ⟨hstate, i, hcycle⟩ := missCycle_of_retireIsMiss h hmiss
  have hcp : ReadsOwnCheckpoint (recoveryCommitData s input) s.backend :=
    readsOwn_of_held h.toSettled hheld
  have hnext := miss_next h hstate hcp hcycle
  obtain ⟨hvisible, htable⟩ := restored_next h hstate hcp hcycle
  obtain ⟨hlen, hbru, hpredicted⟩ := hcycle.predicted
  have hok := h.normal hstate
  have hrows := rows_retired h.toSettled (i + 1)
  have hpops : pops (recoveryCommitData s input) s.backend (recoveryBackendInput s input) =
      i + 1 := hcycle.popCount_eq
  have hmem : ∀ {a}, 1 ≤ a → a < archRegNum →
      retiredMap m s.backend (i + 1) a ∈ archRegs.map (retiredMap m s.backend (i + 1)) :=
    fun h1 h2 => List.mem_map_of_mem (mem_archRegs.2 ⟨h1, h2⟩)
  have hsplit := bindings_split s.backend.rob.entries (i + 1)
  have hbounded : RatBounded (recoveryNext s input).backend.rat
      (retiredMap m s.backend (i + 1)) :=
    ⟨fun p hp => hrows p (by simpa [allocated] using (htable.valid_iff p).1 hp), hnext.outside⟩
  refine ⟨i, s.backend.rob.entries[i], ?_⟩
  rw [← mapAfter_eq h.toSettled hlen] at *
  refine ⟨List.getElem?_eq_getElem hlen, ⟨hbru, hpredicted⟩, hpops, hcycle.restore, ?_,
    fun p => ?_, fun a h1 h2 => hrows _ (hmem h1 h2), fun a h1 h2 => ⟨?_, ?_⟩,
    fun a h1 h2 => ⟨?_, ?_⟩, fun a h1 h2 => ?_, fun k e' hik hget hold => ?_⟩
  · exact length_filter_image hvisible
      (List.nodup_append.1 (htable.split_nodup archRegs_nodup)).1 hrows
  · refine (hvisible p).trans (List.mem_map.trans ?_)
    exact exists_congr fun a => and_congr_left fun _ => mem_archRegs
  · rw [mapAfter_eq h.toSettled hlen]
    exact table_bindAll hok.table.table_map
      (fun b hb => hok.table.table_phy b (hsplit ▸ List.mem_append_left _ hb))
      (mem_archRegs.2 ⟨h1, h2⟩)
  · exact htable.table_current (mem_archRegs.2 ⟨h1, h2⟩)
  · rw [mapAfter_eq h.toSettled hlen, ← hpops]
    exact retired_dataValid h.toSettled hok (mem_archRegs.2 ⟨h1, h2⟩)
  · exact hnext.mapped a (mem_archRegs.2 ⟨h1, h2⟩)
  · exact congrFun (ratReadPhyId_eq htable hbounded) a
  · obtain ⟨hk, rfl⟩ := List.getElem?_eq_some_iff.1 hget
    have hgone := younger_not_current hok.table hk hik hold
    rw [Bool.eq_false_iff]
    intro hvalid
    have hused := (htable.valid_iff _).1 hvalid
    rw [mapAfter_eq h.toSettled hlen] at hused
    exact hgone (by simpa [allocated] using hused)

/-! ## Every run -/

/-- What holds in every state of a run. -/
structure RecoveryInv (s : RecoveryState) : Prop where
  backend : ∃ m, BackendInv m s.backend
  held : CheckpointsHeld s

/-- No instruction the decoder rejected is mapped to a register in this cycle. -/
abbrev MapsAccepted (s : RecoveryState) (input : RecoveryInput) : Prop :=
  NoRejectedRename (recoveryCommitData s input) s.backend (recoveryBackendInput s input)

theorem recoveryReset_inv (robBuffer : Nat → RobItem) (buffer : Nat → Checkpoint) :
    RecoveryInv (recoveryReset robBuffer buffer) :=
  ⟨⟨_, backendReset_inv (some robBuffer)⟩, fun _ he => absurd he List.not_mem_nil⟩

theorem cycleAllowed_recovery {s : RecoveryState} {input : RecoveryInput}
    (h : CycleAllowed s.backend input.backend) :
    CycleAllowed s.backend (recoveryBackendInput s input) :=
  ⟨h.bundle, h.results, h.notPending⟩

theorem recoveryInv_next {s : RecoveryState} {input : RecoveryInput} (h : RecoveryInv s)
    (hallowed : CycleAllowed s.backend input.backend) (hexact : GrantsExact s.backend.rob)
    (hover : NoOverwrite s input) (haccept : MapsAccepted s input) :
    RecoveryInv (recoveryNext s input) := by
  obtain ⟨⟨m, hback⟩, hheld⟩ := h
  exact ⟨backendInv_next ⟨m, hback⟩ hexact (readsOwn_of_held hback.toSettled hheld)
    (cycleAllowed_recovery hallowed) haccept, held_next hallowed.bundle hover hheld⟩

theorem recoveryInv_run {s : RecoveryState} {inputs : List RecoveryInput} (h : RecoveryInv s)
    (hallowed : Along recoveryNext (fun s input => CycleAllowed s.backend input.backend) s inputs)
    (hexact : Along recoveryNext (fun s _ => GrantsExact s.backend.rob) s inputs)
    (hover : Along recoveryNext NoOverwrite s inputs)
    (haccept : Along recoveryNext MapsAccepted s inputs) :
    Along recoveryNext (fun s _ => RecoveryInv s) s inputs ∧
      RecoveryInv (run recoveryNext s inputs) := by
  have hall := ((hallowed.and hexact).and hover).and haccept
  have hstep : ∀ s input, RecoveryInv s →
      (((CycleAllowed s.backend input.backend ∧ GrantsExact s.backend.rob) ∧
        NoOverwrite s input) ∧ MapsAccepted s input) → RecoveryInv (recoveryNext s input) :=
    fun _ _ h hc => recoveryInv_next h hc.1.1.1 hc.1.1.2 hc.1.2 hc.2
  exact ⟨(hall.strengthen hstep h).mono fun _ _ hc => hc.1, invariant_run hstep h hall⟩

theorem misprediction_recovers (robBuffer : Nat → RobItem) (buffer : Nat → Checkpoint)
    {inputs : List RecoveryInput}
    (hallowed : Along recoveryNext (fun s input => CycleAllowed s.backend input.backend)
      (recoveryReset robBuffer buffer) inputs)
    (hvalid : ∀ input ∈ inputs, ∀ op ∈ input.backend.bundle, op.valid = true)
    (hover : Along recoveryNext NoOverwrite (recoveryReset robBuffer buffer) inputs)
    (hexact : Along recoveryNext (fun s _ => GrantsExact s.backend.rob)
      (recoveryReset robBuffer buffer) inputs) :
    Along recoveryNext (fun s input =>
      retireIsMiss s.backend.commit (recoveryCommitInput s input) = true →
        ∃ i e, Recovers s input i e) (recoveryReset robBuffer buffer) inputs := by
  have haccept : Along recoveryNext MapsAccepted (recoveryReset robBuffer buffer) inputs :=
    along_of_forall fun _ _ hmem => noRejected_of_valid (hvalid _ hmem)
  refine (recoveryInv_run (recoveryReset_inv robBuffer buffer) hallowed hexact hover
    haccept).1.mono fun s input hinv hmiss => ?_
  obtain ⟨⟨m, h⟩, hheld⟩ := hinv
  exact recovers_of_inv h hheld hmiss

/-! ## A jump predicted not taken -/

/-- `jal x1, 8`, predicted not taken with checkpoint 0. -/
def predictedJal : FetchDecodePack :=
  { fetched 0x80000000 0x008000ef with predicted := true, checkpointIdValid := true }

/-- The result of that jump, renamed to physical register 0 under id 0. -/
def jalResult : ExecuteWbPack :=
  { ExecuteWbPack.zero with
    toDecodeRenamePack := decode predictedJal
    bruJump := true
    bruNextPc := 0x80000008
    rdValue := 0x80000004 }

/-- Reset with zeros in the entries of both buffers. -/
def zeroReset : RecoveryState := recoveryReset (fun _ => RobItem.zero) fun _ => Checkpoint.zero

def plainCycle (backend : BackendInput) : RecoveryInput := ⟨backend, Checkpoint.zero, false⟩

/-- Fetch allocates the checkpoint, rename gets the jump and an addition behind it, the
jump completes, its result is stored, and it retires. -/
def missedJal : List RecoveryInput :=
  [⟨offer [], Checkpoint.zero, true⟩,
    plainCycle (offer ([predictedJal, fetched 0x80000004 0x00100313].map decode)),
    plainCycle { offer [] with executeWb := fun j => if j = 0 then jalResult else .zero },
    plainCycle (offer []), plainCycle (offer [])]

theorem misprediction_recovers_missedJal :
    Along recoveryNext (fun s input =>
      retireIsMiss s.backend.commit (recoveryCommitInput s input) = true →
        ∃ i e, Recovers s input i e) zeroReset missedJal := by
  have hidle : ∀ {s : BackendState}, CycleAllowed s (offer []) := offer_allowed nothing_decoded
  refine misprediction_recovers _ _ ⟨hidle, ?_, ?_, hidle, hidle, trivial⟩ (by decide +kernel)
    (by decide +kernel) (by decide +kernel)
  · exact offer_allowed (decodedBundle_map (by decide) (by decide) (by decide) (by decide))
  · have hjal : ∀ {j}, (if j = 0 then jalResult else ExecuteWbPack.zero).enable = true → j = 0 := by
      intro j henable
      by_contra hne
      rw [if_neg hne] at henable
      exact Bool.false_ne_true henable
    refine ⟨nothing_decoded, ⟨fun j _ henable => ?_, fun i j _ _ hi hj _ => ?_⟩,
      fun i _ hi _ hport _ => ?_⟩
    · obtain rfl := hjal henable
      refine ⟨0, by decide +kernel, by decide +kernel, by decide +kernel, ?_⟩
      constructor <;> decide +kernel
    · rw [hjal hi, hjal hj]
    · refine absurd hport ?_
      revert i
      decide +kernel

/-! ## A full ring behind a fence -/

/-- The result of a plain instruction. -/
def resultPack (op : DecodeRenamePack) (robId rdPhy rdValue : Nat) : ExecuteWbPack :=
  { ExecuteWbPack.zero with
    toDecodeRenamePack := op, robId := robId, rdPhy := rdPhy, rdValue := rdValue }

/-- Word `n` of the program. -/
def programWord (n word : Nat) : FetchDecodePack := fetched (0x80000000 + 4 * n) word

def nopsFrom (n : Nat) : List FetchDecodePack :=
  (List.range' n 4).map fun n => programWord n 0x00000013

def addiX1 : FetchDecodePack := programWord 0 0x00100093

/-- `beq x0, x0, 8`, predicted not taken with checkpoint 0. -/
def missedBeq : FetchDecodePack :=
  { programWord 12 0x00000463 with predicted := true, checkpointIdValid := true }

def addiX5 : FetchDecodePack := programWord 65 0x00100293

def addiX8 : FetchDecodePack := programWord 68 0x00100413

/-- The result of word `n`, a no-operation. -/
def nopResult (n : Nat) : ExecuteWbPack :=
  resultPack (decode (programWord n 0x00000013)) (n % robSize) 32 0

/-- The branch unit finds the branch taken. -/
def beqResult : ExecuteWbPack :=
  { resultPack (decode missedBeq) 12 32 0 with bruJump := true, bruNextPc := 0x80000038 }

/-- A cycle with these instructions at rename and these results of the units, port by port. -/
def cycleOf (packs : List FetchDecodePack) (results : List ExecuteWbPack) : RecoveryInput :=
  plainCycle { offer (packs.map decode) with executeWb := fun j => results.getD j .zero }

/-- `addi x1, x0, 1; fence; sw x0, 256(x0)` and then no-operations, with a branch as word 12.
The addition retires, the fence does not, and words 64 to 67 are sent with 63 entries in
flight: three of them take the entries of the fence, the store and word 3.  They retire
from there, and what `addi x5` frees goes to `addi x8`.  The answers for the words behind
the branch make no difference and are left out. -/
def overrun : List RecoveryInput :=
  [{ cycleOf [addiX1, programWord 1 0x0000000f, programWord 2 0x10002023,
      programWord 3 0x00000013] [] with
      fetchCpbufPush := true },
    cycleOf (nopsFrom 4) [], cycleOf [] [resultPack (decode addiX1) 0 0 1],
    cycleOf (nopsFrom 8) [nopResult 4, nopResult 5],
    cycleOf (missedBeq :: (nopsFrom 12).tail) [nopResult 6, nopResult 7],
    cycleOf (nopsFrom 16) [nopResult 8, nopResult 9],
    cycleOf (nopsFrom 20) [nopResult 10, nopResult 11],
    cycleOf (nopsFrom 24) [.zero, .zero, beqResult]] ++
  (List.range 9).map (fun k => cycleOf (nopsFrom (28 + 4 * k)) []) ++
  [cycleOf [programWord 64 0x00000013, addiX5, programWord 66 0x00000013,
      programWord 67 0x00000013] [],
    cycleOf [] [resultPack (decode addiX5) 1 1 1, nopResult 66], cycleOf [] [nopResult 67],
    cycleOf [] [], cycleOf [] [], cycleOf [] [], cycleOf [addiX8] []]

/-- When the branch retires as a miss, the register `x5` had behind it belongs to `x8`. -/
theorem overrun_not_recovered :
    (Along recoveryNext (fun s input => CycleAllowed s.backend input.backend) zeroReset
        (overrun ++ [cycleOf [] []]) ∧
      (∀ input ∈ overrun ++ [cycleOf [] []], ∀ op ∈ input.backend.bundle, op.valid = true) ∧
      Along recoveryNext NoOverwrite zeroReset (overrun ++ [cycleOf [] []])) ∧
    ¬Along recoveryNext (fun s input =>
      retireIsMiss s.backend.commit (recoveryCommitInput s input) = true →
        ∃ i e, Recovers s input i e) zeroReset (overrun ++ [cycleOf [] []]) := by
  refine ⟨by decide +kernel, fun h => ?_⟩
  have hlast := ((along_append ..).1 h).2.1
  have hstate : retireIsMiss (run recoveryNext zeroReset overrun).backend.commit
        (recoveryCommitInput (run recoveryNext zeroReset overrun) (cycleOf [] [])) = true ∧
      popCount (run recoveryNext zeroReset overrun).backend.commit
        (recoveryCommitInput (run recoveryNext zeroReset overrun) (cycleOf [] [])) = 1 ∧
      (run recoveryNext zeroReset overrun).backend.rob.entries[0]?.map (mapAfter · 5) = some 5 ∧
      (run recoveryNext zeroReset overrun).backend.rat.mapTable 5 = 8 := by
    decide +kernel
  obtain ⟨hmiss, hpops, hmap, htable⟩ := hstate
  obtain ⟨i, e, hrecovers⟩ := hlast hmiss
  obtain rfl : i = 0 := by
    have := hrecovers.pops
    omega
  rw [hrecovers.slot, Option.map_some, Option.some_inj] at hmap
  have hnamed := (hrecovers.named 5 (by decide) (by decide)).1
  rw [hmap, htable] at hnamed
  exact absurd hnamed (by decide)

end DreamCore.Proofs
