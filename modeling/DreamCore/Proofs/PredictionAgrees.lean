import DreamCore.Model.Predictors
import DreamCore.Proofs.DecodeInverse
import DreamCore.Proofs.ReturnStack

/-!
# The predictors agree

The hardware does commit, execute and fetch of a cycle at once.  Its bypasses read what the
tables hold after commit, and its next state is that of the three updates one after another,
which is the order of the C++ model.  What differs is the test of a branch's condition.
-/

namespace DreamCore.Proofs

open DreamCore.Clocked DreamCore.Rtl DreamCore.Model

/-! ## Arithmetic of both programs -/

theorem shiftHistory_eq (width history : Nat) (jump : Bool) :
    Cpp.shiftHistory width history jump = historyShift width history jump := by
  rw [Cpp.shiftHistory, historyShift, widthMask, Nat.one_shiftLeft]

theorem pcP1_eq (width pc : Nat) : Cpp.pcP1 width 0 pc = getPcP1 width pc := by
  rw [Cpp.pcP1, getPcP1, widthMask, Nat.one_shiftLeft]

theorem gsharePc_eq (pc : Nat) : Cpp.BranchPredictor.gsharePc pc = gshareGetPcP1 pc := pcP1_eq _ pc

theorem localPc_eq (pc : Nat) : Cpp.BranchPredictor.localPc pc = localGetPcP1 pc := pcP1_eq _ pc

theorem callPc_eq (pc : Nat) : Cpp.BranchPredictor.callPc pc = callGetPcP1 pc := pcP1_eq _ pc

theorem normalPc_eq (pc : Nat) : Cpp.BranchPredictor.normalPc pc = normalGetPcP1 pc := pcP1_eq _ pc

/-- Reading past the write is reading the table after it. -/
theorem dataFix_eq (table : Nat → Nat) (we : Bool) (writeAddr data addr : Nat) :
    dataFix table we writeAddr data addr = tableNext table we writeAddr data addr := by
  rw [dataFix, tableNext, decide_eq_decide.mpr (eq_comm : addr = writeAddr ↔ writeAddr = addr)]

theorem tableNext_none (table : Nat → Nat) (addr data : Nat) :
    tableNext table false addr data = table := rfl

theorem tableNext_write (table : Nat → Nat) (addr data : Nat) :
    tableNext table true addr data = Cpp.setEntry table addr data := by
  funext i
  rw [tableNext, Cpp.setEntry, Bool.true_and]
  by_cases h : addr = i
  · rw [decide_eq_true h, if_pos rfl, if_pos h.symm]
  · rw [decide_eq_false h, if_neg Bool.false_ne_true, if_neg (Ne.symm h)]

theorem setEntry_self (table : Nat → Nat) (addr : Nat) :
    Cpp.setEntry table addr (table addr) = table := by
  funext i
  rw [Cpp.setEntry]
  split
  · rename_i h
    rw [h]
  · rfl

/-- The two-bit counter of the hardware and the clamped one of the C++ model. -/
theorem countJump_table {table : Nat → Nat} (addr : Nat) (h : table addr ≤ 3) (jump : Bool) :
    Cpp.setEntry table addr (Cpp.countJump jump (table addr)) =
      tableNext table (phtWe jump (table addr)) addr (phtWriteData jump (table addr)) := by
  by_cases hwe : phtWe jump (table addr) = true
  · rw [hwe, tableNext_write]
    congr 1
    cases jump
    · have hpos : 0 < table addr := by simpa [phtWe] using hwe
      rw [Cpp.countJump, if_neg Bool.false_ne_true, if_pos hpos, phtWriteData,
        if_neg Bool.false_ne_true]
      omega
    · have hlow : table addr < 3 := by simpa [phtWe] using hwe
      rw [Cpp.countJump, if_pos rfl, if_pos hlow, phtWriteData, if_pos rfl]
      omega
  · rw [Bool.not_eq_true] at hwe
    have hsame : Cpp.countJump jump (table addr) = table addr := by
      cases jump
      · have hzero : ¬ 0 < table addr := by simpa [phtWe] using hwe
        rw [Cpp.countJump, if_neg Bool.false_ne_true, if_neg hzero]
      · have hfull : ¬ table addr < 3 := by simpa [phtWe] using hwe
        rw [Cpp.countJump, if_pos rfl, if_neg hfull]
    rw [hwe, tableNext_none, hsame, setEntry_self]

/-- Write enable and data of the choosing table, as functions of the counter. -/
theorem cphtCount_table {table : Nat → Nat} (addr : Nat) (h : table addr ≤ 3) (hit : Bool) :
    Cpp.setEntry table addr (Cpp.BranchPredictor.cphtCount hit (table addr)) =
      tableNext table
        ((decide (table addr ≤ 1) && ((hit && decide (table addr > 0)) || !hit)) ||
          (decide (table addr > 1) && ((hit && decide (table addr < 3)) || !hit))) addr
        (if (decide (table addr ≤ 1) && !hit) ||
            (decide (table addr > 1) && hit && decide (table addr < 3)) then (table addr + 1) % 4
          else (table addr + 3) % 4) := by
  have hcases : table addr = 0 ∨ table addr = 1 ∨ table addr = 2 ∨ table addr = 3 := by omega
  have hself := setEntry_self table addr
  rcases hcases with hc | hc | hc | hc <;> rw [hc] at hself ⊢ <;> cases hit
  · exact (tableNext_write table addr 1).symm
  · exact hself
  · exact (tableNext_write table addr 2).symm
  · exact (tableNext_write table addr 0).symm
  · exact (tableNext_write table addr 1).symm
  · exact (tableNext_write table addr 3).symm
  · exact (tableNext_write table addr 2).symm
  · exact hself

/-! ## The updates one after another -/

/-- The same tables and histories in both programs. -/
structure TablesAgree (s : BranchPredictorState) (p : Cpp.BranchPredictor) : Prop where
  global : p.gshareGlobalHistory = s.gshareGlobalHistory
  globalRetired : p.gshareGlobalHistoryRetired = s.gshareGlobalHistoryRetired
  gsharePht : p.gsharePht = s.gsharePht
  localBht : p.localBht = s.localBht
  localBhtRetired : p.localBhtRetired = s.localBhtRetired
  localPht : p.localPht = s.localPht
  cpht : p.cpht = s.cpht
  call : p.callGlobalHistory = s.callGlobalHistory
  callCache : p.callTargetCache = s.callTargetCache
  normal : p.normalGlobalHistory = s.normalGlobalHistory
  normalCache : p.normalTargetCache = s.normalTargetCache

structure CountersBounded (s : BranchPredictorState) : Prop where
  gsharePht : ∀ i, s.gsharePht i ≤ 3
  localPht : ∀ i, s.localPht i ≤ 3
  cpht : ∀ i, s.cpht i ≤ 3

section Updates

variable (s : BranchPredictorState) (e : PredictorEvents)

/-- The state when only the retiring branch is taken in. -/
def committedState : BranchPredictorState where
  gshareGlobalHistory := if commitMiss e then commitGlobalHistory s e else s.gshareGlobalHistory
  gshareGlobalHistoryRetired := gshareGlobalHistoryRetiredNext s e
  gsharePht :=
    tableNext s.gsharePht (gsharePhtWe s e) (gsharePhtWriteAddr s e) (gsharePhtWriteData s e)
  localBht := fun i =>
    if commitMiss e && decide (localBhtWriteAddr e = i) then commitLocalHistory s e i
    else s.localBht i
  localBhtRetired := localBhtRetiredNext s e
  localPht :=
    tableNext s.localPht (localPhtWe s e) (localPhtWriteAddr s e) (localPhtWriteData s e)
  cpht := tableNext s.cpht (cphtWe s e) (cphtWriteAddr s e) (cphtWriteData s e)
  callGlobalHistory := callGlobalHistoryNext s e
  callTargetCache :=
    tableNext s.callTargetCache (callTargetCacheWe e) (callTargetCacheWriteAddr s e) (commitNextPc e)
  normalGlobalHistory := normalGlobalHistoryNext s e
  normalTargetCache :=
    tableNext s.normalTargetCache (normalTargetCacheWe e) (normalTargetCacheWriteAddr s e)
      (commitNextPc e)

/-- The state when the branch that executes has put its histories right. -/
def executedState : BranchPredictorState :=
  { s with
    gshareGlobalHistory := if exbruMiss e then exbruGlobalHistory e else s.gshareGlobalHistory
    localBht := fun i =>
      if exbruMiss e && decide (localGetPcP1 e.exbruBpPc = i) then exbruLocalHistory e
      else s.localBht i }

/-- The state when fetch has shifted a predicted outcome in. -/
def fetchedState (jump : Bool) : BranchPredictorState :=
  { s with
    gshareGlobalHistory := historyShift gsharePcP1AddrWidth s.gshareGlobalHistory jump
    localBht := fun i =>
      if localGetPcP1 e.fetchBpPc = i then historyShift localPcP1AddrWidth (s.localBht i) jump
      else s.localBht i }

/-- The histories and the tables before fetch. -/
def trainedState : BranchPredictorState := executedState (committedState s e) e

end Updates

section Commit

variable {s : BranchPredictorState} {e : PredictorEvents} {p : Cpp.BranchPredictor}

/-- The update of one branch of the C++ model. -/
theorem updatePrediction_branch (h : TablesAgree s p) (hbounded : CountersBounded s)
    (hvalid : commitValid e = true) (hbranch : commitIsBranch e = true) :
    TablesAgree (committedState s e)
      (p.updatePrediction (commitPc e) (commitInstruction e) (commitJump e) (commitNextPc e)
        (commitHit e)) := by
  have hopcode : Cpp.decOpcode (commitInstruction e) = 0x63 :=
    (decOpcode_eq _).trans (of_decide_eq_true hbranch)
  have hjalr : isJalrWord (commitInstruction e) = false := by
    rw [isJalrWord, ← decOpcode_eq, hopcode]
    rfl
  have hcall : commitIsCall e = false := by
    rw [commitIsCall, isCallWord, hjalr]
    rfl
  have hnormal : commitIsNormalJump e = false := by
    rw [commitIsNormalJump, isNormalJumpWord, hjalr]
    rfl
  have hmiss : commitMiss e = !commitHit e := by
    rw [commitMiss, hvalid, hbranch, Bool.true_and, Bool.and_true]
  have hglobal : Cpp.shiftHistory Cpp.gsharePcP1AddrWidth s.gshareGlobalHistoryRetired
      (commitJump e) = commitGlobalHistory s e := shiftHistory_eq _ _ _
  have hlocal : ∀ i, Cpp.shiftHistory Cpp.localPcP1AddrWidth (s.localBhtRetired i)
      (commitJump e) = commitLocalHistory s e i := fun i => shiftHistory_eq _ _ _
  obtain ⟨g, r, gp, lb, lr, lp, cp, ras, ch, cc, nh, nc⟩ := p
  obtain ⟨rfl, rfl, rfl, rfl, rfl, rfl, rfl, rfl, rfl, rfl, rfl⟩ := h
  rw [Cpp.BranchPredictor.updatePrediction, if_pos hopcode]
  constructor
  · show (if !commitHit e then Cpp.shiftHistory _ _ _ else _) = if commitMiss e then _ else _
    rw [hglobal, hmiss]
  · show Cpp.shiftHistory _ _ _ = if commitValid e && commitIsBranch e then _ else _
    rw [hglobal, hvalid, hbranch]
    rfl
  · have haddr : s.gshareGlobalHistoryRetired ^^^ Cpp.BranchPredictor.gsharePc (commitPc e) =
        gsharePhtWriteAddr s e := by
      rw [gsharePc_eq]
      rfl
    show Cpp.setEntry s.gsharePht (s.gshareGlobalHistoryRetired ^^^ _)
      (Cpp.countJump _ (s.gsharePht (s.gshareGlobalHistoryRetired ^^^ _))) = _
    rw [haddr, countJump_table _ (hbounded.gsharePht _)]
    show _ = tableNext _ (gsharePhtWe s e) _ _
    rw [gsharePhtWe, hvalid, hbranch]
    rfl
  · funext i
    show (if !commitHit e then Cpp.setEntry _ _ _ else _) i = if commitMiss e && _ then _ else _
    rw [hmiss, localPc_eq]
    cases commitHit e
    · show (if i = localBhtWriteAddr e then Cpp.shiftHistory _ (s.localBhtRetired (localBhtWriteAddr e)) _
        else s.localBht i) = if decide (localBhtWriteAddr e = i) then _ else _
      rw [hlocal]
      by_cases hi : localBhtWriteAddr e = i
      · rw [if_pos hi.symm, decide_eq_true hi, if_pos rfl, hi]
      · rw [if_neg (Ne.symm hi), decide_eq_false hi, if_neg Bool.false_ne_true]
    · rfl
  · funext i
    show Cpp.setEntry _ _ _ i = if commitValid e && commitIsBranch e && _ then _ else _
    rw [hvalid, hbranch, localPc_eq]
    show (if i = localBhtWriteAddr e then Cpp.shiftHistory _ (s.localBhtRetired (localBhtWriteAddr e)) _
      else s.localBhtRetired i) = if decide (localBhtWriteAddr e = i) then _ else _
    rw [hlocal]
    by_cases hi : localBhtWriteAddr e = i
    · rw [if_pos hi.symm, decide_eq_true hi, if_pos rfl, hi]
    · rw [if_neg (Ne.symm hi), decide_eq_false hi, if_neg Bool.false_ne_true]
  · have haddr : s.localBhtRetired (Cpp.BranchPredictor.localPc (commitPc e)) ^^^
        Cpp.BranchPredictor.localPc (commitPc e) = localPhtWriteAddr s e := by
      rw [localPc_eq]
      rfl
    show Cpp.setEntry s.localPht (s.localBhtRetired (Cpp.BranchPredictor.localPc (commitPc e)) ^^^ _)
      (Cpp.countJump _ (s.localPht (s.localBhtRetired
        (Cpp.BranchPredictor.localPc (commitPc e)) ^^^ _))) = _
    rw [haddr, countJump_table _ (hbounded.localPht _)]
    show _ = tableNext _ (localPhtWe s e) _ _
    rw [localPhtWe, hvalid, hbranch]
    rfl
  · have haddr : (if !commitHit e then
          Cpp.shiftHistory Cpp.gsharePcP1AddrWidth s.gshareGlobalHistoryRetired (commitJump e)
        else s.gshareGlobalHistory) ^^^ Cpp.BranchPredictor.gsharePc (commitPc e) =
          cphtWriteAddr s e := by
      rw [gsharePc_eq, hglobal, ← hmiss]
      rfl
    show Cpp.setEntry s.cpht ((if !commitHit e then Cpp.shiftHistory _ _ _ else _) ^^^ _)
      (Cpp.BranchPredictor.cphtCount _ (s.cpht
        ((if !commitHit e then Cpp.shiftHistory _ _ _ else _) ^^^ _))) = _
    rw [haddr, cphtCount_table _ (hbounded.cpht _)]
    show _ = tableNext _ (cphtWe s e) _ _
    rw [cphtWe, hvalid, hbranch]
    rfl
  · show _ = if anyBit _ _ && commitIsCall e then _ else _
    rw [hcall, Bool.and_false]
    rfl
  · show _ = tableNext _ (commitValid e && commitIsCall e) _ _
    rw [hcall, Bool.and_false, tableNext_none]
    rfl
  · show _ = if commitValid e && commitIsNormalJump e then _ else _
    rw [hnormal, Bool.and_false]
    rfl
  · show _ = tableNext _ (commitValid e && commitIsNormalJump e) _ _
    rw [hnormal, Bool.and_false, tableNext_none]
    rfl

/-- `jalr` trains the cache its registers choose. -/
theorem updatePrediction_jalr (p : Cpp.BranchPredictor) {pc word nextPc : Nat} {jump hit : Bool}
    (hword : isJalrWord word = true) :
    p.updatePrediction pc word jump nextPc hit =
      if isCallWord word then p.callUpdatePrediction pc jump nextPc
      else if isNormalJumpWord word then p.normalUpdatePrediction pc jump nextPc
      else p := by
  have hopcode : Cpp.decOpcode word = 0x67 := (decOpcode_eq _).trans (of_decide_eq_true hword)
  rw [Cpp.BranchPredictor.updatePrediction, hopcode, if_neg (by decide), if_pos rfl, isCallWord,
    isNormalJumpWord, hword, decRd_eq, decRs1_eq]
  show (if isLink (wordRd word) then (if isLink (wordRs1 word) then _ else _) else
    if isLink (wordRs1 word) then _ else _) = _
  cases isLink (wordRd word) <;> cases isLink (wordRs1 word)
  · rfl
  · rfl
  · rfl
  · by_cases hsame : wordRs1 word = wordRd word
    · rw [decide_eq_true hsame, if_pos hsame]
      rfl
    · rw [decide_eq_false hsame, if_neg hsame]
      rfl

theorem not_call_and_normal (word : Nat) (h : isCallWord word = true) :
    isNormalJumpWord word = false := by
  have hlink : isLink (wordRd word) = true := by
    simp only [isCallWord, Bool.and_eq_true] at h
    exact h.1.2
  rw [isNormalJumpWord, hlink, Bool.not_true, Bool.and_false, Bool.false_and]

theorem committedState_notBranch (h : (commitValid e && commitIsBranch e) = false) :
    committedState s e =
      { s with
        callGlobalHistory := callGlobalHistoryNext s e
        callTargetCache :=
          tableNext s.callTargetCache (callTargetCacheWe e) (callTargetCacheWriteAddr s e)
            (commitNextPc e)
        normalGlobalHistory := normalGlobalHistoryNext s e
        normalTargetCache :=
          tableNext s.normalTargetCache (normalTargetCacheWe e) (normalTargetCacheWriteAddr s e)
            (commitNextPc e) } := by
  have hmiss : commitMiss e = false := by
    rw [commitMiss, Bool.and_assoc, Bool.and_comm (!commitHit e), ← Bool.and_assoc, h,
      Bool.false_and]
  have hbht : localBhtRetiredNext s e = s.localBhtRetired := by
    funext i
    rw [localBhtRetiredNext, h, Bool.false_and, if_neg Bool.false_ne_true]
  rw [committedState, hmiss, gshareGlobalHistoryRetiredNext, gsharePhtWe, localPhtWe, cphtWe, h,
    hbht]
  rfl

theorem committedState_none (h : commitValid e = false) : committedState s e = s := by
  have hany : anyBit commitWidth e.commitBpValid = false :=
    Bool.eq_false_iff.mpr fun hany => Bool.false_ne_true (h.symm.trans (commitValid_iff.mpr hany))
  rw [committedState_notBranch (by rw [h, Bool.false_and]), callGlobalHistoryNext, hany,
    callTargetCacheWe, h, normalGlobalHistoryNext, normalTargetCacheWe, h]
  rfl

/-- The update of one retired instruction of the C++ model. -/
theorem updatePrediction_agrees (h : TablesAgree s p) (hbounded : CountersBounded s)
    (hvalid : commitValid e = true) :
    TablesAgree (committedState s e)
      (p.updatePrediction (commitPc e) (commitInstruction e) (commitJump e) (commitNextPc e)
        (commitHit e)) := by
  cases hbranch : commitIsBranch e with
  | true => exact updatePrediction_branch h hbounded hvalid hbranch
  | false =>
      have hany : anyBit commitWidth e.commitBpValid = true := commitValid_iff.mp hvalid
      rw [committedState_notBranch (by rw [hbranch, Bool.and_false]), callGlobalHistoryNext,
        callTargetCacheWe, normalGlobalHistoryNext, normalTargetCacheWe, hvalid, hany]
      simp only [Bool.true_and]
      cases hjalr : isJalrWord (commitInstruction e) with
      | false =>
          have hcall : commitIsCall e = false := by rw [commitIsCall, isCallWord, hjalr]; rfl
          have hnormal : commitIsNormalJump e = false := by
            rw [commitIsNormalJump, isNormalJumpWord, hjalr]
            rfl
          have hbranch' : ¬ Cpp.decOpcode (commitInstruction e) = 0x63 := by
            rw [decOpcode_eq]
            exact of_decide_eq_false hbranch
          have hjalr' : ¬ Cpp.decOpcode (commitInstruction e) = 0x67 := by
            rw [decOpcode_eq]
            exact of_decide_eq_false hjalr
          rw [Cpp.BranchPredictor.updatePrediction, if_neg hbranch', if_neg hjalr', hcall, hnormal]
          exact h
      | true =>
          rw [updatePrediction_jalr p hjalr]
          show TablesAgree _ (if commitIsCall e then p.callUpdatePrediction _ _ _ else
            if commitIsNormalJump e then p.normalUpdatePrediction _ _ _ else p)
          cases hcall : commitIsCall e with
          | true =>
              have hnormal : commitIsNormalJump e = false := not_call_and_normal _ hcall
              rw [hnormal, if_pos rfl]
              refine { h with call := ?_, callCache := ?_ }
              · show Cpp.shiftHistory _ p.callGlobalHistory _ = historyShift _ _ _
                rw [shiftHistory_eq, h.call]
                rfl
              · show Cpp.setEntry p.callTargetCache (p.callGlobalHistory ^^^ _) _ = tableNext _ _ _ _
                rw [callPc_eq, h.call, h.callCache, tableNext_write]
                rfl
          | false =>
              rw [if_neg Bool.false_ne_true]
              cases hnormal : commitIsNormalJump e with
              | true =>
                  rw [if_pos rfl]
                  refine { h with normal := ?_, normalCache := ?_ }
                  · show Cpp.shiftHistory _ p.normalGlobalHistory _ = historyShift _ _ _
                    rw [shiftHistory_eq, h.normal]
                    rfl
                  · show Cpp.setEntry p.normalTargetCache (p.normalGlobalHistory ^^^ _) _ =
                      tableNext _ _ _ _
                    rw [normalPc_eq, h.normal, h.normalCache, tableNext_write]
                    rfl
              | false =>
                  rw [if_neg Bool.false_ne_true]
                  exact h

/-- A fold over channels of which at most one acts. -/
theorem foldl_one {α : Type} (f : α → Nat → α) (a : α) {l : List Nat} {k : Nat} (hnodup : l.Nodup)
    (hmem : k ∈ l) (hother : ∀ a i, i ∈ l → i ≠ k → f a i = a) : l.foldl f a = f a k := by
  have hquiet : ∀ (l : List Nat) (a : α), (∀ a i, i ∈ l → f a i = a) → l.foldl f a = a := by
    intro l
    induction l with
    | nil => exact fun _ _ => rfl
    | cons i l ih =>
        intro a h
        rw [List.foldl_cons, h a i (List.mem_cons_self ..)]
        exact ih a fun a j hj => h a j (List.mem_cons_of_mem _ hj)
  induction l generalizing a with
  | nil => exact absurd hmem (List.not_mem_nil)
  | cons i l ih =>
      rw [List.nodup_cons] at hnodup
      rw [List.foldl_cons]
      by_cases hi : i = k
      · rw [hi] at hnodup ⊢
        exact hquiet l _ fun a j hj =>
          hother a j (List.mem_cons_of_mem _ hj) fun hjk => hnodup.1 (hjk ▸ hj)
      · rw [hother a i (List.mem_cons_self ..) hi]
        exact ih a hnodup.2 ((List.mem_cons.mp hmem).resolve_left (Ne.symm hi)) fun a j hj =>
          hother a j (List.mem_cons_of_mem _ hj)

theorem commitIndex_lt : commitIndex e < commitWidth :=
  Nat.lt_of_le_of_lt (firstIndexTemp_le _ _) (by decide)

/-- Commit's calls in a cycle are that of the channel the hardware selects. -/
theorem cppCommitted_agrees (h : TablesAgree s p) (hbounded : CountersBounded s)
    (hone : ∀ i, i < commitWidth → ∀ j, j < commitWidth → e.commitBpValid i = true →
      e.commitBpValid j = true → i = j) :
    TablesAgree (committedState s e) (cppCommitted p e) := by
  have hfold : cppCommitted p e = cppCommitChannel e p (commitIndex e) := by
    refine foldl_one _ p List.nodup_range (List.mem_range.mpr commitIndex_lt) ?_
    intro a i hi hne
    rw [List.mem_range] at hi
    cases hvalid : e.commitBpValid i with
    | false => rw [cppCommitChannel, hvalid, if_neg Bool.false_ne_true]
    | true =>
        have hindex : commitValid e = true := commitValid_iff.mpr (anyBit_iff.mpr ⟨i, hi, hvalid⟩)
        exact absurd (hone i hi _ commitIndex_lt hvalid hindex) hne
  rw [hfold, cppCommitChannel]
  cases hvalid : commitValid e with
  | true =>
      rw [show e.commitBpValid (commitIndex e) = true from hvalid, if_pos rfl]
      exact updatePrediction_agrees h hbounded hvalid
  | false =>
      rw [show e.commitBpValid (commitIndex e) = false from hvalid, if_neg Bool.false_ne_true,
        committedState_none hvalid]
      exact h

end Commit

/-! ## Execute -/

section Execute

variable {t : BranchPredictorState} {e : PredictorEvents} {p : Cpp.BranchPredictor}

theorem executed_agrees (h : TablesAgree t p) :
    TablesAgree (executedState t e)
      (if e.exbruBpValid then
        p.updatePredictionBruGuess ⟨e.exbruBpCp.globalHistory, e.exbruBpCp.localHistory⟩ e.exbruBpPc
          e.exbruBpInstruction e.exbruBpJump e.exbruBpHit
      else p) := by
  cases hmiss : exbruMiss e with
  | false =>
      have hkeeps : (if e.exbruBpValid then
          p.updatePredictionBruGuess ⟨e.exbruBpCp.globalHistory, e.exbruBpCp.localHistory⟩ e.exbruBpPc
            e.exbruBpInstruction e.exbruBpJump e.exbruBpHit
          else p) = p := by
        cases hvalid : e.exbruBpValid with
        | false => rw [if_neg Bool.false_ne_true]
        | true =>
            rw [if_pos rfl, Cpp.BranchPredictor.updatePredictionBruGuess, decOpcode_eq]
            cases hhit : e.exbruBpHit with
            | true => exact ite_self _
            | false =>
                have hword : isBranchWord e.exbruBpInstruction = false := by
                  rw [exbruMiss, hvalid, hhit] at hmiss
                  exact hmiss
                rw [if_neg (of_decide_eq_false hword)]
      have hsame : executedState t e = t := by
        rw [executedState, hmiss]
        rfl
      rw [hkeeps, hsame]
      exact h
  | true =>
      have hparts := hmiss
      simp only [exbruMiss, Bool.and_eq_true, Bool.not_eq_true'] at hparts
      obtain ⟨⟨hvalid, hhit⟩, hword⟩ := hparts
      rw [hvalid, if_pos rfl, Cpp.BranchPredictor.updatePredictionBruGuess, decOpcode_eq,
        if_pos (of_decide_eq_true hword), hhit, executedState, hmiss]
      refine { h with global := ?_, localBht := ?_ }
      · exact shiftHistory_eq _ _ _
      · funext i
        show Cpp.setEntry p.localBht _ (Cpp.shiftHistory _ _ _) i =
          if true && decide (localGetPcP1 e.exbruBpPc = i) then _ else _
        rw [localPc_eq, shiftHistory_eq, Cpp.setEntry, h.localBht, Bool.true_and]
        by_cases hi : localGetPcP1 e.exbruBpPc = i
        · rw [if_pos hi.symm, decide_eq_true hi, if_pos rfl]
          rfl
        · rw [if_neg (Ne.symm hi), decide_eq_false hi, if_neg Bool.false_ne_true]

end Execute

/-! ## Prediction -/

section Prediction

variable {s : BranchPredictorState} {e : PredictorEvents} {p : Cpp.BranchPredictor}

/-- The history past the bypasses is that of the trained state. -/
theorem bpFetchLocalHistory_eq :
    bpFetchLocalHistory s e = (trainedState s e).localBht (localGetPcP1 e.fetchBpPc) := by
  show _ = if exbruMiss e && decide (localGetPcP1 e.exbruBpPc = localGetPcP1 e.fetchBpPc) then _ else
    if commitMiss e && decide (localBhtWriteAddr e = localGetPcP1 e.fetchBpPc) then
      commitLocalHistory s e (localGetPcP1 e.fetchBpPc) else _
  rw [bpFetchLocalHistory]
  by_cases hi : localBhtWriteAddr e = localGetPcP1 e.fetchBpPc
  · rw [hi]
  · rw [decide_eq_false hi, Bool.and_false, if_neg Bool.false_ne_true, if_neg Bool.false_ne_true]

variable (h : TablesAgree (trainedState s e) p)

include h

theorem gsharePrediction_eq : p.gshareGetPrediction e.fetchBpPc = gshareJump s e := by
  rw [Cpp.BranchPredictor.gshareGetPrediction, gsharePc_eq, h.global, h.gsharePht, gshareJump,
    dataFix_eq]
  rfl

theorem localPrediction_eq : p.localGetPrediction e.fetchBpPc = localJump s e := by
  rw [Cpp.BranchPredictor.localGetPrediction, localPc_eq, h.localBht, h.localPht, localJump,
    dataFix_eq, bpFetchLocalHistory_eq]
  rfl

theorem cphtPrediction_eq :
    p.cphtGetPrediction e.fetchBpPc = decide (cphtDataFix s e ≤ 1) := by
  rw [Cpp.BranchPredictor.cphtGetPrediction, gsharePc_eq, h.global, h.cpht, cphtDataFix, dataFix_eq]
  rfl

theorem callPrediction_eq : p.callGetPrediction e.fetchBpPc = callNextPc s e := by
  rw [Cpp.BranchPredictor.callGetPrediction, callPc_eq, h.call, h.callCache, callNextPc, dataFix_eq]
  rfl

theorem normalPrediction_eq : p.normalGetPrediction e.fetchBpPc = normalNextPc s e := by
  rw [Cpp.BranchPredictor.normalGetPrediction, normalPc_eq, h.normal, h.normalCache, normalNextPc,
    dataFix_eq]
  rfl

theorem saved_eq : p.save e.fetchBpPc = rtlSaved s e := by
  rw [Cpp.BranchPredictor.save, Cpp.BranchPredictor.localGetBhtValue, localPc_eq, h.global,
    h.localBht, rtlSaved, bpFetchLocalHistory_eq]
  rfl

/-- A branch with a known condition. -/
theorem branchPrediction_eq (hword : isBranchWord e.fetchBpInstruction = true)
    (hknown : wordFunct3 e.fetchBpInstruction ≠ 2 ∧ wordFunct3 e.fetchBpInstruction ≠ 3)
    (rasAddr : Nat) :
    p.getBranchPrediction e.fetchBpPc e.fetchBpInstruction =
      some (bpFetchJump s e, bpFetchNextPc s e rasAddr) := by
  have hlt : wordFunct3 e.fetchBpInstruction < 8 := wordFunct3_lt _
  have hjump : (if !p.cphtGetPrediction e.fetchBpPc then p.localGetPrediction e.fetchBpPc
      else p.gshareGetPrediction e.fetchBpPc) = bpFetchJump s e := by
    rw [cphtPrediction_eq h, gsharePrediction_eq h, localPrediction_eq h, bpFetchJump, hword,
      if_pos rfl]
    by_cases hchoice : cphtDataFix s e ≤ 1
    · rw [decide_eq_true hchoice, if_pos hchoice]
      rfl
    · rw [decide_eq_false hchoice, if_neg hchoice]
      rfl
  have hnext : branchNextPc e (bpFetchJump s e) = bpFetchNextPc s e rasAddr := by
    rw [bpFetchJump, bpFetchNextPc, hword, if_pos rfl, if_pos rfl]
    split <;> rfl
  rw [Cpp.BranchPredictor.getBranchPrediction, hjump, decFunct3_eq, if_pos (by omega), cppImmB,
    ← hnext]
  rfl

end Prediction

section Asked

variable {s : BranchPredictorState} {e : PredictorEvents} {p : Cpp.BranchPredictor} {ras : RasState}

theorem popAddr_addr (r : Cpp.Ras) : r.popAddr.2 = r.bpAddr := by
  rw [Cpp.Ras.popAddr, Cpp.Ras.bpAddr]
  cases r.getTop with
  | none => rfl
  | some top =>
      show (if top.cnt = 1 then _ else _ : Cpp.Ras × Nat).2 = top.addr
      split <;> rfl

/-- The cycle of the return stack by what the word pushes and pops. -/
theorem rasCycle_cases (r : Cpp.Ras) (addr : Nat) (push pop : Bool) :
    Cpp.rasCycle Cpp.rasSize r ⟨addr, push, pop⟩ =
      if push then (if pop then r.popAddr.1 else r).pushAddr Cpp.rasSize addr
      else if pop then r.popAddr.1 else r := rfl

theorem jalrPrediction_eq (h : TablesAgree (trainedState s e) p) (hras : RasAgrees ras p.mainRas)
    (hvalid : e.fetchBpValid = true) (hword : isJalrWord e.fetchBpInstruction = true) :
    p.getJalrPrediction e.fetchBpPc e.fetchBpInstruction =
      ({ p with mainRas := Cpp.rasCycle Cpp.rasSize p.mainRas (predictorRasInput e) },
        rtlPrediction s ras e) := by
  have hopcode : wordOpcode e.fetchBpInstruction = 0x67 := of_decide_eq_true hword
  have hbranch : isBranchWord e.fetchBpInstruction = false := by
    rw [isBranchWord, hopcode]
    rfl
  have hjal : isJalWord e.fetchBpInstruction = false := by
    rw [isJalWord, hopcode]
    rfl
  have haddr : p.popAddr.2 = rasBpAddr ras := (popAddr_addr _).trans hras.bpAddr
  have hprediction : rtlPrediction s ras e = some (true,
      if isCallWord e.fetchBpInstruction then callNextPc s e
      else if isNormalJumpWord e.fetchBpInstruction then normalNextPc s e
      else rasBpAddr ras) := by
    rw [rtlPrediction, bpFetchValid, hvalid, hword, hbranch, hjal]
    show some (bpFetchJump s e, bpFetchNextPc s e (rasBpAddr ras)) = _
    rw [bpFetchJump, bpFetchNextPc, hbranch, hjal, hword]
    rfl
  rw [hprediction, predictorRasInput, bpRasPush, bpRasPop, hvalid, hword, hjal, rasCycle_cases,
    Cpp.BranchPredictor.getJalrPrediction, decRd_eq, decRs1_eq, callPrediction_eq h,
    normalPrediction_eq h, haddr, isCallWord, isNormalJumpWord, hword]
  show (if isLink (wordRd e.fetchBpInstruction) then
      (if isLink (wordRs1 e.fetchBpInstruction) then _ else _) else
    if isLink (wordRs1 e.fetchBpInstruction) then _ else _) = _
  cases isLink (wordRd e.fetchBpInstruction) <;> cases isLink (wordRs1 e.fetchBpInstruction)
  · rfl
  · rfl
  · rfl
  · by_cases hsame : wordRs1 e.fetchBpInstruction = wordRd e.fetchBpInstruction
    · rw [decide_eq_true hsame, decide_eq_false (not_not.mpr hsame), if_pos hsame]
      rfl
    · rw [decide_eq_false hsame, decide_eq_true hsame, if_neg hsame]
      rfl

/-- What `get_prediction` returns and what it does to the return stack. -/
theorem getPrediction_eq (h : TablesAgree (trainedState s e) p) (hras : RasAgrees ras p.mainRas)
    (hvalid : e.fetchBpValid = true) (hknown : KnownBranch e) :
    p.getPrediction e.fetchBpPc e.fetchBpInstruction =
      ({ p with mainRas := Cpp.rasCycle Cpp.rasSize p.mainRas (predictorRasInput e) },
        rtlPrediction s ras e) := by
  rw [Cpp.BranchPredictor.getPrediction, decOpcode_eq]
  by_cases hjal : wordOpcode e.fetchBpInstruction = 0x6f
  · rw [if_pos hjal, rtlPrediction, bpFetchValid, hvalid, bpFetchJump, bpFetchNextPc,
      predictorRasInput, bpRasPush, bpRasPop, hvalid, isJalWord, isJalrWord, isBranchWord, hjal,
      rasCycle_cases, decRd_eq, cppImmJ]
    show (if isLink (wordRd e.fetchBpInstruction) then _ else _, _) = _
    cases isLink (wordRd e.fetchBpInstruction) <;> rfl
  rw [if_neg hjal]
  by_cases hjalr : wordOpcode e.fetchBpInstruction = 0x67
  · rw [if_pos hjalr]
    exact jalrPrediction_eq h hras hvalid (decide_eq_true hjalr)
  rw [if_neg hjalr]
  have hras' : Cpp.rasCycle Cpp.rasSize p.mainRas (predictorRasInput e) = p.mainRas := by
    rw [predictorRasInput, bpRasPush, bpRasPop, isJalWord, isJalrWord, decide_eq_false hjal,
      decide_eq_false hjalr, hvalid]
    rfl
  rw [hras']
  by_cases hbranch : wordOpcode e.fetchBpInstruction = 0x63
  · have hword : isBranchWord e.fetchBpInstruction = true := decide_eq_true hbranch
    rw [if_pos hbranch, branchPrediction_eq h hword (hknown hvalid hword) (rasBpAddr ras),
      rtlPrediction, bpFetchValid, hvalid, hword, Bool.or_true]
    rfl
  · rw [if_neg hbranch, rtlPrediction, bpFetchValid, isJalWord, isJalrWord, isBranchWord,
      decide_eq_false hjal, decide_eq_false hjalr, decide_eq_false hbranch, Bool.or_false,
      Bool.or_false, Bool.and_false, if_neg Bool.false_ne_true]

end Asked

/-! ## Fetch, and the whole cycle -/

section Cycle

variable {s t : BranchPredictorState} {e : PredictorEvents} {p : Cpp.BranchPredictor}
  {ras : RasState}

theorem fetched_agrees (h : TablesAgree t p) (jump : Bool) :
    TablesAgree (if isBranchWord e.fetchBpInstruction then fetchedState t e jump else t)
      (p.updatePredictionGuess e.fetchBpPc e.fetchBpInstruction jump) := by
  rw [Cpp.BranchPredictor.updatePredictionGuess, decOpcode_eq]
  by_cases hword : wordOpcode e.fetchBpInstruction = 0x63
  · rw [if_pos hword, isBranchWord, decide_eq_true hword, if_pos rfl]
    refine { h with global := ?_, localBht := ?_ }
    · show Cpp.shiftHistory _ p.gshareGlobalHistory _ = historyShift _ _ _
      rw [shiftHistory_eq, h.global]
      rfl
    · funext i
      show Cpp.setEntry p.localBht _ (Cpp.shiftHistory _ (p.localBht _) _) i =
        if localGetPcP1 e.fetchBpPc = i then historyShift _ _ _ else _
      rw [localPc_eq, shiftHistory_eq, Cpp.setEntry, h.localBht]
      by_cases hi : localGetPcP1 e.fetchBpPc = i
      · rw [if_pos hi.symm, if_pos hi, hi]
        rfl
      · rw [if_neg (Ne.symm hi), if_neg hi]
  · rw [if_neg hword, isBranchWord, decide_eq_false hword, if_neg Bool.false_ne_true]
    exact h

/-- The hardware's next state is that of the updates one after another. -/
theorem branchPredictorNext_eq (hquiet : commitMiss e = true → e.fetchBpValid = false) :
    branchPredictorNext s (predictorPorts s ras e) =
      if bpFetchValid e && isBranchWord e.fetchBpInstruction then
        fetchedState (trainedState s e) e (bpFetchJump s e)
      else trainedState s e := by
  have hupdates : fetchUpdates (predictorPorts s ras e) =
      (bpFetchValid e && isBranchWord e.fetchBpInstruction) := rfl
  cases hfetch : bpFetchValid e && isBranchWord e.fetchBpInstruction with
  | false =>
      rw [hfetch] at hupdates
      have hglobal : gshareGlobalHistoryNext s (predictorPorts s ras e) =
          (trainedState s e).gshareGlobalHistory := by
        rw [gshareGlobalHistoryNext, hupdates, if_neg Bool.false_ne_true]
        rfl
      have hlocal : localBhtNext s (predictorPorts s ras e) = (trainedState s e).localBht := by
        funext i
        rw [localBhtNext, hupdates, Bool.false_and, if_neg Bool.false_ne_true]
        rfl
      rw [branchPredictorNext, hglobal, hlocal, if_neg Bool.false_ne_true]
      rfl
  | true =>
      rw [hfetch] at hupdates
      have hmiss : commitMiss e = false := by
        have hasked : e.fetchBpValid = true := by
          simp only [bpFetchValid, Bool.and_eq_true] at hfetch
          exact hfetch.1.1
        exact Bool.eq_false_iff.mpr fun hmiss =>
          Bool.false_ne_true ((hquiet hmiss).symm.trans hasked)
      have hglobal : gshareGlobalHistoryNext s (predictorPorts s ras e) =
          historyShift gsharePcP1AddrWidth (trainedState s e).gshareGlobalHistory
            (bpFetchJump s e) := by
        show _ = historyShift _ (if exbruMiss e then _ else if commitMiss e then _ else _) _
        rw [gshareGlobalHistoryNext, hupdates, if_pos rfl, hmiss, if_neg Bool.false_ne_true]
        show (if exbruMiss e then _ else _) = _
        split <;> rfl
      have hlocal : localBhtNext s (predictorPorts s ras e) =
          (fetchedState (trainedState s e) e (bpFetchJump s e)).localBht := by
        funext i
        show _ = if localGetPcP1 e.fetchBpPc = i then historyShift _
            (if exbruMiss e && decide (localGetPcP1 e.exbruBpPc = i) then _ else
              if commitMiss e && decide (localBhtWriteAddr e = i) then _ else _) _ else
          if exbruMiss e && decide (localGetPcP1 e.exbruBpPc = i) then _ else
            if commitMiss e && decide (localBhtWriteAddr e = i) then _ else _
        rw [localBhtNext, hupdates, hmiss, Bool.true_and, Bool.false_and, if_neg Bool.false_ne_true]
        show (if decide (localGetPcP1 e.fetchBpPc = i) then
            (if exbruMiss e && decide (localGetPcP1 e.exbruBpPc = i) then _ else _) else
          if exbruMiss e && decide (localGetPcP1 e.exbruBpPc = i) then _ else
            if commitMiss e && decide (localBhtWriteAddr e = i) then _ else _) = _
        rw [hmiss, Bool.false_and, if_neg Bool.false_ne_true]
        by_cases hi : localGetPcP1 e.fetchBpPc = i
        · rw [decide_eq_true hi, if_pos rfl, if_pos hi]
          split <;> rfl
        · rw [decide_eq_false hi, if_neg Bool.false_ne_true, if_neg hi]
          rfl
      rw [branchPredictorNext, hglobal, hlocal, if_pos rfl]
      rfl

end Cycle

/-! ## Every run -/

section Run

variable {s : Predictors} {e : PredictorEvents}

/-- The predictors agree, and the return stacks. -/
structure PredictorsAgree (s : Predictors) : Prop where
  tables : TablesAgree s.rtl s.cpp
  counters : CountersBounded s.rtl
  rasOk : RasOk Cpp.rasSize s.ras
  ras : RasAgrees s.ras s.cpp.mainRas

/-- The fetched branch has a known condition, and the return stacks can follow. -/
structure PredictorsFit (s : Predictors) (e : PredictorEvents) : Prop where
  known : KnownBranch e
  rasFits : RasFits Cpp.rasSize s.ras (predictorRasInput e)
  rasApart : RasKeepsApart s.ras (predictorRasInput e)

theorem tableNext_le {table : Nat → Nat} {we : Bool} {addr data : Nat} (h : ∀ i, table i ≤ 3)
    (hdata : data ≤ 3) (i : Nat) : tableNext table we addr data i ≤ 3 := by
  rw [tableNext]
  split
  · exact hdata
  · exact h i

theorem phtWriteData_le (jump : Bool) (counter : Nat) : phtWriteData jump counter ≤ 3 := by
  rw [phtWriteData]
  split <;> omega

theorem cphtWriteData_le (s : BranchPredictorState) (e : PredictorEvents) :
    cphtWriteData s e ≤ 3 := by
  rw [cphtWriteData]
  split <;> omega

theorem countersBounded_next {t : BranchPredictorState} (h : CountersBounded t)
    (x : BranchPredictorInput) : CountersBounded (branchPredictorNext t x) where
  gsharePht := tableNext_le h.gsharePht (phtWriteData_le _ _)
  localPht := tableNext_le h.localPht (phtWriteData_le _ _)
  cpht := tableNext_le h.cpht (cphtWriteData_le _ _)

theorem mainRas_updatePrediction (p : Cpp.BranchPredictor) (pc word nextPc : Nat) (jump hit : Bool) :
    (p.updatePrediction pc word jump nextPc hit).mainRas = p.mainRas := by
  rw [Cpp.BranchPredictor.updatePrediction]
  repeat' split
  all_goals rfl

theorem mainRas_committed (p : Cpp.BranchPredictor) (e : PredictorEvents) :
    (cppCommitted p e).mainRas = p.mainRas := by
  have hchannel : ∀ (a : Cpp.BranchPredictor) i, (cppCommitChannel e a i).mainRas = a.mainRas := by
    intro a i
    rw [cppCommitChannel]
    split
    · exact mainRas_updatePrediction _ _ _ _ _ _
    · rfl
  rw [cppCommitted]
  generalize List.range commitWidth = l
  induction l generalizing p with
  | nil => rfl
  | cons i l ih =>
      rw [List.foldl_cons, ih]
      exact hchannel p i

theorem mainRas_executed (p : Cpp.BranchPredictor) (e : PredictorEvents) :
    (cppExecuted p e).mainRas = p.mainRas := by
  rw [cppExecuted, ← mainRas_committed p e]
  split
  · rw [Cpp.BranchPredictor.updatePredictionBruGuess,
      Cpp.BranchPredictor.localUpdatePredictionBruFix,
      Cpp.BranchPredictor.gshareGlobalHistoryUpdateBruFix]
    repeat' split
    all_goals rfl
  · rfl

theorem executed_trained (h : PredictorsAgree s) (hevents : EventsPromised e) :
    TablesAgree (trainedState s.rtl e) (cppExecuted s.cpp e) :=
  executed_agrees (cppCommitted_agrees h.tables h.counters hevents.oneCommit)

/-- Before fetch hands its prediction back. -/
theorem cppAsked_eq (h : PredictorsAgree s) (hevents : EventsPromised e) (hfit : PredictorsFit s e) :
    cppAsked s.cpp e =
      ({ cppExecuted s.cpp e with
          mainRas := Cpp.rasCycle Cpp.rasSize s.cpp.mainRas (predictorRasInput e) },
        rtlPrediction s.rtl s.ras e) := by
  have htrained := executed_trained h hevents
  have hmain := mainRas_executed s.cpp e
  rw [cppAsked]
  cases hvalid : e.fetchBpValid with
  | true =>
      rw [if_pos rfl, getPrediction_eq htrained (hmain ▸ h.ras) hvalid hfit.known, hmain]
  | false =>
      have hidle : Cpp.rasCycle Cpp.rasSize s.cpp.mainRas (predictorRasInput e) =
          s.cpp.mainRas := by
        rw [predictorRasInput, bpRasPush, bpRasPop, hvalid]
        rfl
      rw [if_neg Bool.false_ne_true, hidle, ← hmain, rtlPrediction, bpFetchValid, hvalid,
        Bool.false_and, if_neg Bool.false_ne_true]

theorem samePrediction_of_agree (h : PredictorsAgree s) (hevents : EventsPromised e)
    (hfit : PredictorsFit s e) : SamePrediction s e := by
  refine ⟨?_, fun _ => ?_⟩
  · rw [cppPrediction, cppAsked_eq h hevents hfit]
  · have htrained := executed_trained h hevents
    rw [cppSaved, cppAsked_eq h hevents hfit]
    exact saved_eq { htrained with }

theorem predictorsAgree_next (h : PredictorsAgree s) (hevents : EventsPromised e)
    (hfit : PredictorsFit s e) : PredictorsAgree (predictorsNext s e) := by
  have hdepth : 0 < Cpp.rasSize := by decide
  have htrained := executed_trained h hevents
  have hras : RasAgrees (rasNext Cpp.rasSize s.ras (predictorRasInput e))
      (Cpp.rasCycle Cpp.rasSize s.cpp.mainRas (predictorRasInput e)) :=
    rasAgrees_next h.rasOk h.ras hfit.rasFits hfit.rasApart hdepth
  have hasked : TablesAgree (trainedState s.rtl e) (cppAsked s.cpp e).1 := by
    rw [cppAsked_eq h hevents hfit]
    exact { htrained with }
  have hmain : (cppFetched s.cpp e).mainRas =
      Cpp.rasCycle Cpp.rasSize s.cpp.mainRas (predictorRasInput e) := by
    rw [cppFetched, cppAsked_eq h hevents hfit]
    split
    · rw [Cpp.BranchPredictor.updatePredictionGuess]
      split <;> rfl
    · rfl
  refine ⟨?_, countersBounded_next h.counters _, (rasStack_next h.rasOk hfit.rasFits hdepth).2, ?_⟩
  · show TablesAgree (branchPredictorNext s.rtl (predictorPorts s.rtl s.ras e)) (cppFetched s.cpp e)
    rw [branchPredictorNext_eq hevents.quiet, cppFetched, cppPrediction,
      show (cppAsked s.cpp e).2 = rtlPrediction s.rtl s.ras e by rw [cppAsked_eq h hevents hfit],
      rtlPrediction]
    cases hvalid : bpFetchValid e with
    | false => exact hasked
    | true => exact fetched_agrees hasked _
  · show RasAgrees _ (cppFetched s.cpp e).mainRas
    rw [hmain]
    exact hras

theorem predictorsAgree_reset {p : Cpp.BranchPredictor} (hcold : p.localBhtRetired = fun _ => 0) :
    PredictorsAgree (predictorsReset p) where
  tables := ⟨rfl, rfl, rfl, rfl, hcold, rfl, rfl, rfl, rfl, rfl, rfl⟩
  counters := ⟨fun _ => Nat.zero_le _, fun _ => Nat.zero_le _, fun _ => Nat.zero_le _⟩
  rasOk := rasOk_reset _
  ras := ⟨rfl, fun i hi => absurd hi (Nat.not_lt_zero i), fun _ => rfl⟩

/-- In every run of cycles that fit, the C++ model predicts what the hardware predicts and
saves the same histories. -/
theorem predictors_agree {p : Cpp.BranchPredictor} (hcold : p.localBhtRetired = fun _ => 0)
    (events : List PredictorEvents)
    (hfit : Along predictorsNext (fun s e => EventsPromised e ∧ PredictorsFit s e)
      (predictorsReset p) events) :
    Along predictorsNext SamePrediction (predictorsReset p) events := by
  have hstep : ∀ s e, PredictorsAgree s → EventsPromised e ∧ PredictorsFit s e →
      PredictorsAgree (predictorsNext s e) :=
    fun s e h hfit => predictorsAgree_next h hfit.1 hfit.2
  exact Along.mono (fun s e h => samePrediction_of_agree h.1 h.2.1 h.2.2)
    (Along.strengthen hstep (predictorsAgree_reset hcold) hfit)

end Run

instance (e : PredictorEvents) : Decidable (EventsPromised e) :=
  decidable_of_iff _ (⟨fun h => ⟨h.1, h.2⟩, fun h => ⟨h.1, h.2⟩⟩ :
    ((∀ i, i < commitWidth → ∀ j, j < commitWidth → e.commitBpValid i = true →
      e.commitBpValid j = true → i = j) ∧ (commitMiss e = true → e.fetchBpValid = false)) ↔ _)

instance (e : PredictorEvents) : Decidable (KnownBranch e) :=
  inferInstanceAs (Decidable (_ → _ → _))

instance (s : Predictors) (e : PredictorEvents) : Decidable (PredictorsFit s e) :=
  decidable_of_iff _ (⟨fun h => ⟨h.1, h.2.1, h.2.2⟩, fun h => ⟨h.1, h.2, h.3⟩⟩ :
    (KnownBranch e ∧ RasFits Cpp.rasSize s.ras (predictorRasInput e) ∧
      RasKeepsApart s.ras (predictorRasInput e)) ↔ _)

/-- Fetch asks about a word; nothing executes or retires. -/
def askFor (pc word : Nat) : PredictorEvents where
  fetchBpPc := pc
  fetchBpInstruction := word
  fetchBpValid := true
  exbruBpCp := ⟨fun _ => false, fun _ => false, 0, 0⟩
  exbruBpPc := 0
  exbruBpInstruction := 0
  exbruBpJump := false
  exbruBpHit := false
  exbruBpValid := false
  commitBpPc := fun _ => 0
  commitBpInstruction := fun _ => 0
  commitBpJump := fun _ => false
  commitBpNextPc := fun _ => 0
  commitBpHit := fun _ => false
  commitBpValid := fun _ => false

/-- The predictor of the C++ model when the program starts. -/
def coldPredictor : Cpp.BranchPredictor :=
  Cpp.BranchPredictor.reset ⟨0, 0, fun _ => 0, fun _ => 0, fun _ => 0, fun _ => 0, fun _ => 0,
    Cpp.Ras.reset fun _ => ⟨0, 0⟩, 0, fun _ => 0, 0, fun _ => 0⟩

/-- A call, a branch in the function that retires as mispredicted, and the return. -/
def callAndReturn : List PredictorEvents :=
  [askFor 0x80000000 0x008000ef, askFor 0x80000008 0x00a58463,
    { askFor 0 0 with
      fetchBpValid := false
      commitBpPc := fun _ => 0x80000008
      commitBpInstruction := fun _ => 0x00a58463
      commitBpJump := fun _ => true
      commitBpNextPc := fun _ => 0x80000010
      commitBpValid := fun i => decide (i = 1) },
    askFor 0x80000010 0x00008067]

theorem predictors_agree_callAndReturn :
    Along predictorsNext SamePrediction (predictorsReset coldPredictor) callAndReturn :=
  predictors_agree rfl callAndReturn (by decide +kernel)

/-- The hardware predicts a branch with a reserved condition, the C++ model does not. -/
theorem reserved_branch_differs :
    EventsPromised (askFor 0x80000000 0x00002063) ∧
      ¬ SamePrediction (predictorsReset coldPredictor) (askFor 0x80000000 0x00002063) := by
  refine ⟨by decide, fun h => ?_⟩
  have hnone : cppPrediction (predictorsReset coldPredictor).cpp (askFor 0x80000000 0x00002063) =
      none := by decide
  have hsome : rtlPrediction (predictorsReset coldPredictor).rtl (predictorsReset coldPredictor).ras
      (askFor 0x80000000 0x00002063) = some (false, 0x80000004) := by decide
  have heq := h.prediction
  rw [hnone, hsome] at heq
  cases heq

end DreamCore.Proofs
