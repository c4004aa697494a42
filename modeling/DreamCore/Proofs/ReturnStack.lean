import DreamCore.Cpp.Ras
import DreamCore.Lib.Clocked
import DreamCore.Lib.RunLength
import Mathlib.Tactic.SplitIfs

/-!
# The return address stack is a stack

Expanding the runs below the top pointer, a push puts an address on the stack and a pop
takes one off.  The one cycle that breaks this replaces the head of a full stack whose
head has more copies: the top pointer then leaves the buffer.
-/

namespace DreamCore.Proofs

open DreamCore.Clocked DreamCore.RunLength DreamCore.Rtl

/-! ## The abstract stack -/

/-- The stack after a cycle.  `full` tells that all entries are in use, `bottom` the number
of copies of the oldest one: a new address then takes its place. -/
def stackNext (full : Bool) (bottom : Nat) (stack : List Nat) (x : RasInput) : List Nat :=
  match x.bpRasPush, x.bpRasPop with
  | false, false => stack
  | false, true => stack.tail
  | true, true => x.bpRasAddr :: stack.tail
  | true, false =>
      if full && decide (stack.head? ≠ some x.bpRasAddr) then
        x.bpRasAddr :: stack.take (stack.length - bottom)
      else x.bpRasAddr :: stack

def rasStack (s : RasState) : List Nat := stack s.buffer s.bufferCnt s.topPtr

structure RasOk (depth : Nat) (s : RasState) : Prop where
  topPtr_le : s.topPtr ≤ depth
  counts : ∀ i, i < s.topPtr → 1 ≤ s.bufferCnt i ∧ s.bufferCnt i < 2 ^ 32

/-- The cycle does not put another address over a head with more copies on a full stack, nor
push a head whose counter is full there. -/
structure RasFits (depth : Nat) (s : RasState) (x : RasInput) : Prop where
  replace : x.bpRasPush = true → x.bpRasPop = true → s.topPtr = depth →
    x.bpRasAddr ≠ s.buffer (s.topPtr - 1) → s.bufferCnt (s.topPtr - 1) ≤ 1
  saturated : x.bpRasPush = true → x.bpRasPop = false → s.topPtr = depth →
    x.bpRasAddr = s.buffer (s.topPtr - 1) → s.bufferCnt (s.topPtr - 1) < 0xffffffff

section Step

variable {depth : Nat} {s : RasState} {x : RasInput}

theorem topPtr_wrap {n : Nat} (h : n ≤ depth) (hdepth : 0 < depth) :
    n % 2 ^ (Nat.clog 2 depth + 1) = n := by
  have hclog := Nat.le_pow_clog (by decide : 1 < 2) depth
  apply Nat.mod_eq_of_lt
  rw [Nat.pow_succ]
  omega

/-- The entries below `n` are kept. -/
def KeepsBelow (n : Nat) (s t : RasState) : Prop :=
  ∀ i, i < n → t.buffer i = s.buffer i ∧ t.bufferCnt i = s.bufferCnt i

theorem KeepsBelow.mono {n k : Nat} {s t : RasState} (h : KeepsBelow n s t) (hk : k ≤ n) :
    KeepsBelow k s t := fun i hi => h i (Nat.lt_of_lt_of_le hi hk)

/-- The address becomes a new entry on top. -/
structure Appends (s t : RasState) (addr : Nat) : Prop where
  topPtr : t.topPtr = s.topPtr + 1
  buffer : t.buffer s.topPtr = addr
  bufferCnt : t.bufferCnt s.topPtr = 1

/-- Nothing but the counter of the head changes. -/
structure Recounts (s t : RasState) : Prop where
  topPtr : t.topPtr = s.topPtr
  below : KeepsBelow (s.topPtr - 1) s t
  head : t.buffer (s.topPtr - 1) = s.buffer (s.topPtr - 1)

/-! ## What a cycle does -/

theorem rasPush_appends (hdepth : 0 < depth) (hpush : x.bpRasPush = true) (hpop : x.bpRasPop = false)
    (htop : s.topPtr < depth)
    (hnew : s.topPtr = 0 ∨
      ¬(x.bpRasAddr = s.buffer (s.topPtr - 1) ∧ s.bufferCnt (s.topPtr - 1) < 0xffffffff)) :
    Appends s (rasNext depth s x) x.bpRasAddr ∧ KeepsBelow s.topPtr s (rasNext depth s x) := by
  have hcontrol : rasControl depth s x = ⟨s.topPtr + 1, false, false, false⟩ := by
    rcases hnew with h | h <;> simp [rasControl, hpush, hpop, h, htop]
  refine ⟨⟨?_, ?_, ?_⟩, fun i hi => ⟨?_, ?_⟩⟩
  · simp only [rasNext, hcontrol, topPtr_wrap htop hdepth]
  · simp [rasNext, rasBufferNext, hcontrol, htop, rasAppend, hpush]
  · simp [rasNext, rasBufferCntNext, hcontrol, htop, rasAppend, hpush]
  · simp [rasNext, rasBufferNext, hcontrol, rasAppend, rasReplace, hpop, Nat.ne_of_lt hi]
  · simp [rasNext, rasBufferCntNext, hcontrol, rasAppend, rasReplace, hpop, Nat.ne_of_lt hi]

theorem rasPush_counts (h : RasOk depth s) (hdepth : 0 < depth) (hpush : x.bpRasPush = true)
    (hpop : x.bpRasPop = false) (htop : 0 < s.topPtr)
    (hequal : x.bpRasAddr = s.buffer (s.topPtr - 1))
    (hroom : s.bufferCnt (s.topPtr - 1) < 0xffffffff) :
    Recounts s (rasNext depth s x) ∧
      (rasNext depth s x).bufferCnt (s.topPtr - 1) = s.bufferCnt (s.topPtr - 1) + 1 := by
  have hle := h.topPtr_le
  have hcontrol : rasControl depth s x = ⟨s.topPtr, true, false, false⟩ := by
    simp [rasControl, hpush, hpop, Nat.ne_of_gt htop, hequal, hroom]
  have hhead : s.topPtr - 1 + 1 = s.topPtr := Nat.sub_add_cancel htop
  have hin : s.topPtr - 1 < depth := by omega
  have hne : ∀ i, i < s.topPtr → i ≠ s.topPtr := fun i hi => Nat.ne_of_lt hi
  refine ⟨⟨?_, fun i hi => ⟨?_, ?_⟩, ?_⟩, ?_⟩
  · simp only [rasNext, hcontrol, topPtr_wrap hle hdepth]
  · have htop' := hne i (by omega)
    simp [rasNext, rasBufferNext, hcontrol, rasAppend, rasReplace, hpop, htop']
  · have htop' := hne i (by omega)
    have hbelow := hne (i + 1) (by omega)
    simp [rasNext, rasBufferCntNext, hcontrol, rasAppend, rasReplace, hpop, htop', hbelow]
  · have htop' := hne (s.topPtr - 1) (by omega)
    simp [rasNext, rasBufferNext, hcontrol, rasAppend, rasReplace, hpop, htop']
  · simp only [rasNext, if_pos hin, rasBufferCntNext, hcontrol, hhead]
    simp only [Bool.or_false, and_self, if_true]
    omega

theorem rasPush_throws (hdepth : 0 < depth) (hpush : x.bpRasPush = true) (hpop : x.bpRasPop = false)
    (htop : s.topPtr = depth)
    (hnew : ¬(x.bpRasAddr = s.buffer (s.topPtr - 1) ∧ s.bufferCnt (s.topPtr - 1) < 0xffffffff)) :
    (rasNext depth s x).topPtr = depth ∧
      ((rasNext depth s x).buffer (depth - 1) = x.bpRasAddr ∧
        (rasNext depth s x).bufferCnt (depth - 1) = 1) ∧
      ∀ i, i < depth - 1 → (rasNext depth s x).buffer i = s.buffer (i + 1) ∧
        (rasNext depth s x).bufferCnt i = s.bufferCnt (i + 1) := by
  have hcontrol : rasControl depth s x = ⟨s.topPtr, false, true, false⟩ := by
    have hpos : s.topPtr ≠ 0 := by omega
    have hfull : ¬s.topPtr < depth := by omega
    simp only [rasControl, hpush, hpop, Bool.not_false, Bool.and_self, if_true, if_neg hpos,
      if_neg hnew, if_neg hfull]
  have hlast : depth - 1 < depth := by omega
  refine ⟨?_, ⟨?_, ?_⟩, fun i hi => ?_⟩
  · simp only [rasNext, hcontrol]
    rw [topPtr_wrap (Nat.le_of_eq htop) hdepth, htop]
  · simp [rasNext, rasBufferNext, hcontrol, hlast]
  · simp [rasNext, rasBufferCntNext, hcontrol, hlast]
  · have hin : i < depth := by omega
    have hne : i ≠ depth - 1 := Nat.ne_of_lt hi
    simp [rasNext, rasBufferNext, rasBufferCntNext, hcontrol, hin, hne]

/-- Without a push only the counter of the head may change. -/
theorem rasNoPush_keeps (hpush : x.bpRasPush = false) :
    (∀ i, (rasNext depth s x).buffer i = s.buffer i) ∧
      ∀ i, i + 1 ≠ s.topPtr → (rasNext depth s x).bufferCnt i = s.bufferCnt i := by
  have hthrow : (rasControl depth s x).needThrow = false := by
    simp only [rasControl, hpush, Bool.false_and, Bool.false_eq_true, if_false]
    split_ifs <;> rfl
  refine ⟨fun i => ?_, fun i hi => ?_⟩
  · simp [rasNext, rasBufferNext, hthrow, rasAppend, rasReplace, hpush]
  · simp [rasNext, rasBufferCntNext, hthrow, rasAppend, rasReplace, hpush, hi]

theorem rasPop_counts (h : RasOk depth s) (hdepth : 0 < depth) (hpush : x.bpRasPush = false)
    (hpop : x.bpRasPop = true) (htop : 0 < s.topPtr) (hmore : 1 < s.bufferCnt (s.topPtr - 1)) :
    Recounts s (rasNext depth s x) ∧
      (rasNext depth s x).bufferCnt (s.topPtr - 1) = s.bufferCnt (s.topPtr - 1) - 1 := by
  have hle := h.topPtr_le
  have hlt := (h.counts (s.topPtr - 1) (by omega)).2
  have hcontrol : rasControl depth s x = ⟨s.topPtr, false, false, true⟩ := by
    simp [rasControl, hpush, hpop, Nat.ne_of_gt htop, hmore]
  have hhead : s.topPtr - 1 + 1 = s.topPtr := Nat.sub_add_cancel htop
  have hin : s.topPtr - 1 < depth := by omega
  obtain ⟨hbuffer, hcnt⟩ := @rasNoPush_keeps depth s x hpush
  refine ⟨⟨?_, fun i hi => ⟨hbuffer i, hcnt i (by omega)⟩, hbuffer _⟩, ?_⟩
  · simp only [rasNext, hcontrol, topPtr_wrap hle hdepth]
  · simp only [rasNext, if_pos hin, rasBufferCntNext, hcontrol, hhead]
    simp only [Bool.or_true, and_self, if_true, Bool.false_eq_true, if_false]
    omega

theorem rasPop_removes (h : RasOk depth s) (hdepth : 0 < depth) (hpush : x.bpRasPush = false)
    (hpop : x.bpRasPop = true) (hone : s.topPtr = 0 ∨ ¬1 < s.bufferCnt (s.topPtr - 1)) :
    (rasNext depth s x).topPtr = s.topPtr - 1 ∧
      KeepsBelow (s.topPtr - 1) s (rasNext depth s x) := by
  have hle := h.topPtr_le
  have hcontrol : rasControl depth s x = ⟨s.topPtr - 1, false, false, false⟩ := by
    rcases Nat.eq_zero_or_pos s.topPtr with hzero | hpos
    · simp [rasControl, hpush, hpop, hzero]
    · have hlast := hone.resolve_left (Nat.ne_of_gt hpos)
      simp [rasControl, hpush, hpop, Nat.ne_of_gt hpos, hlast]
  obtain ⟨hbuffer, hcnt⟩ := @rasNoPush_keeps depth s x hpush
  refine ⟨?_, fun i hi => ⟨hbuffer i, hcnt i (by omega)⟩⟩
  simp only [rasNext, hcontrol]
  exact topPtr_wrap (by omega) hdepth

theorem rasBoth_appends (hdepth : 0 < depth) (hpush : x.bpRasPush = true)
    (hpop : x.bpRasPop = true) (htop : s.topPtr = 0) :
    Appends s (rasNext depth s x) x.bpRasAddr := by
  have hcontrol : rasControl depth s x = ⟨s.topPtr + 1, false, false, false⟩ := by
    simp [rasControl, hpush, hpop, htop]
  have hin : s.topPtr < depth := by omega
  refine ⟨?_, ?_, ?_⟩
  · simp only [rasNext, hcontrol, topPtr_wrap hin hdepth]
  · simp [rasNext, rasBufferNext, hcontrol, hin, rasAppend, hpush]
  · simp [rasNext, rasBufferCntNext, hcontrol, hin, rasAppend, hpush]

theorem rasBoth_keeps (h : RasOk depth s) (hdepth : 0 < depth) (hpush : x.bpRasPush = true)
    (hpop : x.bpRasPop = true) (htop : 0 < s.topPtr)
    (hequal : x.bpRasAddr = s.buffer (s.topPtr - 1)) :
    (rasNext depth s x).topPtr = s.topPtr ∧ KeepsBelow s.topPtr s (rasNext depth s x) := by
  have hcontrol : rasControl depth s x = ⟨s.topPtr, false, false, false⟩ := by
    simp [rasControl, hpush, hpop, Nat.ne_of_gt htop, hequal]
  have hreplace : ∀ i, rasReplace s x i = false := by
    intro i
    by_cases hi : i + 1 = s.topPtr
    · have hsame : x.bpRasAddr = s.buffer i := by rw [hequal, ← hi, Nat.add_sub_cancel]
      simp [rasReplace, hsame]
    · simp [rasReplace, hi]
  refine ⟨?_, fun i hi => ⟨?_, ?_⟩⟩
  · simp only [rasNext, hcontrol, topPtr_wrap h.topPtr_le hdepth]
  · simp [rasNext, rasBufferNext, hcontrol, rasAppend, hreplace, Nat.ne_of_lt hi]
  · simp [rasNext, rasBufferCntNext, hcontrol, rasAppend, hreplace, Nat.ne_of_lt hi]

theorem rasBoth_splits (h : RasOk depth s) (hdepth : 0 < depth) (hpush : x.bpRasPush = true)
    (hpop : x.bpRasPop = true) (htop : 0 < s.topPtr) (hroom : s.topPtr < depth)
    (hnew : x.bpRasAddr ≠ s.buffer (s.topPtr - 1)) (hmore : 1 < s.bufferCnt (s.topPtr - 1)) :
    Appends s (rasNext depth s x) x.bpRasAddr ∧ KeepsBelow (s.topPtr - 1) s (rasNext depth s x) ∧
      (rasNext depth s x).buffer (s.topPtr - 1) = s.buffer (s.topPtr - 1) ∧
      (rasNext depth s x).bufferCnt (s.topPtr - 1) = s.bufferCnt (s.topPtr - 1) - 1 := by
  have hlt := (h.counts (s.topPtr - 1) (by omega)).2
  have hcontrol : rasControl depth s x = ⟨s.topPtr + 1, false, false, true⟩ := by
    simp [rasControl, hpush, hpop, Nat.ne_of_gt htop, hnew, hmore]
  have hhead : s.topPtr - 1 + 1 = s.topPtr := Nat.sub_add_cancel htop
  have hin : s.topPtr - 1 < depth := by omega
  have hne : ∀ i, i < s.topPtr → i ≠ s.topPtr := fun i hi => Nat.ne_of_lt hi
  refine ⟨⟨?_, ?_, ?_⟩, fun i hi => ⟨?_, ?_⟩, ?_, ?_⟩
  · simp only [rasNext, hcontrol, topPtr_wrap hroom hdepth]
  · simp [rasNext, rasBufferNext, hcontrol, hroom, rasAppend, hpush]
  · simp [rasNext, rasBufferCntNext, hcontrol, hroom, rasAppend, hpush]
  · have htop' := hne i (by omega)
    have hbelow := hne (i + 1) (by omega)
    simp [rasNext, rasBufferNext, hcontrol, rasAppend, rasReplace, htop', hbelow]
  · have htop' := hne i (by omega)
    have hbelow := hne (i + 1) (by omega)
    simp [rasNext, rasBufferCntNext, hcontrol, rasAppend, rasReplace, htop', hbelow]
  · have htop' := hne (s.topPtr - 1) (by omega)
    simp [rasNext, rasBufferNext, hcontrol, rasAppend, rasReplace, htop', Nat.ne_of_gt hmore]
  · simp only [rasNext, if_pos hin, rasBufferCntNext, hcontrol, hhead]
    simp only [Bool.or_true, and_self, if_true, Bool.false_eq_true, if_false]
    omega

theorem rasBoth_replaces (h : RasOk depth s) (hdepth : 0 < depth) (hpush : x.bpRasPush = true)
    (hpop : x.bpRasPop = true) (htop : 0 < s.topPtr)
    (hnew : x.bpRasAddr ≠ s.buffer (s.topPtr - 1)) (hone : s.bufferCnt (s.topPtr - 1) = 1) :
    (rasNext depth s x).topPtr = s.topPtr ∧ KeepsBelow (s.topPtr - 1) s (rasNext depth s x) ∧
      (rasNext depth s x).buffer (s.topPtr - 1) = x.bpRasAddr ∧
      (rasNext depth s x).bufferCnt (s.topPtr - 1) = 1 := by
  have hle := h.topPtr_le
  have hcontrol : rasControl depth s x = ⟨s.topPtr, false, false, false⟩ := by
    simp [rasControl, hpush, hpop, Nat.ne_of_gt htop, hnew, hone]
  have hhead : s.topPtr - 1 + 1 = s.topPtr := Nat.sub_add_cancel htop
  have hin : s.topPtr - 1 < depth := by omega
  have hne : ∀ i, i < s.topPtr → i ≠ s.topPtr := fun i hi => Nat.ne_of_lt hi
  refine ⟨?_, fun i hi => ⟨?_, ?_⟩, ?_, ?_⟩
  · simp only [rasNext, hcontrol, topPtr_wrap hle hdepth]
  · have htop' := hne i (by omega)
    have hbelow := hne (i + 1) (by omega)
    simp [rasNext, rasBufferNext, hcontrol, rasAppend, rasReplace, htop', hbelow]
  · have htop' := hne i (by omega)
    have hbelow := hne (i + 1) (by omega)
    simp [rasNext, rasBufferCntNext, hcontrol, rasAppend, rasReplace, htop', hbelow]
  · simp [rasNext, rasBufferNext, hcontrol, rasAppend, rasReplace, hin, hhead, hpush, hpop, hnew,
      hone]
  · simp [rasNext, rasBufferCntNext, hcontrol, rasAppend, rasReplace, hin, hhead, hpush, hpop, hnew]

theorem rasIdle_keeps (h : RasOk depth s) (hdepth : 0 < depth) (hpush : x.bpRasPush = false)
    (hpop : x.bpRasPop = false) :
    (rasNext depth s x).topPtr = s.topPtr ∧ KeepsBelow s.topPtr s (rasNext depth s x) := by
  have hcontrol : rasControl depth s x = ⟨s.topPtr, false, false, false⟩ := by
    simp [rasControl, hpush, hpop]
  refine ⟨?_, fun i hi => ⟨?_, ?_⟩⟩
  · simp only [rasNext, hcontrol, topPtr_wrap h.topPtr_le hdepth]
  · simp [rasNext, rasBufferNext, hcontrol, rasAppend, rasReplace, hpush]
  · simp [rasNext, rasBufferCntNext, hcontrol, rasAppend, rasReplace, hpush]

/-! ## The stack after a cycle -/

theorem rasOk_kept {t : RasState} {n : Nat} (h : RasOk depth s) (hn : n ≤ s.topPtr)
    (hkeeps : KeepsBelow n s t) (i : Nat) (hi : i < n) :
    1 ≤ t.bufferCnt i ∧ t.bufferCnt i < 2 ^ 32 := by
  rw [(hkeeps i hi).2]
  exact h.counts i (Nat.lt_of_lt_of_le hi hn)

/-- A state that keeps the lower entries and whose head has a fitting count. -/
theorem rasOk_of_head {t : RasState} {n : Nat} (h : RasOk depth s) (hn : n ≤ s.topPtr)
    (hkeeps : KeepsBelow n s t) (htop : t.topPtr = n + 1) (hroom : n < depth)
    (hone : 1 ≤ t.bufferCnt n) (hmax : t.bufferCnt n < 2 ^ 32) : RasOk depth t where
  topPtr_le := by omega
  counts := by
    intro i hi
    rcases Nat.lt_or_ge i n with hlt | hge
    · exact rasOk_kept h hn hkeeps i hlt
    · have heq : i = n := by omega
      rw [heq]
      exact ⟨hone, hmax⟩

theorem rasStack_push (h : RasOk depth s) (hfits : RasFits depth s x) (hdepth : 0 < depth)
    (hpush : x.bpRasPush = true) (hpop : x.bpRasPop = false) :
    rasStack (rasNext depth s x) =
        stackNext (decide (s.topPtr = depth)) (s.bufferCnt 0) (rasStack s) x ∧
      RasOk depth (rasNext depth s x) := by
  have hle := h.topPtr_le
  by_cases hnew : s.topPtr = 0 ∨
      ¬(x.bpRasAddr = s.buffer (s.topPtr - 1) ∧ s.bufferCnt (s.topPtr - 1) < 0xffffffff)
  · rcases Nat.lt_or_ge s.topPtr depth with hroom | hfull
    · -- the address becomes a new entry
      obtain ⟨⟨htop, hbuffer, hcnt⟩, hkeeps⟩ := rasPush_appends hdepth hpush hpop hroom hnew
      have hnotFull : decide (s.topPtr = depth) = false := decide_eq_false (Nat.ne_of_lt hroom)
      constructor
      · simp only [stackNext, hpush, hpop, hnotFull, Bool.false_and, Bool.false_eq_true, if_false]
        rw [rasStack, htop, stack_push hkeeps hcnt, hbuffer, rasStack]
      · refine rasOk_of_head h (Nat.le_refl _) hkeeps htop hroom ?_ ?_
        · rw [hcnt]
        · rw [hcnt]
          decide
    · -- the oldest entry is dropped
      have hfull' : s.topPtr = depth := Nat.le_antisymm hle hfull
      have hlast := hnew.resolve_left (by omega)
      obtain ⟨htop, ⟨hbuffer, hcnt⟩, hshift⟩ := rasPush_throws hdepth hpush hpop hfull' hlast
      obtain ⟨m, rfl⟩ : ∃ m, depth = m + 1 := ⟨depth - 1, by omega⟩
      rw [Nat.add_sub_cancel] at hbuffer hcnt hshift
      have hhead : (rasStack s).head? = some (s.buffer m) := by
        rw [rasStack, hfull']
        exact stack_head (h.counts m (by omega)).1
      have hother : (rasStack s).head? ≠ some x.bpRasAddr := by
        rw [hhead]
        intro heq
        rw [hfull', Nat.add_sub_cancel] at hlast
        have hsame : x.bpRasAddr = s.buffer m := (Option.some_inj.1 heq).symm
        have hsat := hfits.saturated hpush hpop hfull'
        rw [hfull', Nat.add_sub_cancel] at hsat
        exact hlast ⟨hsame, hsat hsame⟩
      constructor
      · simp only [stackNext, hpush, hpop, decide_eq_true hfull', decide_eq_true hother, Bool.and_self,
          if_true]
        rw [rasStack, htop, @stack_push _ (fun i => s.buffer (i + 1)) _
          (fun i => s.bufferCnt (i + 1)) _ m hshift hcnt, hbuffer, stack_drop, rasStack, hfull']
      · refine ⟨Nat.le_of_eq htop, fun i hi => ?_⟩
        rcases Nat.lt_or_ge i m with hlt | hge
        · rw [(hshift i hlt).2]
          exact h.counts (i + 1) (by omega)
        · have heq : i = m := by omega
          rw [heq, hcnt]
          exact ⟨Nat.le_refl 1, by decide⟩
  · -- one more copy of the head
    rw [not_or, not_not] at hnew
    obtain ⟨hpos, hequal, hroom⟩ := hnew
    obtain ⟨⟨htop, hkeeps, hbuffer⟩, hcnt⟩ :=
      rasPush_counts h hdepth hpush hpop (Nat.pos_of_ne_zero hpos) hequal hroom
    obtain ⟨n, hn⟩ := Nat.exists_eq_succ_of_ne_zero hpos
    have hpred : s.topPtr - 1 = n := by rw [hn]; rfl
    rw [hpred] at hkeeps hbuffer hcnt hequal hroom
    have hhead : (rasStack s).head? = some x.bpRasAddr := by
      rw [rasStack, hn, hequal]
      exact stack_head (h.counts n (by omega)).1
    constructor
    · simp only [stackNext, hpush, hpop, hhead, ne_eq, not_true_eq_false, decide_false,
        Bool.and_false, Bool.false_eq_true, if_false]
      rw [rasStack, htop, hn, stack_succ hkeeps hbuffer hcnt, rasStack, hn, hequal]
    · exact rasOk_of_head h (by omega) hkeeps (htop.trans hn) (by omega) (by omega) (by omega)

theorem rasStack_pop (h : RasOk depth s) (hdepth : 0 < depth) (hpush : x.bpRasPush = false)
    (hpop : x.bpRasPop = true) :
    rasStack (rasNext depth s x) = (rasStack s).tail ∧ RasOk depth (rasNext depth s x) := by
  have hle := h.topPtr_le
  by_cases hmore : 0 < s.topPtr ∧ 1 < s.bufferCnt (s.topPtr - 1)
  · obtain ⟨⟨htop, hkeeps, hbuffer⟩, hcnt⟩ := rasPop_counts h hdepth hpush hpop hmore.1 hmore.2
    obtain ⟨n, hn⟩ := Nat.exists_eq_succ_of_ne_zero (Nat.ne_of_gt hmore.1)
    have hpred : s.topPtr - 1 = n := by rw [hn]; rfl
    have hmany := hmore.2
    rw [hpred] at hkeeps hbuffer hcnt hmany
    have hbound := (h.counts n (by omega)).2
    constructor
    · rw [rasStack, htop, hn, stack_pred hkeeps hbuffer (by omega), rasStack, hn]
    · exact rasOk_of_head h (by omega) hkeeps (htop.trans hn) (by omega) (by omega) (by omega)
  · have hone : s.topPtr = 0 ∨ ¬1 < s.bufferCnt (s.topPtr - 1) := by
      rcases Nat.eq_zero_or_pos s.topPtr with hzero | hpos
      · exact Or.inl hzero
      · exact Or.inr fun hlt => hmore ⟨hpos, hlt⟩
    obtain ⟨htop, hkeeps⟩ := rasPop_removes h hdepth hpush hpop hone
    refine ⟨?_, ⟨by omega, fun i hi => rasOk_kept h (by omega) hkeeps i (by omega)⟩⟩
    rcases Nat.eq_zero_or_pos s.topPtr with hzero | hpos
    · rw [rasStack, htop, hzero, rasStack, hzero]
      rfl
    · obtain ⟨n, hn⟩ := Nat.exists_eq_succ_of_ne_zero (Nat.ne_of_gt hpos)
      have hpred : s.topPtr - 1 = n := by rw [hn]; rfl
      rw [hpred] at htop hkeeps hone
      have hcount := (h.counts n (by omega)).1
      rw [rasStack, htop, stack_congr hkeeps, rasStack, hn, stack_pop (by omega)]

theorem rasStack_both (h : RasOk depth s) (hfits : RasFits depth s x) (hdepth : 0 < depth)
    (hpush : x.bpRasPush = true) (hpop : x.bpRasPop = true) :
    rasStack (rasNext depth s x) = x.bpRasAddr :: (rasStack s).tail ∧
      RasOk depth (rasNext depth s x) := by
  have hle := h.topPtr_le
  rcases Nat.eq_zero_or_pos s.topPtr with hzero | hpos
  · obtain ⟨htop, hbuffer, hcnt⟩ := rasBoth_appends hdepth hpush hpop hzero
    rw [hzero] at htop hbuffer hcnt
    constructor
    · rw [rasStack, htop, stack, hcnt, hbuffer, rasStack, hzero]
      rfl
    · exact rasOk_of_head h (Nat.zero_le _) (fun i hi => absurd hi (Nat.not_lt_zero i)) htop hdepth
        (by omega) (by rw [hcnt]; decide)
  · obtain ⟨n, hn⟩ := Nat.exists_eq_succ_of_ne_zero (Nat.ne_of_gt hpos)
    have hpred : s.topPtr - 1 = n := by rw [hn]; rfl
    have hcount := h.counts n (by omega)
    by_cases hequal : x.bpRasAddr = s.buffer (s.topPtr - 1)
    · obtain ⟨htop, hkeeps⟩ := rasBoth_keeps h hdepth hpush hpop hpos hequal
      rw [hpred] at hequal
      refine ⟨?_, ⟨by omega, fun i hi => rasOk_kept h (Nat.le_refl _) hkeeps i (by omega)⟩⟩
      have hhead : (rasStack s).head? = some x.bpRasAddr := by
        rw [rasStack, hn, hequal]
        exact stack_head hcount.1
      rw [rasStack, htop, stack_congr hkeeps]
      exact (List.cons_head?_tail hhead).symm
    · rcases Nat.lt_or_ge 1 (s.bufferCnt (s.topPtr - 1)) with hmore | hone
      · have hroom : s.topPtr < depth := by
          refine Nat.lt_of_le_of_ne hle fun hfull => ?_
          have := hfits.replace hpush hpop hfull hequal
          omega
        obtain ⟨⟨htop, haddr, hnewCnt⟩, hkeeps, hbuffer, hcnt⟩ :=
          rasBoth_splits h hdepth hpush hpop hpos hroom hequal hmore
        rw [hpred] at hkeeps hbuffer hcnt hmore
        constructor
        · rw [rasStack, htop, stack, hnewCnt, haddr, hn, stack_pred hkeeps hbuffer (by omega), rasStack,
            hn]
          rfl
        · refine ⟨by omega, fun i hi => ?_⟩
          rcases Nat.lt_or_ge i n with hlt | hge
          · exact rasOk_kept h (by omega) hkeeps i hlt
          · rcases Nat.eq_or_lt_of_le hge with heq | hgt
            · rw [← heq, hcnt]
              omega
            · have htopmost : i = s.topPtr := by omega
              rw [htopmost, hnewCnt]
              exact ⟨Nat.le_refl 1, by decide⟩
      · rw [hpred] at hone
        have hcntOne : s.bufferCnt n = 1 := by omega
        obtain ⟨htop, hkeeps, hbuffer, hcnt⟩ :=
          rasBoth_replaces h hdepth hpush hpop hpos hequal (hpred ▸ hcntOne)
        rw [hpred] at hkeeps hbuffer hcnt
        constructor
        · rw [rasStack, htop, hn, stack_push hkeeps hcnt, hbuffer, rasStack, hn, stack_pop hcntOne]
        · exact rasOk_of_head h (by omega) hkeeps (htop.trans hn) (by omega) (by omega)
            (by rw [hcnt]; decide)

end Step

/-! ## The stack of the C++ model -/

/-- The C++ stack holds the same entries; an empty one remembers the address the hardware
shows. -/
structure RasAgrees (s : RasState) (r : Cpp.Ras) : Prop where
  topPtr : r.topPtr = s.topPtr
  entries : ∀ i, i < s.topPtr → r.buffer i = ⟨s.buffer i, s.bufferCnt i⟩
  lastAddr : s.topPtr = 0 → r.lastAddr = s.buffer 0

/-- The address is not that of the entry below a head with one copy: the C++ model, which
pops first, would count that entry up, and the hardware opens another one. -/
def RasKeepsApart (s : RasState) (x : RasInput) : Prop :=
  x.bpRasPush = true → x.bpRasPop = true → 2 ≤ s.topPtr → s.bufferCnt (s.topPtr - 1) = 1 →
    ¬(x.bpRasAddr = s.buffer (s.topPtr - 2) ∧ s.bufferCnt (s.topPtr - 2) < 0xffffffff)

section Cpp

variable {size addr n : Nat} {r : Cpp.Ras}

theorem getTop_succ (h : r.topPtr = n + 1) : r.getTop = some (r.buffer n) := by
  rw [Cpp.Ras.getTop, Cpp.Ras.isEmpty, h]
  rfl

theorem getTop_zero (h : r.topPtr = 0) : r.getTop = none := by
  rw [Cpp.Ras.getTop, Cpp.Ras.isEmpty, h]
  rfl

/-- An address the top entry does not absorb is put on top of it. -/
theorem cppPush_new (hroom : r.topPtr < size)
    (hnew : r.topPtr = 0 ∨
      ¬((r.buffer (r.topPtr - 1)).addr = addr ∧ (r.buffer (r.topPtr - 1)).cnt < 0xFFFFFFFF)) :
    r.pushAddr size addr =
      { buffer := fun i => if i = r.topPtr then ⟨addr, 1⟩ else r.buffer i
        topPtr := r.topPtr + 1
        lastAddr := r.lastAddr } := by
  have hfull : r.isFull size = false := decide_eq_false (Nat.ne_of_lt hroom)
  rcases Nat.eq_zero_or_pos r.topPtr with hzero | hpos
  · simp [Cpp.Ras.pushAddr, getTop_zero hzero, hfull, Cpp.Ras.push, Cpp.Ras.setItem]
  · obtain ⟨n, hn⟩ := Nat.exists_eq_succ_of_ne_zero (Nat.ne_of_gt hpos)
    have hpred : r.topPtr - 1 = n := by rw [hn]; rfl
    have hlast := hnew.resolve_left (Nat.ne_of_gt hpos)
    rw [hpred] at hlast
    simp only [Cpp.Ras.pushAddr, getTop_succ hn, if_neg hlast, hfull, Bool.false_eq_true, if_false,
      Cpp.Ras.push, Cpp.Ras.setItem]

theorem cppPush_count (h : r.topPtr = n + 1) (hequal : (r.buffer n).addr = addr)
    (hroom : (r.buffer n).cnt < 0xFFFFFFFF) :
    r.pushAddr size addr = r.setItem n ⟨addr, (r.buffer n).cnt + 1⟩ := by
  rw [Cpp.Ras.pushAddr, getTop_succ h]
  dsimp only
  rw [if_pos ⟨hequal, hroom⟩, h, ← hequal]
  rfl

theorem cppPush_throw (h : r.topPtr = n + 1) (hfull : r.topPtr = size)
    (hnew : ¬((r.buffer n).addr = addr ∧ (r.buffer n).cnt < 0xFFFFFFFF)) :
    r.pushAddr size addr = r.throwPush ⟨addr, 1⟩ := by
  have hisFull : r.isFull size = true := decide_eq_true hfull
  rw [Cpp.Ras.pushAddr, getTop_succ h]
  dsimp only
  rw [if_neg hnew, if_pos hisFull]

theorem cppPop_remove (h : r.topPtr = n + 1) (hone : (r.buffer n).cnt = 1) :
    r.popAddr.1 = { r with topPtr := n, lastAddr := (r.buffer n).addr } := by
  rw [Cpp.Ras.popAddr, getTop_succ h]
  dsimp only
  rw [if_pos hone, h]
  rfl

theorem cppPop_count (h : r.topPtr = n + 1) (hmore : 1 < (r.buffer n).cnt)
    (hmax : (r.buffer n).cnt < 2 ^ 32) :
    r.popAddr.1 = r.setItem n ⟨(r.buffer n).addr, (r.buffer n).cnt - 1⟩ := by
  have hcnt : ((r.buffer n).cnt + (2 ^ 32 - 1)) % 2 ^ 32 = (r.buffer n).cnt - 1 := by omega
  rw [Cpp.Ras.popAddr, getTop_succ h]
  dsimp only
  rw [if_neg (Nat.ne_of_gt hmore), h, hcnt]
  rfl

theorem cppPop_empty (h : r.topPtr = 0) : r.popAddr.1 = r := by
  rw [Cpp.Ras.popAddr, getTop_zero h]

end Cpp

section Agreement

variable {depth : Nat} {s : RasState} {x : RasInput} {r : Cpp.Ras}

/-- The published addresses are the same. -/
theorem RasAgrees.bpAddr (h : RasAgrees s r) : r.bpAddr = rasBpAddr s := by
  rcases Nat.eq_zero_or_pos s.topPtr with hzero | hpos
  · rw [Cpp.Ras.bpAddr, getTop_zero (h.topPtr.trans hzero), rasBpAddr, hzero]
    exact h.lastAddr hzero
  · obtain ⟨n, hn⟩ := Nat.exists_eq_succ_of_ne_zero (Nat.ne_of_gt hpos)
    rw [Cpp.Ras.bpAddr, getTop_succ (h.topPtr.trans hn), rasBpAddr, if_pos hpos, hn,
      h.entries n (by omega)]
    rfl

theorem rasAgrees_kept {t : RasState} {r' : Cpp.Ras} {n : Nat} (h : RasAgrees s r)
    (hn : n ≤ s.topPtr) (hkeeps : KeepsBelow n s t) (hcpp : ∀ i, i < n → r'.buffer i = r.buffer i)
    (i : Nat) (hi : i < n) : r'.buffer i = ⟨t.buffer i, t.bufferCnt i⟩ := by
  rw [hcpp i hi, h.entries i (by omega), (hkeeps i hi).1, (hkeeps i hi).2]

/-- A state that keeps the lower entries and has the same head. -/
theorem rasAgrees_of_head {t : RasState} {r' : Cpp.Ras} {n : Nat} (h : RasAgrees s r)
    (hn : n ≤ s.topPtr) (hkeeps : KeepsBelow n s t) (hcpp : ∀ i, i < n → r'.buffer i = r.buffer i)
    (htop : t.topPtr = n + 1) (htop' : r'.topPtr = n + 1)
    (hhead : r'.buffer n = ⟨t.buffer n, t.bufferCnt n⟩) : RasAgrees t r' where
  topPtr := htop'.trans htop.symm
  entries := by
    intro i hi
    rcases Nat.lt_or_ge i n with hlt | hge
    · exact rasAgrees_kept h hn hkeeps hcpp i hlt
    · have heq : i = n := by omega
      rw [heq, hhead]
  lastAddr := by
    intro hzero
    omega

theorem rasAgrees_push (hok : RasOk depth s) (h : RasAgrees s r) (hdepth : 0 < depth)
    (hpush : x.bpRasPush = true) (hpop : x.bpRasPop = false) :
    RasAgrees (rasNext depth s x) (r.pushAddr depth x.bpRasAddr) := by
  have hle := hok.topPtr_le
  by_cases hnew : s.topPtr = 0 ∨
      ¬(x.bpRasAddr = s.buffer (s.topPtr - 1) ∧ s.bufferCnt (s.topPtr - 1) < 0xffffffff)
  · have hcppNew : r.topPtr = 0 ∨ ¬((r.buffer (r.topPtr - 1)).addr = x.bpRasAddr ∧
        (r.buffer (r.topPtr - 1)).cnt < 0xFFFFFFFF) := by
      rcases Nat.eq_zero_or_pos s.topPtr with hzero | hpos
      · exact Or.inl (h.topPtr.trans hzero)
      · refine Or.inr fun habsorbs => hnew.resolve_left (Nat.ne_of_gt hpos) ?_
        rw [h.topPtr, h.entries _ (by omega)] at habsorbs
        exact ⟨habsorbs.1.symm, habsorbs.2⟩
    rcases Nat.lt_or_ge s.topPtr depth with hroom | hfull
    · obtain ⟨⟨htop, hbuffer, hcnt⟩, hkeeps⟩ := rasPush_appends hdepth hpush hpop hroom hnew
      rw [cppPush_new (h.topPtr ▸ hroom) hcppNew]
      refine rasAgrees_of_head h (Nat.le_refl _) hkeeps (fun i hi => ?_) htop
        (congrArg (· + 1) h.topPtr) ?_
      · exact if_neg (h.topPtr ▸ Nat.ne_of_lt hi)
      · rw [hbuffer, hcnt]
        exact if_pos h.topPtr.symm
    · have hfull' : s.topPtr = depth := Nat.le_antisymm hle hfull
      obtain ⟨htop, ⟨hbuffer, hcnt⟩, hshift⟩ :=
        rasPush_throws hdepth hpush hpop hfull' (hnew.resolve_left (by omega))
      obtain ⟨m, rfl⟩ : ∃ m, depth = m + 1 := ⟨depth - 1, by omega⟩
      have hcppTop : r.topPtr = m + 1 := h.topPtr.trans hfull'
      have hlast := hcppNew.resolve_left (by omega)
      rw [hcppTop, Nat.add_sub_cancel] at hlast
      rw [Nat.add_sub_cancel] at hbuffer hcnt hshift
      rw [cppPush_throw hcppTop hcppTop hlast]
      refine ⟨hcppTop.trans htop.symm, fun i hi => ?_, fun hzero => by omega⟩
      simp only [Cpp.Ras.throwPush, hcppTop, Nat.add_sub_cancel]
      rcases Nat.lt_or_ge i m with hlt | hge
      · rw [if_neg (Nat.ne_of_lt hlt), if_pos (Nat.succ_lt_succ hlt), h.entries _ (by omega),
          (hshift i hlt).1, (hshift i hlt).2]
      · have heq : i = m := by omega
        rw [if_pos heq, heq, hbuffer, hcnt]
  · rw [not_or, not_not] at hnew
    obtain ⟨hpos, hequal, hroom⟩ := hnew
    obtain ⟨⟨htop, hkeeps, hbuffer⟩, hcnt⟩ :=
      rasPush_counts hok hdepth hpush hpop (Nat.pos_of_ne_zero hpos) hequal hroom
    obtain ⟨n, hn⟩ := Nat.exists_eq_succ_of_ne_zero hpos
    have hpred : s.topPtr - 1 = n := by rw [hn]; rfl
    rw [hpred] at hkeeps hbuffer hcnt hequal hroom
    have hentry := h.entries n (by omega)
    rw [cppPush_count (h.topPtr.trans hn) (hentry ▸ hequal.symm) (hentry ▸ hroom)]
    refine rasAgrees_of_head h (by omega) hkeeps (fun i hi => ?_) (htop.trans hn) (h.topPtr.trans hn) ?_
    · exact if_neg (Nat.ne_of_lt hi)
    · rw [hbuffer, hcnt, ← hequal]
      exact (if_pos rfl).trans (congrArg (fun e : Cpp.RasItem => (⟨x.bpRasAddr, e.cnt + 1⟩ : Cpp.RasItem)) hentry)

theorem rasAgrees_pop (hok : RasOk depth s) (h : RasAgrees s r) (hdepth : 0 < depth)
    (hpush : x.bpRasPush = false) (hpop : x.bpRasPop = true) :
    RasAgrees (rasNext depth s x) r.popAddr.1 := by
  rcases Nat.eq_zero_or_pos s.topPtr with hzero | hpos
  · obtain ⟨htop, _⟩ := rasPop_removes hok hdepth hpush hpop (Or.inl hzero)
    have hkept := (@rasNoPush_keeps depth s x hpush).1
    rw [cppPop_empty (h.topPtr.trans hzero)]
    refine ⟨h.topPtr.trans (by omega), fun i hi => by omega, fun _ => ?_⟩
    rw [hkept 0]
    exact h.lastAddr hzero
  · obtain ⟨n, hn⟩ := Nat.exists_eq_succ_of_ne_zero (Nat.ne_of_gt hpos)
    have hpred : s.topPtr - 1 = n := by rw [hn]; rfl
    have hentry := h.entries n (by omega)
    have hcount := hok.counts n (by omega)
    rcases Nat.lt_or_ge 1 (s.bufferCnt n) with hmore | hone
    · obtain ⟨⟨htop, hkeeps, hbuffer⟩, hcnt⟩ :=
        rasPop_counts hok hdepth hpush hpop hpos (hpred ▸ hmore)
      rw [hpred] at hkeeps hbuffer hcnt
      rw [cppPop_count (h.topPtr.trans hn) (hentry ▸ hmore) (hentry ▸ hcount.2)]
      refine rasAgrees_of_head h (by omega) hkeeps (fun i hi => if_neg (Nat.ne_of_lt hi))
        (htop.trans hn) (h.topPtr.trans hn) ?_
      rw [hbuffer, hcnt]
      exact (if_pos rfl).trans
        (congrArg (fun e : Cpp.RasItem => (⟨e.addr, e.cnt - 1⟩ : Cpp.RasItem)) hentry)
    · obtain ⟨htop, hkeeps⟩ :=
        rasPop_removes hok hdepth hpush hpop (Or.inr (hpred.symm ▸ Nat.not_lt.2 hone))
      rw [hpred] at htop hkeeps
      have hcntOne : (r.buffer n).cnt = 1 := by
        rw [hentry]
        exact Nat.le_antisymm hone hcount.1
      have hkept := (@rasNoPush_keeps depth s x hpush).1
      rw [cppPop_remove (h.topPtr.trans hn) hcntOne]
      refine ⟨htop.symm, fun i hi => ?_, fun hzero => ?_⟩
      · exact rasAgrees_kept h (by omega) hkeeps (fun _ _ => rfl) i (htop ▸ hi)
      · have hn0 : n = 0 := by omega
        rw [hkept 0, hentry, hn0]

theorem rasAgrees_both (hok : RasOk depth s) (h : RasAgrees s r) (hfits : RasFits depth s x)
    (hapart : RasKeepsApart s x) (hdepth : 0 < depth) (hpush : x.bpRasPush = true)
    (hpop : x.bpRasPop = true) :
    RasAgrees (rasNext depth s x) (r.popAddr.1.pushAddr depth x.bpRasAddr) := by
  have hle := hok.topPtr_le
  rcases Nat.eq_zero_or_pos s.topPtr with hzero | hpos
  · obtain ⟨htop, hbuffer, hcnt⟩ := rasBoth_appends hdepth hpush hpop hzero
    have hcppTop : r.topPtr = 0 := h.topPtr.trans hzero
    rw [hzero] at htop hbuffer hcnt
    rw [cppPop_empty hcppTop, cppPush_new (hcppTop ▸ hdepth) (Or.inl hcppTop)]
    refine rasAgrees_of_head h (Nat.zero_le _) (fun i hi => absurd hi (Nat.not_lt_zero i))
      (fun i hi => absurd hi (Nat.not_lt_zero i)) htop (congrArg (· + 1) hcppTop) ?_
    rw [hbuffer, hcnt]
    exact if_pos hcppTop.symm
  · obtain ⟨n, hn⟩ := Nat.exists_eq_succ_of_ne_zero (Nat.ne_of_gt hpos)
    have hpred : s.topPtr - 1 = n := by rw [hn]; rfl
    have hpred2 : s.topPtr - 2 = n - 1 := by rw [hn]; rfl
    have hcppTop : r.topPtr = n + 1 := h.topPtr.trans hn
    have hentry := h.entries n (by omega)
    have hcount := hok.counts n (by omega)
    rcases Nat.lt_or_ge 1 (s.bufferCnt n) with hmore | hone
    · -- the C++ model takes one copy off the head and keeps the entry
      obtain ⟨q, hq, hqTop, hqHead, hqBelow⟩ : ∃ q, r.popAddr.1 = q ∧ q.topPtr = n + 1 ∧
          q.buffer n = ⟨s.buffer n, s.bufferCnt n - 1⟩ ∧ ∀ i, i < n → q.buffer i = r.buffer i :=
        ⟨_, cppPop_count hcppTop (hentry ▸ hmore) (hentry ▸ hcount.2), hcppTop,
          (if_pos rfl).trans
            (congrArg (fun e : Cpp.RasItem => (⟨e.addr, e.cnt - 1⟩ : Cpp.RasItem)) hentry),
          fun i hi => if_neg (Nat.ne_of_lt hi)⟩
      rw [hq]
      by_cases hequal : x.bpRasAddr = s.buffer n
      · obtain ⟨htop, hkeeps⟩ := rasBoth_keeps hok hdepth hpush hpop hpos (hpred.symm ▸ hequal)
        have hqRoom : (q.buffer n).cnt < 0xFFFFFFFF := by
          rw [hqHead]
          show s.bufferCnt n - 1 < 0xFFFFFFFF
          omega
        have hback : s.bufferCnt n - 1 + 1 = s.bufferCnt n := by omega
        rw [cppPush_count hqTop (by rw [hqHead, hequal]) hqRoom, hqHead, hback]
        refine rasAgrees_of_head h (by omega) (hkeeps.mono (by omega)) (fun i hi => ?_)
          (htop.trans hn) hqTop ?_
        · exact (if_neg (Nat.ne_of_lt hi)).trans (hqBelow i hi)
        · rw [(hkeeps n (by omega)).1, (hkeeps n (by omega)).2, ← hequal]
          exact if_pos rfl
      · have hroom : s.topPtr < depth := by
          refine Nat.lt_of_le_of_ne hle fun hfull => ?_
          have := hfits.replace hpush hpop hfull (hpred.symm ▸ hequal)
          rw [hpred] at this
          omega
        obtain ⟨⟨htop, haddr, hnewCnt⟩, hkeeps, hbuffer, hcnt⟩ := rasBoth_splits hok hdepth hpush
          hpop hpos hroom (hpred.symm ▸ hequal) (hpred.symm ▸ hmore)
        rw [hpred] at hkeeps hbuffer hcnt
        have hqNew : q.topPtr = 0 ∨ ¬((q.buffer (q.topPtr - 1)).addr = x.bpRasAddr ∧
            (q.buffer (q.topPtr - 1)).cnt < 0xFFFFFFFF) := by
          rw [hqTop, Nat.add_sub_cancel, hqHead]
          exact Or.inr fun hsame => hequal hsame.1.symm
        rw [cppPush_new (by omega) hqNew, hqTop]
        refine ⟨by rw [htop, hn], fun i hi => ?_, fun hzero => by omega⟩
        rcases Nat.lt_or_ge i n with hlt | hge
        · rw [(hkeeps i hlt).1, (hkeeps i hlt).2, ← h.entries i (by omega), ← hqBelow i hlt]
          exact if_neg (by omega)
        · rcases Nat.eq_or_lt_of_le hge with heq | hgt
          · rw [← heq, hbuffer, hcnt, ← hqHead]
            exact if_neg (by omega)
          · have htopmost : i = s.topPtr := by omega
            rw [htopmost, haddr, hnewCnt]
            exact if_pos hn
    · -- the C++ model takes the head away and puts the address in its place
      have hcntOne : s.bufferCnt n = 1 := Nat.le_antisymm hone hcount.1
      have hpopped := cppPop_remove hcppTop (by rw [hentry]; exact hcntOne)
      have hnext : (rasNext depth s x).topPtr = s.topPtr ∧ KeepsBelow n s (rasNext depth s x) ∧
          (rasNext depth s x).buffer n = x.bpRasAddr ∧ (rasNext depth s x).bufferCnt n = 1 := by
        by_cases hequal : x.bpRasAddr = s.buffer n
        · obtain ⟨htop, hkeeps⟩ := rasBoth_keeps hok hdepth hpush hpop hpos (hpred.symm ▸ hequal)
          obtain ⟨hbuffer, hcnt⟩ := hkeeps n (by omega)
          exact ⟨htop, hkeeps.mono (by omega), hbuffer.trans hequal.symm, hcnt.trans hcntOne⟩
        · have hreplaced := rasBoth_replaces hok hdepth hpush hpop hpos (hpred.symm ▸ hequal)
            (hpred.symm ▸ hcntOne)
          rw [hpred] at hreplaced
          exact hreplaced
      obtain ⟨htop, hkeeps, hbuffer, hcnt⟩ := hnext
      have hnotAbsorbed : n = 0 ∨
          ¬((r.buffer (n - 1)).addr = x.bpRasAddr ∧ (r.buffer (n - 1)).cnt < 0xFFFFFFFF) := by
        rcases Nat.eq_zero_or_pos n with hn0 | hnpos
        · exact Or.inl hn0
        · refine Or.inr fun habsorbs => ?_
          rw [h.entries (n - 1) (by omega)] at habsorbs
          have happart := hapart hpush hpop (by omega) (hpred.symm ▸ hcntOne)
          rw [hpred2] at happart
          exact happart ⟨habsorbs.1.symm, habsorbs.2⟩
      rw [hpopped, cppPush_new (show n < depth by omega) hnotAbsorbed]
      refine rasAgrees_of_head h (by omega) hkeeps (fun i hi => if_neg (Nat.ne_of_lt hi))
        (htop.trans hn) rfl ?_
      rw [hbuffer, hcnt]
      exact if_pos rfl

theorem rasAgrees_next (hok : RasOk depth s) (h : RasAgrees s r) (hfits : RasFits depth s x)
    (hapart : RasKeepsApart s x) (hdepth : 0 < depth) :
    RasAgrees (rasNext depth s x) (Cpp.rasCycle depth r x) := by
  cases hpush : x.bpRasPush <;> cases hpop : x.bpRasPop <;>
    simp only [Cpp.rasCycle, hpush, hpop, Bool.false_eq_true, if_false, if_true]
  · obtain ⟨htop, hkeeps⟩ := rasIdle_keeps hok hdepth hpush hpop
    have hkept := (@rasNoPush_keeps depth s x hpush).1
    refine ⟨h.topPtr.trans htop.symm, fun i hi => ?_, fun hzero => ?_⟩
    · exact rasAgrees_kept h (Nat.le_refl _) hkeeps (fun _ _ => rfl) i (htop ▸ hi)
    · rw [hkept 0]
      exact h.lastAddr (htop.symm.trans hzero)
  · exact rasAgrees_pop hok h hdepth hpush hpop
  · exact rasAgrees_push hok h hdepth hpush hpop
  · exact rasAgrees_both hok h hfits hapart hdepth hpush hpop

end Agreement

/-! ## Every run -/

theorem rasOk_reset (depth : Nat) : RasOk depth rasReset :=
  ⟨Nat.zero_le _, fun i hi => absurd hi (Nat.not_lt_zero i)⟩

theorem rasStack_next {depth : Nat} {s : RasState} {x : RasInput} (h : RasOk depth s)
    (hfits : RasFits depth s x) (hdepth : 0 < depth) :
    rasStack (rasNext depth s x) =
        stackNext (decide (s.topPtr = depth)) (s.bufferCnt 0) (rasStack s) x ∧
      RasOk depth (rasNext depth s x) := by
  cases hpush : x.bpRasPush <;> cases hpop : x.bpRasPop
  · obtain ⟨htop, hkeeps⟩ := rasIdle_keeps h hdepth hpush hpop
    refine ⟨?_, by rw [htop]; exact h.topPtr_le, fun i hi =>
      rasOk_kept h (Nat.le_refl _) hkeeps i (htop ▸ hi)⟩
    rw [rasStack, htop, stack_congr hkeeps, stackNext, hpush, hpop]
    rfl
  · obtain ⟨hstack, hok⟩ := rasStack_pop h hdepth hpush hpop
    refine ⟨?_, hok⟩
    rw [hstack, stackNext, hpush, hpop]
  · exact rasStack_push h hfits hdepth hpush hpop
  · obtain ⟨hstack, hok⟩ := rasStack_both h hfits hdepth hpush hpop
    refine ⟨?_, hok⟩
    rw [hstack, stackNext, hpush, hpop]

theorem rasBpAddr_head {depth : Nat} {s : RasState} (h : RasOk depth s) (hne : 0 < s.topPtr) :
    (rasStack s).head? = some (rasBpAddr s) := by
  obtain ⟨n, hn⟩ := Nat.exists_eq_succ_of_ne_zero (Nat.ne_of_gt hne)
  rw [rasStack, rasBpAddr, if_pos hne, hn]
  exact stack_head (h.counts n (by omega)).1

/-- What a state of the stack guarantees: it fits, no entry is empty, the published address
is the head, and the next cycle is one of the abstract stack. -/
structure RasCorrect (depth : Nat) (s : RasState) (x : RasInput) : Prop where
  ok : RasOk depth s
  bpAddr : 0 < s.topPtr → (rasStack s).head? = some (rasBpAddr s)
  next : rasStack (rasNext depth s x) =
    stackNext (decide (s.topPtr = depth)) (s.bufferCnt 0) (rasStack s) x

/-- In every run of fitting cycles the return address stack is the abstract stack; if
entries are kept apart too, the C++ stack publishes the same address after every run. -/
theorem return_stack_runs {depth : Nat} (hdepth : 0 < depth) (buffer : Nat → Cpp.RasItem)
    {inputs : List RasInput} (hfits : Along (rasNext depth) (RasFits depth) rasReset inputs) :
    Along (rasNext depth) (RasCorrect depth) rasReset inputs ∧
      RasOk depth (run (rasNext depth) rasReset inputs) ∧
      (Along (rasNext depth) RasKeepsApart rasReset inputs →
        (run (Cpp.rasCycle depth) (Cpp.Ras.reset buffer) inputs).bpAddr =
          rasBpAddr (run (rasNext depth) rasReset inputs)) := by
  have hstep : ∀ s x, RasOk depth s → RasFits depth s x → RasOk depth (rasNext depth s x) :=
    fun s x hok hx => (rasStack_next hok hx hdepth).2
  refine ⟨?_, invariant_run hstep (rasOk_reset depth) hfits, fun hapart => ?_⟩
  · exact Along.mono (fun s x h => ⟨h.1, rasBpAddr_head h.1, (rasStack_next h.1 h.2 hdepth).1⟩)
      (Along.strengthen hstep (rasOk_reset depth) hfits)
  · have hagrees : ∀ (inputs : List RasInput) (s : RasState) (r : Cpp.Ras), RasOk depth s →
        RasAgrees s r → Along (rasNext depth) (RasFits depth) s inputs →
        Along (rasNext depth) RasKeepsApart s inputs →
        RasAgrees (run (rasNext depth) s inputs) (run (Cpp.rasCycle depth) r inputs) := by
      intro inputs
      induction inputs with
      | nil => exact fun s r _ h _ _ => h
      | cons x inputs ih =>
          intro s r hok h hfits hapart
          exact ih _ _ (hstep s x hok hfits.1)
            (rasAgrees_next hok h hfits.1 hapart.1 hdepth) hfits.2 hapart.2
    have hinit : RasAgrees rasReset (Cpp.Ras.reset buffer) :=
      ⟨rfl, fun i hi => absurd hi (Nat.not_lt_zero i), fun _ => rfl⟩
    exact (hagrees inputs _ _ (rasOk_reset depth) hinit hfits hapart).bpAddr

instance (depth : Nat) (s : RasState) (x : RasInput) : Decidable (RasFits depth s x) :=
  decidable_of_iff ((x.bpRasPush = true → x.bpRasPop = true → s.topPtr = depth →
      x.bpRasAddr ≠ s.buffer (s.topPtr - 1) → s.bufferCnt (s.topPtr - 1) ≤ 1) ∧
    (x.bpRasPush = true → x.bpRasPop = false → s.topPtr = depth →
      x.bpRasAddr = s.buffer (s.topPtr - 1) → s.bufferCnt (s.topPtr - 1) < 0xffffffff))
    ⟨fun h => ⟨h.1, h.2⟩, fun h => ⟨h.replace, h.saturated⟩⟩

instance (s : RasState) (x : RasInput) : Decidable (RasKeepsApart s x) :=
  inferInstanceAs (Decidable (_ → _ → _ → _ → ¬(_ ∧ _)))

/-- A recursion of two levels and the return from it, on a stack of two entries. -/
theorem return_stack_recursion :
    let inputs : List RasInput :=
      [⟨100, true, false⟩, ⟨200, true, false⟩, ⟨200, true, false⟩, ⟨0, false, true⟩]
    rasStack (run (rasNext 2) rasReset inputs) = [200, 100] ∧
      RasOk 2 (run (rasNext 2) rasReset inputs) ∧
      (run (Cpp.rasCycle 2) (Cpp.Ras.reset fun _ => ⟨0, 0⟩) inputs).bpAddr =
        rasBpAddr (run (rasNext 2) rasReset inputs) := by
  intro inputs
  have h := @return_stack_runs 2 (by decide) (fun _ => ⟨0, 0⟩) inputs (by decide)
  exact ⟨by decide, h.2.1, h.2.2 (by decide)⟩

/-- The head of a full stack, of which there are two copies, is replaced. -/
theorem full_replace_overflows :
    let inputs : List RasInput :=
      [⟨100, true, false⟩, ⟨200, true, false⟩, ⟨200, true, false⟩, ⟨300, true, true⟩]
    ¬RasOk 2 (run (rasNext 2) rasReset inputs) ∧
      (run (rasNext 2) rasReset inputs).topPtr = 3 := by
  intro inputs
  have htop : (run (rasNext 2) rasReset inputs).topPtr = 3 := by decide
  refine ⟨fun h => ?_, htop⟩
  have hle := h.topPtr_le
  rw [htop] at hle
  exact absurd hle (by decide)

end DreamCore.Proofs
