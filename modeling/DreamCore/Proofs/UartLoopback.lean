import DreamCore.Model.Loopback
import Mathlib.Tactic.SplitIfs

/-!
# The loopback is lossless

A frame is ten bits of `freqDiv` cycles.  The line registers put the receiver two cycles
behind the transmitter, so one tick, the cycle within the bit that the receiver sees, fixes
all counters of both: the receiver samples where the cycle is `freqDiv / 2` and has closed
the frame before the transmitter has sent the stop bit.
-/

namespace DreamCore.Proofs

open DreamCore.Clocked DreamCore.Rtl DreamCore.Model

/-! ## Ticks of a frame -/

structure Tick where
  bit : Nat
  cycle : Nat

def Tick.next (freqDiv : Nat) (t : Tick) : Tick where
  bit := if t.cycle + 1 < freqDiv then t.bit else t.bit + 1
  cycle := if t.cycle + 1 < freqDiv then t.cycle + 1 else 0

theorem Tick.next_inner {freqDiv : Nat} {t : Tick} (h : t.cycle + 1 < freqDiv) :
    t.next freqDiv = ⟨t.bit, t.cycle + 1⟩ := by rw [Tick.next, if_pos h, if_pos h]

theorem Tick.next_last {freqDiv : Nat} {t : Tick} (h : ¬ t.cycle + 1 < freqDiv) :
    t.next freqDiv = ⟨t.bit + 1, 0⟩ := by rw [Tick.next, if_neg h, if_neg h]

/-- What the line carries during a bit of the frame. -/
def lineBit (byte : BitVec 8) (bit : Nat) : Bool :=
  if bit = 0 then false else if bit ≤ 8 then byte.getLsbD (bit - 1) else true

section Loopback

variable {freqDiv : Nat} {byte : BitVec 8} {t : Tick} {s : UartState} {input : UartInput} {rxd : Bool}

/-! ## The transmitter -/

/-- The transmitter is at tick `t`. -/
structure Transmits (byte : BitVec 8) (t : Tick) (s : UartState) : Prop where
  state : s.sendCurState = t.bit + 1
  clk : s.sendClkCnt = t.cycle
  buf : s.sendDataBuf = byte
  line : s.txd = lineBit byte t.bit

theorem Transmits.busy (h : Transmits byte t s) : sendBusy s = true := by
  rw [sendBusy, h.state, decide_eq_true_eq]
  exact Nat.succ_ne_zero _

theorem Transmits.sendEn_iff (h : Transmits byte t s) :
    sendEn freqDiv s input = decide (t.cycle = freqDiv - 1) := by
  rw [sendEn, h.busy, h.clk, Bool.not_true, Bool.and_false, Bool.or_false, Bool.and_true]

theorem Transmits.buf_next (h : Transmits byte t s) : sendDataBufNext s input = byte := by
  rw [sendDataBufNext, h.busy, Bool.not_true, Bool.and_false, if_neg Bool.false_ne_true, h.buf]

theorem Transmits.clk_next (h : Transmits byte t s) (hcycle : t.cycle < freqDiv) :
    sendClkCntNext freqDiv s input = (t.next freqDiv).cycle := by
  rw [sendClkCntNext, h.busy, if_pos rfl, h.clk]
  by_cases hlast : t.cycle + 1 < freqDiv
  · rw [if_pos (by omega), Tick.next_inner hlast]
  · rw [if_neg (by omega), Tick.next_last hlast]

/-- Within the frame the transmitter goes on to the next tick. -/
theorem Transmits.next (h : Transmits byte t s) (hcycle : t.cycle < freqDiv)
    (hbit : (t.next freqDiv).bit ≤ 9) :
    Transmits byte (t.next freqDiv) (uartNext freqDiv s input rxd) := by
  refine ⟨?_, h.clk_next hcycle, h.buf_next, ?_⟩
  · show sendNextState freqDiv s input = _
    rw [sendNextState, h.state, if_neg (Nat.succ_ne_zero _), h.sendEn_iff]
    by_cases hlast : t.cycle + 1 < freqDiv
    · rw [Tick.next_inner hlast, decide_eq_false (by omega), if_neg Bool.false_ne_true]
    · rw [Tick.next_last hlast] at hbit ⊢
      have hle : t.bit + 1 ≤ 9 := hbit
      rw [decide_eq_true (by omega), if_pos rfl, if_neg (by omega), Nat.mod_eq_of_lt (by omega)]
  · show txdNext freqDiv s input = _
    rw [txdNext, h.state, h.sendEn_iff, if_neg (Nat.succ_ne_zero _), h.buf, h.line]
    by_cases hlast : t.cycle + 1 < freqDiv
    · rw [Tick.next_inner hlast, decide_eq_false (by omega), if_neg Bool.false_ne_true]
    · rw [Tick.next_last hlast] at hbit ⊢
      have hle : t.bit + 1 ≤ 9 := hbit
      rw [decide_eq_true (by omega), if_pos rfl, Nat.add_sub_cancel]
      show _ = if t.bit + 1 = 0 then false else
        if t.bit + 1 ≤ 8 then byte.getLsbD (t.bit + 1 - 1) else true
      rw [if_neg (Nat.succ_ne_zero _), Nat.add_sub_cancel]
      by_cases hdata : t.bit + 1 ≤ 8
      · rw [if_pos hdata, if_pos hdata]
      · rw [if_neg hdata, if_neg hdata, if_pos (by omega)]

/-- After the last tick the transmitter is idle and the line high. -/
theorem Transmits.finish (h : Transmits byte t s) (hcycle : t.cycle = freqDiv - 1)
    (hbit : t.bit = 9) :
    (uartNext freqDiv s input rxd).sendCurState = 0 ∧ (uartNext freqDiv s input rxd).txd = true := by
  refine ⟨?_, ?_⟩
  · show sendNextState freqDiv s input = 0
    rw [sendNextState, h.state, if_neg (Nat.succ_ne_zero _), h.sendEn_iff, decide_eq_true hcycle,
      if_pos rfl, hbit, if_pos rfl]
  · show txdNext freqDiv s input = true
    rw [txdNext, h.state, h.sendEn_iff, decide_eq_true hcycle, if_pos rfl, h.line, hbit]
    rfl

/-! ## The receiver -/

/-- The receiver waits for a start bit. -/
structure Waits (s : UartState) : Prop where
  doing : s.revDoing = false
  sample : s.revSample = false
  cnt : s.revCnt = 0
  done : s.revDone = false

/-- Samples taken before the tick. -/
def samplesBefore (freqDiv : Nat) (t : Tick) : Nat :=
  t.bit + if freqDiv / 2 < t.cycle then 1 else 0

/-- The frame is open until three cycles behind the last sample. -/
def FrameOpen (freqDiv : Nat) (t : Tick) : Prop :=
  (0 < t.bit ∨ 0 < t.cycle) ∧ (t.bit < 9 ∨ t.cycle ≤ freqDiv / 2 + 2)

instance (freqDiv : Nat) (t : Tick) : Decidable (FrameOpen freqDiv t) :=
  inferInstanceAs (Decidable (_ ∧ _))

/-- The receiver is at tick `t` of a frame. -/
structure Receives (freqDiv : Nat) (t : Tick) (s : UartState) : Prop where
  doing : s.revDoing = decide (FrameOpen freqDiv t)
  clk : FrameOpen freqDiv t → s.revClkCnt = t.cycle
  sample : s.revSample = decide (t.cycle = freqDiv / 2)
  cnt : s.revCnt = if t.bit = 9 ∧ freqDiv / 2 + 2 < t.cycle then 0 else samplesBefore freqDiv t
  done : s.revDone = decide (t.bit = 9 ∧ (t.cycle = freqDiv / 2 + 2 ∨ t.cycle = freqDiv / 2 + 3))

/-- With the line low the waiting receiver starts; with the line high it waits on. -/
theorem Waits.next (h : Waits s) (hline : rxdSync s = true) : Waits (uartNext freqDiv s input rxd) := by
  have hstart : revStart s = false := by rw [revStart, hline, Bool.not_true, Bool.and_false]
  refine ⟨?_, ?_, ?_, ?_⟩
  · show revDoingNext s = false
    rw [revDoingNext, hstart, h.doing]
    rfl
  · show revSampleNext freqDiv s = false
    rw [revSampleNext, h.doing, Bool.false_and]
  · show revCntNext s = 0
    rw [revCntNext, hstart, h.done, h.sample, h.cnt]
    rfl
  · show revDoneNext s = false
    rw [revDoneNext, h.cnt]
    rfl

theorem not_frameOpen_iff (hbit : t.bit ≤ 9) :
    ¬ FrameOpen freqDiv t ↔
      (t.bit = 0 ∧ t.cycle = 0) ∨ (t.bit = 9 ∧ freqDiv / 2 + 2 < t.cycle) := by
  rw [FrameOpen]
  omega

section Receive

variable (hdiv : 16 ≤ freqDiv) (h : Receives freqDiv t s) (hcycle : t.cycle < freqDiv)
  (hbit : t.bit ≤ 9) (hline : rxdSync s = lineBit byte t.bit)

include h hbit hline

/-- The line is low and the receiver not busy only at the first tick. -/
theorem Receives.start_iff : revStart s = decide (t.bit = 0 ∧ t.cycle = 0) := by
  rw [revStart, h.doing, hline, Bool.eq_iff_iff, Bool.and_eq_true, Bool.not_eq_true',
    decide_eq_false_iff_not, not_frameOpen_iff hbit, decide_eq_true_eq, Bool.not_eq_true']
  constructor
  · rintro ⟨hfirst | hlast, hlow⟩
    · exact hfirst
    · rw [hlast.1] at hlow
      cases hlow
  · intro hfirst
    refine ⟨.inl hfirst, ?_⟩
    rw [hfirst.1]
    rfl

include hdiv hcycle

theorem Receives.doing_next (hinside : (t.next freqDiv).bit ≤ 9) :
    revDoingNext s = decide (FrameOpen freqDiv (t.next freqDiv)) := by
  rw [revDoingNext, h.start_iff hbit hline, h.doing, h.done]
  by_cases hfirst : t.bit = 0 ∧ t.cycle = 0
  · have hopen : FrameOpen freqDiv (t.next freqDiv) := by
      rw [Tick.next_inner (by omega)]
      exact ⟨.inr (Nat.succ_pos _), .inl (by dsimp only; omega)⟩
    rw [decide_eq_true hfirst, if_pos rfl, decide_eq_true hopen]
  rw [decide_eq_false hfirst, if_neg Bool.false_ne_true]
  by_cases hopen : FrameOpen freqDiv t
  · rw [decide_eq_true hopen, Bool.true_and]
    have hnow : t.bit < 9 ∨ t.cycle ≤ freqDiv / 2 + 2 := hopen.2
    by_cases hdone : t.bit = 9 ∧ (t.cycle = freqDiv / 2 + 2 ∨ t.cycle = freqDiv / 2 + 3)
    · have hclosed : ¬ FrameOpen freqDiv (t.next freqDiv) := by
        rw [Tick.next_inner (by omega), FrameOpen]
        dsimp only
        omega
      rw [decide_eq_true hdone, if_pos rfl, decide_eq_false hclosed]
    · have hstill : FrameOpen freqDiv (t.next freqDiv) := by
        by_cases hlast : t.cycle + 1 < freqDiv
        · rw [Tick.next_inner hlast]
          exact ⟨.inr (Nat.succ_pos _), by dsimp only; omega⟩
        · rw [Tick.next_last hlast]
          exact ⟨.inl (Nat.succ_pos _), .inr (Nat.zero_le _)⟩
      rw [decide_eq_false hdone, if_neg Bool.false_ne_true, decide_eq_true hstill]
  · have hclosed : ¬ FrameOpen freqDiv (t.next freqDiv) := by
      rw [not_frameOpen_iff hbit] at hopen
      by_cases hlast : t.cycle + 1 < freqDiv
      · rw [Tick.next_inner hlast, FrameOpen]
        dsimp only
        omega
      · rw [Tick.next_last hlast] at hinside
        have hle : t.bit + 1 ≤ 9 := hinside
        omega
    rw [decide_eq_false hopen, Bool.false_and, if_neg Bool.false_ne_true, decide_eq_false hclosed]

theorem Receives.clk_next (hinside : (t.next freqDiv).bit ≤ 9)
    (hopen : FrameOpen freqDiv (t.next freqDiv)) :
    revClkCntNext freqDiv s = (t.next freqDiv).cycle := by
  rw [revClkCntNext, h.start_iff hbit hline, h.doing]
  by_cases hfirst : t.bit = 0 ∧ t.cycle = 0
  · rw [decide_eq_true hfirst, if_pos rfl, Tick.next_inner (by omega), hfirst.2]
  · have hnow : FrameOpen freqDiv t := by
      by_cases hlast : t.cycle + 1 < freqDiv
      · rw [Tick.next_inner hlast] at hopen
        simp only [FrameOpen] at hopen ⊢
        omega
      · rw [Tick.next_last hlast] at hinside
        have hle : t.bit + 1 ≤ 9 := hinside
        simp only [FrameOpen]
        omega
    rw [decide_eq_false hfirst, if_neg Bool.false_ne_true, decide_eq_true hnow, if_pos rfl, h.clk hnow]
    by_cases hlast : t.cycle + 1 < freqDiv
    · rw [Tick.next_inner hlast, if_pos (by omega)]
    · rw [Tick.next_last hlast, if_neg (by omega)]

omit hline in
theorem Receives.sample_next :
    revSampleNext freqDiv s = decide ((t.next freqDiv).cycle = freqDiv / 2) := by
  have hnext : (t.next freqDiv).cycle = freqDiv / 2 ↔ t.cycle = freqDiv / 2 - 1 := by
    by_cases hlast : t.cycle + 1 < freqDiv
    · rw [Tick.next_inner hlast]
      show t.cycle + 1 = _ ↔ _
      omega
    · rw [Tick.next_last hlast]
      show 0 = _ ↔ _
      omega
  rw [revSampleNext, h.doing, decide_eq_decide.mpr hnext]
  by_cases hopen : FrameOpen freqDiv t
  · rw [decide_eq_true hopen, Bool.true_and, h.clk hopen]
  · rw [decide_eq_false hopen, Bool.false_and]
    rw [not_frameOpen_iff hbit] at hopen
    exact (decide_eq_false (by omega)).symm

theorem Receives.cnt_next (hinside : (t.next freqDiv).bit ≤ 9) :
    revCntNext s = if (t.next freqDiv).bit = 9 ∧ freqDiv / 2 + 2 < (t.next freqDiv).cycle then 0
      else samplesBefore freqDiv (t.next freqDiv) := by
  rw [revCntNext, h.start_iff hbit hline, h.done, h.sample, h.cnt]
  by_cases hlast : t.cycle + 1 < freqDiv
  · rw [Tick.next_inner hlast]
    simp only [samplesBefore, decide_eq_true_eq]
    split_ifs <;> omega
  · rw [Tick.next_last hlast] at hinside ⊢
    have hle : t.bit + 1 ≤ 9 := hinside
    simp only [samplesBefore, decide_eq_true_eq]
    split_ifs <;> omega

omit hline in
theorem Receives.done_next (hinside : (t.next freqDiv).bit ≤ 9) :
    revDoneNext s = decide ((t.next freqDiv).bit = 9 ∧
      ((t.next freqDiv).cycle = freqDiv / 2 + 2 ∨ (t.next freqDiv).cycle = freqDiv / 2 + 3)) := by
  rw [revDoneNext, h.cnt, samplesBefore]
  by_cases hlast : t.cycle + 1 < freqDiv
  · rw [Tick.next_inner hlast, decide_eq_decide]
    split_ifs <;> refine ⟨fun hnow => ?_, fun hnext => ?_⟩ <;> dsimp only at * <;> omega
  · rw [Tick.next_last hlast] at hinside ⊢
    have hle : t.bit + 1 ≤ 9 := hinside
    have hno : ¬ (t.bit + 1 = 9 ∧ (0 = freqDiv / 2 + 2 ∨ 0 = freqDiv / 2 + 3)) := by omega
    rw [decide_eq_false hno, decide_eq_false_iff_not]
    split_ifs <;> omega

theorem Receives.next (hinside : (t.next freqDiv).bit ≤ 9) :
    Receives freqDiv (t.next freqDiv) (uartNext freqDiv s input rxd) :=
  ⟨h.doing_next hdiv hcycle hbit hline hinside, h.clk_next hdiv hcycle hbit hline hinside,
    h.sample_next hdiv hcycle hbit, h.cnt_next hdiv hcycle hbit hline hinside,
    h.done_next hdiv hcycle hbit hinside⟩

end Receive

/-- Before the transmitter ends the frame the receiver waits again. -/
theorem Receives.waits (hdiv : 16 ≤ freqDiv) (h : Receives freqDiv t s) (hbit : t.bit = 9)
    (hcycle : t.cycle + 3 = freqDiv) : Waits s := by
  have hclosed : ¬ FrameOpen freqDiv t := (not_frameOpen_iff (by omega)).mpr (.inr (by omega))
  refine ⟨?_, ?_, ?_, ?_⟩
  · rw [h.doing, decide_eq_false hclosed]
  · rw [h.sample, decide_eq_false (by omega)]
  · rw [h.cnt, if_pos (by omega)]
  · rw [h.done, decide_eq_false (by omega)]

/-! ## Both sides of the line -/

/-- Nothing is under way. -/
structure Idle (s : UartState) : Prop where
  state : s.sendCurState = 0
  line : s.txd = true
  sync : s.rxdSyncShiftReg = (true, true)
  waits : Waits s

/-- The first two cycles of a frame, which the receiver does not see yet. -/
structure Starts (byte : BitVec 8) (cycle : Nat) (s : UartState) : Prop where
  transmits : Transmits byte ⟨0, cycle⟩ s
  sync : s.rxdSyncShiftReg = (true, decide (cycle = 0))
  waits : Waits s

/-- The receiver sees tick `t`, and the transmitter is two cycles ahead. -/
structure InFrame (freqDiv : Nat) (byte : BitVec 8) (t : Tick) (s : UartState) : Prop where
  cycle_lt : t.cycle < freqDiv
  inside : ((t.next freqDiv).next freqDiv).bit ≤ 9
  transmits : Transmits byte ((t.next freqDiv).next freqDiv) s
  sync : s.rxdSyncShiftReg = (lineBit byte t.bit, lineBit byte (t.next freqDiv).bit)
  receives : Receives freqDiv t s

theorem Tick.next_cycle_lt (h : t.cycle < freqDiv) : (t.next freqDiv).cycle < freqDiv := by
  by_cases hlast : t.cycle + 1 < freqDiv
  · rwa [Tick.next_inner hlast]
  · rw [Tick.next_last hlast]
    exact Nat.zero_lt_of_lt h

theorem Tick.bit_le_next (t : Tick) : t.bit ≤ (t.next freqDiv).bit := by
  rw [Tick.next]
  dsimp only
  split
  · exact Nat.le_refl _
  · exact Nat.le_succ _

theorem Idle.not_busy (h : Idle s) : sendBusy s = false := by
  rw [sendBusy, h.state]
  rfl

theorem Idle.next_idle (h : Idle s) (hsend : input.send = false) :
    Idle (uartNext freqDiv s input s.txd) := by
  have hen : sendEn freqDiv s input = false := by
    rw [sendEn, h.not_busy, hsend, Bool.and_false]
    rfl
  refine ⟨?_, ?_, ?_, h.waits.next (congrArg Prod.fst h.sync)⟩
  · show sendNextState freqDiv s input = 0
    rw [sendNextState, h.state, if_pos rfl, hsend, if_neg Bool.false_ne_true]
  · show txdNext freqDiv s input = true
    rw [txdNext, hen, if_neg Bool.false_ne_true, h.line]
  · show (s.rxdSyncShiftReg.2, s.txd) = _
    rw [h.sync, h.line]

theorem Idle.next_starts (h : Idle s) (hsend : input.send = true) :
    Starts input.sendData 0 (uartNext freqDiv s input s.txd) := by
  have hen : sendEn freqDiv s input = true := by
    rw [sendEn, h.not_busy, hsend, Bool.and_false]
    rfl
  refine ⟨⟨?_, ?_, ?_, ?_⟩, ?_, h.waits.next (congrArg Prod.fst h.sync)⟩
  · show sendNextState freqDiv s input = 1
    rw [sendNextState, h.state, if_pos rfl, hsend, if_pos rfl]
  · show sendClkCntNext freqDiv s input = 0
    rw [sendClkCntNext, h.not_busy, if_neg Bool.false_ne_true, hsend, if_pos rfl]
  · show sendDataBufNext s input = _
    rw [sendDataBufNext, h.not_busy, hsend]
    rfl
  · show txdNext freqDiv s input = _
    rw [txdNext, hen, if_pos rfl, h.state, if_pos rfl]
    rfl
  · show (s.rxdSyncShiftReg.2, s.txd) = _
    rw [h.sync, h.line]
    rfl

theorem Starts.next_starts (hdiv : 16 ≤ freqDiv) (h : Starts byte 0 s) :
    Starts byte 1 (uartNext freqDiv s input s.txd) := by
  have hnext : (⟨0, 0⟩ : Tick).next freqDiv = ⟨0, 1⟩ := Tick.next_inner (by dsimp only; omega)
  refine ⟨?_, ?_, h.waits.next (congrArg Prod.fst h.sync)⟩
  · rw [← hnext]
    exact h.transmits.next (by dsimp only; omega) (by rw [hnext]; exact Nat.zero_le _)
  · show (s.rxdSyncShiftReg.2, s.txd) = _
    rw [h.sync, h.transmits.line]
    rfl

theorem Starts.next_frame (hdiv : 16 ≤ freqDiv) (h : Starts byte 1 s) :
    InFrame freqDiv byte ⟨0, 0⟩ (uartNext freqDiv s input s.txd) := by
  have hnext : (⟨0, 0⟩ : Tick).next freqDiv = ⟨0, 1⟩ := Tick.next_inner (by dsimp only; omega)
  have hnext2 : (⟨0, 1⟩ : Tick).next freqDiv = ⟨0, 2⟩ := Tick.next_inner (by dsimp only; omega)
  have hwaits : Waits (uartNext freqDiv s input s.txd) := h.waits.next (congrArg Prod.fst h.sync)
  refine ⟨by dsimp only; omega, ?_, ?_, ?_, ?_⟩
  · rw [hnext, hnext2]
    exact Nat.zero_le _
  · rw [hnext]
    exact h.transmits.next (by dsimp only; omega) (by rw [hnext2]; exact Nat.zero_le _)
  · show (s.rxdSyncShiftReg.2, s.txd) = _
    rw [h.sync, h.transmits.line, hnext]
    rfl
  · have hclosed : ¬ FrameOpen freqDiv ⟨0, 0⟩ := fun hopen => absurd hopen.1 (by decide)
    refine ⟨?_, fun hopen => absurd hopen hclosed, ?_, ?_, ?_⟩
    · rw [hwaits.doing, decide_eq_false hclosed]
    · rw [hwaits.sample]
      exact (decide_eq_false (by dsimp only; omega)).symm
    · rw [hwaits.cnt, if_neg (fun hlast => absurd hlast.1 (by decide)), samplesBefore,
        if_neg (Nat.not_lt_zero _)]
    · rw [hwaits.done]
      exact (decide_eq_false fun hlast => absurd hlast.1 (by decide)).symm

theorem InFrame.bit_le (h : InFrame freqDiv byte t s) : (t.next freqDiv).bit ≤ 9 :=
  (Tick.bit_le_next _).trans h.inside

theorem InFrame.next_frame (hdiv : 16 ≤ freqDiv) (h : InFrame freqDiv byte t s)
    (hinside : (((t.next freqDiv).next freqDiv).next freqDiv).bit ≤ 9) :
    InFrame freqDiv byte (t.next freqDiv) (uartNext freqDiv s input s.txd) := by
  refine ⟨Tick.next_cycle_lt h.cycle_lt, hinside,
    h.transmits.next (Tick.next_cycle_lt (Tick.next_cycle_lt h.cycle_lt)) hinside, ?_,
    h.receives.next hdiv h.cycle_lt ((Tick.bit_le_next t).trans h.bit_le)
      (congrArg Prod.fst h.sync) h.bit_le⟩
  show (s.rxdSyncShiftReg.2, s.txd) = _
  rw [h.sync, h.transmits.line]

/-- The tick the receiver sees when the transmitter ends the frame. -/
theorem InFrame.last (hdiv : 16 ≤ freqDiv) (h : InFrame freqDiv byte t s)
    (hlast : ¬ (((t.next freqDiv).next freqDiv).next freqDiv).bit ≤ 9) :
    t.bit = 9 ∧ t.cycle + 3 = freqDiv := by
  have hin := h.inside
  have hcycle := h.cycle_lt
  by_cases h1 : t.cycle + 1 < freqDiv
  · have hnext : t.next freqDiv = ⟨t.bit, t.cycle + 1⟩ := Tick.next_inner h1
    by_cases h2 : t.cycle + 1 + 1 < freqDiv
    · have hnext2 : (t.next freqDiv).next freqDiv = ⟨t.bit, t.cycle + 1 + 1⟩ := by
        rw [hnext]
        exact Tick.next_inner h2
      rw [hnext2] at hin hlast
      by_cases h3 : t.cycle + 1 + 1 + 1 < freqDiv
      · rw [Tick.next_inner (show (⟨t.bit, t.cycle + 1 + 1⟩ : Tick).cycle + 1 < freqDiv from h3)] at hlast
        exact absurd hin hlast
      · rw [Tick.next_last (show ¬ (⟨t.bit, t.cycle + 1 + 1⟩ : Tick).cycle + 1 < freqDiv from h3)] at hlast
        have hle : t.bit ≤ 9 := hin
        have hnot : ¬ t.bit + 1 ≤ 9 := hlast
        omega
    · have hnext2 : (t.next freqDiv).next freqDiv = ⟨t.bit + 1, 0⟩ := by
        rw [hnext]
        exact Tick.next_last h2
      rw [hnext2] at hin hlast
      rw [Tick.next_inner (show 0 + 1 < freqDiv by omega)] at hlast
      exact absurd hin hlast
  · have hnext2 : (t.next freqDiv).next freqDiv = ⟨t.bit + 1, 1⟩ := by
      rw [Tick.next_last h1]
      exact Tick.next_inner (show 0 + 1 < freqDiv by omega)
    rw [hnext2] at hin hlast
    rw [Tick.next_inner (show 1 + 1 < freqDiv by omega)] at hlast
    exact absurd hin hlast

theorem InFrame.next_idle (hdiv : 16 ≤ freqDiv) (h : InFrame freqDiv byte t s)
    (hlast : ¬ (((t.next freqDiv).next freqDiv).next freqDiv).bit ≤ 9) :
    Idle (uartNext freqDiv s input s.txd) := by
  obtain ⟨hbit, hcycle⟩ := h.last hdiv hlast
  have hnext : t.next freqDiv = ⟨9, t.cycle + 1⟩ := by rw [Tick.next_inner (by omega), hbit]
  have hnext2 : (t.next freqDiv).next freqDiv = ⟨9, t.cycle + 2⟩ := by
    rw [hnext, Tick.next_inner (by dsimp only; omega)]
  have hhigh : rxdSync s = true := by
    rw [rxdSync, h.sync, hbit]
    rfl
  have htransmits := h.transmits
  rw [hnext2] at htransmits
  have hfinish : (uartNext freqDiv s input s.txd).sendCurState = 0 ∧
      (uartNext freqDiv s input s.txd).txd = true :=
    htransmits.finish (by dsimp only; omega) rfl
  obtain ⟨hstate, hline⟩ := hfinish
  refine ⟨hstate, hline, ?_, (h.receives.waits hdiv hbit hcycle).next hhigh⟩
  show (s.rxdSyncShiftReg.2, s.txd) = _
  rw [h.sync, htransmits.line, hnext]
  rfl

/-! ## The shift register -/

/-- The data register when `k` bits of a byte have been shifted in. -/
def shifted (old byte : BitVec 8) : Nat → BitVec 8
  | 0 => old
  | k + 1 => shiftIn (byte.getLsbD k) (shifted old byte k)

theorem getLsbD_shiftIn (bit : Bool) (data : BitVec 8) (i : Nat) (hi : i < 8) :
    (shiftIn bit data).getLsbD i = if i = 7 then bit else data.getLsbD (i + 1) := by
  rw [shiftIn, BitVec.getLsbD_cons]
  by_cases hlast : i = 7
  · rw [if_pos hlast, if_pos hlast]
  · rw [if_neg hlast, if_neg hlast, BitVec.getLsbD_extractLsb', decide_eq_true (by omega),
      Bool.true_and, Nat.add_comm]

theorem getLsbD_shifted (old byte : BitVec 8) (k i : Nat) (hi : i < 8) :
    (shifted old byte k).getLsbD i =
      if 8 ≤ i + k then byte.getLsbD (i + k - 8) else old.getLsbD (i + k) := by
  induction k generalizing i with
  | zero => rw [if_neg (by omega), shifted, Nat.add_zero]
  | succ k ih =>
      rw [shifted, getLsbD_shiftIn _ _ i hi]
      by_cases hlast : i = 7
      · rw [if_pos hlast, if_pos (by omega), show i + (k + 1) - 8 = k by omega]
      · rw [if_neg hlast, ih (i + 1) (by omega), show i + 1 + k = i + (k + 1) by omega]

theorem shifted_eight (old byte : BitVec 8) : shifted old byte 8 = byte := by
  apply BitVec.eq_of_getLsbD_eq
  intro i hi
  rw [getLsbD_shifted old byte 8 i hi, if_pos (Nat.le_add_left _ _), Nat.add_sub_cancel]

/-! ## Bytes received -/

/-- The last byte received stands in the data register. -/
def HeldOk (l : Loopback) : Prop := ∀ b, l.held = some b → l.uart.revData = b

/-- How far the frame of `byte` has come when `k` samples have been taken. -/
inductive DataAt (byte : BitVec 8) : Nat → Loopback → Prop
  | early {k l} (hk : k ≤ 1) (hsent : l.sent = l.received ++ [byte]) (hheld : HeldOk l) :
      DataAt byte k l
  | shifting {k l} (old : BitVec 8) (hk : k + 2 ≤ 8) (hsent : l.sent = l.received ++ [byte])
      (hheld : l.held = none) (hvalid : l.uart.revDataValid = false)
      (hdata : l.uart.revData = shifted old byte (k + 1)) : DataAt byte (k + 2) l
  | done {k l} (hk : 9 ≤ k) (hsent : l.sent = l.received) (hheld : HeldOk l) : DataAt byte k l

section Data

variable {l : Loopback} {k : Nat}

theorem sent_next (hsend : input.send = false) :
    (loopbackNext freqDiv l input).sent = l.sent := by
  show (if input.send then _ else _) = _
  rw [hsend, if_neg Bool.false_ne_true]

variable (freqDiv input rxd) in
/-- Without the eighth sample the valid flag does not rise. -/
theorem not_validRises (hquiet : (l.uart.revSample && decide (l.uart.revCnt = 8)) = false) :
    validRises l.uart (uartNext freqDiv l.uart input rxd) = false := by
  have hvalid : revDataValidNext l.uart input = true → l.uart.revDataValid = true := by
    rw [revDataValidNext, hquiet, if_neg Bool.false_ne_true]
    intro hnext
    split at hnext
    · cases hnext
    · split at hnext
      · cases hnext
      · exact hnext
  show (!l.uart.revDataValid && revDataValidNext l.uart input) = false
  cases hold : l.uart.revDataValid
  · rw [Bool.not_false, Bool.true_and]
    exact Bool.eq_false_iff.mpr fun hnext => Bool.false_ne_true (hold.symm.trans (hvalid hnext))
  · rfl

theorem received_next_of_not_rises
    (hrises : validRises l.uart (uartNext freqDiv l.uart input l.uart.txd) = false) :
    (loopbackNext freqDiv l input).received = l.received := by
  show (if validRises l.uart (uartNext freqDiv l.uart input l.uart.txd) then _ else _) = _
  rw [hrises, if_neg Bool.false_ne_true]

theorem held_next_of_not_rises
    (hrises : validRises l.uart (uartNext freqDiv l.uart input l.uart.txd) = false) :
    (loopbackNext freqDiv l input).held = if firstBitSampled l.uart then none else l.held := by
  show (if validRises l.uart (uartNext freqDiv l.uart input l.uart.txd) then _ else _) = _
  rw [hrises, if_neg Bool.false_ne_true]

variable (freqDiv input) in
/-- A cycle that samples no data bit leaves the received bytes and the data register. -/
theorem quiet_next (hquiet : l.uart.revSample = false ∨ l.uart.revCnt = 0 ∨ 8 < l.uart.revCnt) :
    (loopbackNext freqDiv l input).received = l.received ∧
      (loopbackNext freqDiv l input).held = l.held ∧
      (loopbackNext freqDiv l input).uart.revData = l.uart.revData := by
  have hnot : ∀ n, 1 ≤ n → n ≤ 8 → (l.uart.revSample && decide (l.uart.revCnt = n)) = false := by
    intro n hlow hhigh
    rw [Bool.and_eq_false_iff, decide_eq_false_iff_not]
    rcases hquiet with hsample | hzero | hlate
    · exact .inl hsample
    · exact .inr (by omega)
    · exact .inr (by omega)
  have hrises := not_validRises freqDiv input l.uart.txd
    (hnot 8 (by omega) (by omega))
  refine ⟨received_next_of_not_rises hrises, ?_, ?_⟩
  · rw [held_next_of_not_rises hrises, firstBitSampled, hnot 1 (by omega) (by omega),
      if_neg Bool.false_ne_true]
  · show revDataNext l.uart = _
    rw [revDataNext]
    split
    · rename_i hshift
      simp only [Bool.and_eq_true, decide_eq_true_eq] at hshift
      rcases hquiet with hsample | hzero | hlate
      · exact absurd (hshift.1.1.symm.trans hsample) Bool.noConfusion
      · omega
      · omega
    · rfl

theorem HeldOk.quiet (hheld : HeldOk l)
    (hquiet : l.uart.revSample = false ∨ l.uart.revCnt = 0 ∨ 8 < l.uart.revCnt) :
    HeldOk (loopbackNext freqDiv l input) := by
  obtain ⟨-, hsame, hdata⟩ := quiet_next freqDiv input hquiet
  intro b hb
  rw [hdata]
  exact hheld b (hsame.symm.trans hb)

/-- Between two samples the frame stays where it is. -/
theorem DataAt.quiet (h : DataAt byte k l) (hsend : input.send = false)
    (hsample : l.uart.revSample = false) : DataAt byte k (loopbackNext freqDiv l input) := by
  obtain ⟨hreceived, hsame, hdata⟩ :=
    quiet_next freqDiv input (.inl hsample)
  cases h with
  | early hk hsent hheld =>
      exact .early hk (by rw [sent_next hsend, hreceived, hsent]) (hheld.quiet (.inl hsample))
  | shifting old hk hsent hheld hvalid hreg =>
      refine .shifting old hk (by rw [sent_next hsend, hreceived, hsent]) (hsame.trans hheld) ?_
        (hdata.trans hreg)
      show revDataValidNext l.uart input = false
      rw [revDataValidNext, hsample, hvalid]
      simp only [Bool.false_and, Bool.false_eq_true, if_false, ite_self]
  | done hk hsent hheld =>
      exact .done hk (by rw [sent_next hsend, hreceived, hsent]) (hheld.quiet (.inl hsample))

section Sample

variable (hsample : l.uart.revSample = true) (hcnt : l.uart.revCnt = k)
  (hline : rxdSync l.uart = lineBit byte k)

include hsample hcnt hline

variable (freqDiv input) in
theorem revData_sample (hlow : 1 ≤ k) (hhigh : k ≤ 8) :
    (loopbackNext freqDiv l input).uart.revData =
      shiftIn (byte.getLsbD (k - 1)) l.uart.revData := by
  show revDataNext l.uart = _
  have hshift : (l.uart.revSample && decide (0 < l.uart.revCnt) &&
      decide (l.uart.revCnt ≤ 8)) = true := by
    rw [hsample, hcnt, decide_eq_true (show 0 < k from hlow), decide_eq_true hhigh]
    rfl
  rw [revDataNext, if_pos hshift, hline, lineBit, if_neg (by omega), if_pos hhigh]

/-- A sample takes the frame one bit further. -/
theorem DataAt.sample (h : DataAt byte k l) (hsend : input.send = false) (hk : k ≤ 9) :
    DataAt byte (k + 1) (loopbackNext freqDiv l input) := by
  have hdata := revData_sample freqDiv input hsample hcnt hline
  cases h with
  | early hearly hsent hheld =>
      by_cases hzero : k = 0
      · have hquiet : l.uart.revSample = false ∨ l.uart.revCnt = 0 ∨ 8 < l.uart.revCnt :=
          .inr (.inl (hcnt.trans hzero))
        obtain ⟨hreceived, -, -⟩ := quiet_next freqDiv input hquiet
        exact .early (by omega) (by rw [sent_next hsend, hreceived, hsent]) (hheld.quiet hquiet)
      · obtain rfl : k = 1 := by omega
        have hrises := not_validRises freqDiv input l.uart.txd
          (l := l) (by rw [hcnt]; exact Bool.and_false _)
        refine .shifting l.uart.revData (by omega)
          (by rw [sent_next hsend, received_next_of_not_rises hrises, hsent]) ?_ ?_
          (hdata (by omega) (by omega))
        · rw [held_next_of_not_rises hrises, firstBitSampled, hsample, hcnt]
          rfl
        · show revDataValidNext l.uart input = false
          rw [revDataValidNext, hsample, hcnt]
          rfl
  | @shifting n _ old hn hsent hheld hvalid hreg =>
      by_cases hlast : n = 6
      · subst hlast
        have hnext : revDataValidNext l.uart input = true := by
          rw [revDataValidNext, hsample, hcnt]
          rfl
        have hrises : validRises l.uart (uartNext freqDiv l.uart input l.uart.txd) = true := by
          show (!l.uart.revDataValid && revDataValidNext l.uart input) = true
          rw [hvalid, hnext]
          rfl
        have hbyte : (uartNext freqDiv l.uart input l.uart.txd).revData = byte :=
          (hdata (by omega) (by omega)).trans
            ((congrArg (shiftIn (byte.getLsbD 7)) hreg).trans (shifted_eight old byte))
        refine .done (by omega) ?_ ?_
        · show (if input.send then _ else _) = if validRises _ _ then _ else _
          rw [hsend, hrises, if_neg Bool.false_ne_true, if_pos rfl, hbyte, hsent]
        · intro b hb
          have hsome : (loopbackNext freqDiv l input).held =
              some (uartNext freqDiv l.uart input l.uart.txd).revData := by
            show (if validRises _ _ then _ else _) = _
            rw [hrises, if_pos rfl]
          exact Option.some.inj (hsome.symm.trans hb)
      · have hnot8 : decide (l.uart.revCnt = 8) = false := decide_eq_false (by omega)
        have hnot1 : decide (l.uart.revCnt = 1) = false := decide_eq_false (by omega)
        have hrises := not_validRises freqDiv input l.uart.txd
          (l := l) (by rw [hnot8, Bool.and_false])
        refine .shifting (k := n + 1) old (by omega)
          (by rw [sent_next hsend, received_next_of_not_rises hrises, hsent]) ?_ ?_ ?_
        · rw [held_next_of_not_rises hrises, hheld, ite_self]
        · show revDataValidNext l.uart input = false
          rw [revDataValidNext, hnot8, hnot1, hvalid]
          simp only [Bool.and_false, Bool.false_eq_true, if_false, ite_self]
        · rw [hdata (by omega) (by omega), hreg]
          rfl
  | done hdone hsent hheld =>
      have hquiet : l.uart.revSample = false ∨ l.uart.revCnt = 0 ∨ 8 < l.uart.revCnt :=
        .inr (.inr (by omega))
      obtain ⟨hreceived, -, -⟩ := quiet_next freqDiv input hquiet
      exact .done (by omega) (by rw [sent_next hsend, hreceived, hsent]) (hheld.quiet hquiet)

end Sample

end Data

/-! ## Runs -/

theorem samplesBefore_next (hdiv : 16 ≤ freqDiv) (hcycle : t.cycle < freqDiv) :
    samplesBefore freqDiv (t.next freqDiv) =
      samplesBefore freqDiv t + if t.cycle = freqDiv / 2 then 1 else 0 := by
  by_cases hlast : t.cycle + 1 < freqDiv
  · rw [Tick.next_inner hlast]
    simp only [samplesBefore]
    split_ifs <;> omega
  · rw [Tick.next_last hlast]
    simp only [samplesBefore]
    split_ifs <;> omega

/-- Where a loopback stands, and the cycles the transmitter stays busy. -/
inductive LoopAt (freqDiv : Nat) : Nat → Loopback → Prop
  | idle {l} (hidle : Idle l.uart) (hsent : l.sent = l.received) (hheld : HeldOk l) :
      LoopAt freqDiv 0 l
  | start {l} (byte : BitVec 8) (cycle : Nat) (hcycle : cycle ≤ 1)
      (hstarts : Starts byte cycle l.uart) (hsent : l.sent = l.received ++ [byte])
      (hheld : HeldOk l) : LoopAt freqDiv (10 * freqDiv - cycle) l
  | frame {l} (byte : BitVec 8) (t : Tick) (hframe : InFrame freqDiv byte t l.uart)
      (hdata : DataAt byte (samplesBefore freqDiv t) l) :
      LoopAt freqDiv (10 * freqDiv - (t.bit * freqDiv + t.cycle + 2)) l

theorem Tick.next_count (hcycle : t.cycle < freqDiv) :
    (t.next freqDiv).bit * freqDiv + (t.next freqDiv).cycle = t.bit * freqDiv + t.cycle + 1 := by
  by_cases hlast : t.cycle + 1 < freqDiv
  · rw [Tick.next_inner hlast]
    rfl
  · rw [Tick.next_last hlast]
    show (t.bit + 1) * freqDiv + 0 = _
    rw [Nat.succ_mul]
    omega

theorem InFrame.count_lt (h : InFrame freqDiv byte t s) :
    t.bit * freqDiv + t.cycle + 2 < 10 * freqDiv := by
  have hnext := Tick.next_cycle_lt h.cycle_lt
  have hlt := Tick.next_cycle_lt hnext
  have hcount := Tick.next_count hnext
  rw [Tick.next_count h.cycle_lt] at hcount
  have hle := Nat.mul_le_mul_right freqDiv h.inside
  omega

theorem DataAt.finished {k : Nat} {l : Loopback} (h : DataAt byte k l) (hk : 9 ≤ k) :
    l.sent = l.received ∧ HeldOk l := by
  cases h with
  | early hearly => omega
  | shifting _ hshift => omega
  | done _ hsent hheld => exact ⟨hsent, hheld⟩

theorem DataAt.pending {k : Nat} {l : Loopback} (h : DataAt byte k l) :
    ∃ pending, l.sent = l.received ++ pending ∧ pending.length ≤ 1 := by
  cases h with
  | early _ hsent => exact ⟨_, hsent, Nat.le_refl _⟩
  | shifting _ _ hsent => exact ⟨_, hsent, Nat.le_refl _⟩
  | done _ hsent => exact ⟨[], by rw [List.append_nil, hsent], Nat.zero_le _⟩

theorem DataAt.heldOk {k : Nat} {l : Loopback} (h : DataAt byte k l) : HeldOk l := by
  cases h with
  | early _ _ hheld => exact hheld
  | shifting _ _ _ hheld => exact fun b hb => absurd (hheld.symm.trans hb) (Option.some_ne_none b).symm
  | done _ _ hheld => exact hheld

/-- The frame moves with the tick the receiver sees. -/
theorem DataAt.next_frame {l : Loopback} (hdiv : 16 ≤ freqDiv)
    (hframe : InFrame freqDiv byte t l.uart) (h : DataAt byte (samplesBefore freqDiv t) l)
    (hsend : input.send = false) :
    DataAt byte (samplesBefore freqDiv (t.next freqDiv)) (loopbackNext freqDiv l input) := by
  rw [samplesBefore_next hdiv hframe.cycle_lt]
  have hbit : t.bit ≤ 9 := (Tick.bit_le_next t).trans hframe.bit_le
  by_cases hmiddle : t.cycle = freqDiv / 2
  · have hbefore : samplesBefore freqDiv t = t.bit := by
      rw [samplesBefore, if_neg (by omega), Nat.add_zero]
    have hsample : l.uart.revSample = true := by
      rw [hframe.receives.sample, decide_eq_true hmiddle]
    have hcnt : l.uart.revCnt = t.bit := by
      rw [hframe.receives.cnt, if_neg (by omega), hbefore]
    rw [if_pos hmiddle]
    rw [hbefore] at h ⊢
    exact h.sample hsample hcnt (congrArg Prod.fst hframe.sync) hsend hbit
  · have hsample : l.uart.revSample = false := by
      rw [hframe.receives.sample, decide_eq_false hmiddle]
    rw [if_neg hmiddle]
    exact h.quiet hsend hsample

theorem LoopAt.le {n : Nat} {l : Loopback} (h : LoopAt freqDiv n l) : n ≤ 10 * freqDiv := by
  cases h with
  | idle => exact Nat.zero_le _
  | start => exact Nat.sub_le _ _
  | frame => exact Nat.sub_le _ _

/-- The transmitter is busy exactly while cycles remain. -/
theorem LoopAt.busy {n : Nat} {l : Loopback} (hdiv : 16 ≤ freqDiv) (h : LoopAt freqDiv n l) :
    sendBusy l.uart = decide (0 < n) := by
  cases h with
  | idle hidle => exact hidle.not_busy
  | start byte cycle hcycle hstarts =>
      rw [hstarts.transmits.busy, decide_eq_true (by omega)]
  | frame byte t hframe =>
      have hcount := hframe.count_lt
      rw [hframe.transmits.busy, decide_eq_true (by omega)]

theorem LoopAt.idle_sent {n : Nat} {l : Loopback} (hdiv : 16 ≤ freqDiv) (h : LoopAt freqDiv n l)
    (hn : n = 0) : l.sent = l.received := by
  cases h with
  | idle _ hsent => exact hsent
  | start byte cycle hcycle => omega
  | frame byte t hframe =>
      have hcount := hframe.count_lt
      omega

/-- One cycle: a busy line comes one cycle closer to the end of the frame. -/
theorem LoopAt.next {n : Nat} {l : Loopback} (hdiv : 16 ≤ freqDiv) (h : LoopAt freqDiv n l)
    (hallowed : SendAllowed l input) :
    ∃ m, LoopAt freqDiv m (loopbackNext freqDiv l input) ∧
      (0 < n → m + 1 = n ∧ (loopbackNext freqDiv l input).sent = l.sent) := by
  have hbusy := h.busy hdiv
  have hquiet : 0 < n → input.send = false := by
    intro hn
    rw [decide_eq_true hn] at hbusy
    exact Bool.eq_false_iff.mpr fun hsend => Bool.false_ne_true ((hallowed hsend).symm.trans hbusy)
  cases h with
  | idle hidle hsent hheld =>
      have hsample : l.uart.revSample = false := hidle.waits.sample
      obtain ⟨hreceived, -, -⟩ :=
        quiet_next freqDiv input (.inl hsample)
      cases hsend : input.send with
      | false =>
          refine ⟨0, .idle (hidle.next_idle hsend) ?_ (hheld.quiet (.inl hsample)),
            fun hn => absurd hn (Nat.lt_irrefl 0)⟩
          rw [sent_next hsend, hreceived, hsent]
      | true =>
          refine ⟨_, .start input.sendData 0 (Nat.zero_le _) (hidle.next_starts hsend) ?_
            (hheld.quiet (.inl hsample)), fun hn => absurd hn (Nat.lt_irrefl 0)⟩
          show (if input.send then _ else _) = _
          rw [hsend, if_pos rfl, hreceived, hsent]
  | start byte cycle hcycle hstarts hsent hheld =>
      have hsend := hquiet (by omega)
      have hsample : l.uart.revSample = false := hstarts.waits.sample
      obtain ⟨hreceived, -, -⟩ :=
        quiet_next freqDiv input (.inl hsample)
      have hnext : (loopbackNext freqDiv l input).sent =
          (loopbackNext freqDiv l input).received ++ [byte] := by
        rw [sent_next hsend, hreceived, hsent]
      by_cases hfirst : cycle = 0
      · subst hfirst
        exact ⟨_, .start byte 1 (Nat.le_refl _) (hstarts.next_starts hdiv) hnext
          (hheld.quiet (.inl hsample)), fun _ => ⟨by omega, sent_next hsend⟩⟩
      · obtain rfl : cycle = 1 := by omega
        refine ⟨_, .frame byte ⟨0, 0⟩ (hstarts.next_frame hdiv) ?_,
          fun _ => ⟨?_, sent_next hsend⟩⟩
        · rw [samplesBefore, if_neg (Nat.not_lt_zero _)]
          exact .early (Nat.zero_le _) hnext (hheld.quiet (.inl hsample))
        · show 10 * freqDiv - (0 * freqDiv + 0 + 2) + 1 = _
          omega
  | frame byte t hframe hdata =>
      have hcount := hframe.count_lt
      have hsend := hquiet (by omega)
      have hmoved := hdata.next_frame hdiv hframe hsend
      have htick := Tick.next_count hframe.cycle_lt
      by_cases hinside : (((t.next freqDiv).next freqDiv).next freqDiv).bit ≤ 9
      · exact ⟨_, .frame byte (t.next freqDiv) (hframe.next_frame hdiv hinside) hmoved,
          fun _ => ⟨by omega, sent_next hsend⟩⟩
      · obtain ⟨hbit, hcycle⟩ := hframe.last hdiv hinside
        obtain ⟨hsent, hheld⟩ := hmoved.finished (by
          rw [samplesBefore]
          exact (hbit.symm.le.trans (Tick.bit_le_next t)).trans (Nat.le_add_right _ _))
        refine ⟨0, .idle (hframe.next_idle hdiv hinside) hsent hheld,
          fun _ => ⟨?_, sent_next hsend⟩⟩
        rw [hbit]
        omega

/-- Received bytes stay received. -/
theorem received_prefix (freqDiv : Nat) (l : Loopback) (inputs : List UartInput) :
    l.received <+: (run (loopbackNext freqDiv) l inputs).received := by
  induction inputs generalizing l with
  | nil => exact List.prefix_refl _
  | cons input inputs ih =>
      refine List.IsPrefix.trans ?_ (ih (loopbackNext freqDiv l input))
      show _ <+: if validRises _ _ then _ else _
      split
      · exact List.prefix_append _ _
      · exact List.prefix_refl _

/-- When the remaining cycles have passed, every byte handed over so far is received. -/
theorem LoopAt.delivers {n : Nat} {l : Loopback} (hdiv : 16 ≤ freqDiv) (h : LoopAt freqDiv n l)
    {inputs : List UartInput} (hallowed : Along (loopbackNext freqDiv) SendAllowed l inputs)
    (hlen : n ≤ inputs.length) : l.sent <+: (run (loopbackNext freqDiv) l inputs).received := by
  induction inputs generalizing n l with
  | nil =>
      rw [h.idle_sent hdiv (Nat.le_zero.mp hlen)]
      exact List.prefix_refl _
  | cons input inputs ih =>
      by_cases hn : n = 0
      · rw [h.idle_sent hdiv hn]
        exact received_prefix freqDiv l (input :: inputs)
      · obtain ⟨m, hnext, hbusy⟩ := h.next hdiv hallowed.1
        obtain ⟨hm, hsent⟩ := hbusy (Nat.pos_of_ne_zero hn)
        rw [List.length_cons] at hlen
        rw [← hsent]
        exact ih hnext hallowed.2 (by omega)

/-- The bytes received are the bytes sent, but for the one on the line; the last of them
stands in `rev_data`. -/
structure LoopbackMeets (l : Loopback) : Prop where
  pending : ∃ pending, l.sent = l.received ++ pending ∧ pending.length ≤ 1
  idle : sendBusy l.uart = false → l.received = l.sent
  held : HeldOk l

theorem LoopAt.meets {n : Nat} {l : Loopback} (hdiv : 16 ≤ freqDiv) (h : LoopAt freqDiv n l) :
    LoopbackMeets l := by
  have hidle : sendBusy l.uart = false → l.received = l.sent := by
    intro hbusy
    rw [h.busy hdiv, decide_eq_false_iff_not, Nat.not_lt, Nat.le_zero] at hbusy
    exact (h.idle_sent hdiv hbusy).symm
  cases h with
  | idle _ hsent hheld =>
      exact ⟨⟨[], by rw [List.append_nil, hsent], Nat.zero_le _⟩, hidle, hheld⟩
  | start byte _ _ _ hsent hheld => exact ⟨⟨[byte], hsent, Nat.le_refl _⟩, hidle, hheld⟩
  | frame byte t _ hdata => exact ⟨hdata.pending, hidle, hdata.heldOk⟩

theorem loopAt_reset (freqDiv : Nat) : LoopAt freqDiv 0 loopbackReset :=
  .idle ⟨rfl, rfl, rfl, ⟨rfl, rfl, rfl, rfl⟩⟩ rfl fun _ hb => absurd hb (Option.some_ne_none _).symm

theorem loopAt_step (hdiv : 16 ≤ freqDiv) (l : Loopback) (input : UartInput)
    (h : ∃ n, LoopAt freqDiv n l) (hallowed : SendAllowed l input) :
    ∃ n, LoopAt freqDiv n (loopbackNext freqDiv l input) := by
  obtain ⟨n, hn⟩ := h
  obtain ⟨m, hm, -⟩ := hn.next hdiv hallowed
  exact ⟨m, hm⟩

/-- With `send` asserted only while the port is not busy, the receiver produces exactly the
bytes sent, each within the ten bits of its frame. -/
theorem uart_loopback (hdiv : 16 ≤ freqDiv) (inputs : List UartInput)
    (hallowed : Along (loopbackNext freqDiv) SendAllowed loopbackReset inputs) :
    Always (loopbackNext freqDiv) LoopbackMeets loopbackReset inputs ∧
      ∀ first later, inputs = first ++ later → 10 * freqDiv ≤ later.length →
        (run (loopbackNext freqDiv) loopbackReset first).sent <+:
          (run (loopbackNext freqDiv) loopbackReset inputs).received := by
  have hreset : ∃ n, LoopAt freqDiv n loopbackReset := ⟨0, loopAt_reset freqDiv⟩
  refine ⟨(always_of_step (loopAt_step hdiv) hreset hallowed).mono fun l hl => ?_, ?_⟩
  · obtain ⟨n, hn⟩ := hl
    exact hn.meets hdiv
  · rintro first later rfl hlen
    rw [along_append] at hallowed
    obtain ⟨n, hn⟩ := invariant_run (loopAt_step hdiv) hreset hallowed.1
    rw [run_append]
    exact hn.delivers hdiv hallowed.2 (hn.le.trans hlen)

end Loopback

/-- Two bytes back to back through the slowest allowed divider. -/
def twoBytes : List UartInput :=
  ⟨0xA5, true, false⟩ :: (List.replicate 160 ⟨0, false, false⟩ ++
    ⟨0x3C, true, false⟩ :: List.replicate 160 ⟨0, false, false⟩)

theorem uart_loopback_twoBytes : LoopbackMeets (run (loopbackNext 16) loopbackReset twoBytes) :=
  (uart_loopback (by decide) twoBytes (by decide +kernel)).1.last

end DreamCore.Proofs
