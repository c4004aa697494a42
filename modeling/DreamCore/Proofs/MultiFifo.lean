import DreamCore.Lib.Clocked
import DreamCore.Model.PortQueue

/-!
# The banked FIFO is a bounded queue

Port `j` of a pointer meets the bank of entry `ptr + j`; the four entries are in four
banks, so reading undoes the rotation that writing made, at every alignment.
-/

namespace DreamCore.Proofs

open DreamCore.Clocked DreamCore.Model DreamCore.Ring DreamCore.Rtl

/-! ## Leading positions -/

theorem leading_succ (n : Nat) (v : Nat → Bool) :
    leading (n + 1) v = if v 0 then leading n (fun i => v (i + 1)) + 1 else 0 := by
  rw [leading, List.range_succ_eq_map, List.takeWhile_cons]
  split
  · rw [List.length_cons, List.takeWhile_map, List.length_map]
    rfl
  · rfl

/-- Positions from `m` on do not count. -/
theorem leading_bounded {n m : Nat} (hm : m ≤ n) (v : Nat → Bool) :
    leading n (fun i => v i && expandOne m i) = leading m v := by
  induction m generalizing n v with
  | zero =>
      cases n with
      | zero => rfl
      | succ n => simp [expandOne, leading]
  | succ m ih =>
      cases n with
      | zero => omega
      | succ n =>
          have hshift : ∀ i, expandOne (m + 1) (i + 1) = expandOne m i := by
            intro i
            simp [expandOne]
          have hrest := ih (by omega : m ≤ n) fun i => v (i + 1)
          simp only [leading_succ, hshift, hrest]
          simp [expandOne]

theorem leading_le (n : Nat) (v : Nat → Bool) : leading n v ≤ n := by
  have hsub := List.takeWhile_prefix (l := List.range n) v
  simpa [leading] using hsub.length_le

theorem countOneContinuous_bounded {m : Nat} (hm : m ≤ fifoPortNum) (v : Nat → Bool) :
    countOneContinuous fifoPortNum (fun i => v i && expandOne m i) = leading m v := by
  rw [countOneContinuous_leading _ (by decide), ← leading, leading_bounded hm]

/-- The list the front end is modelled with is this queue. -/
theorem fifoNext_eq {α : Type} (depth : Nat) (q : List α) (x : MultiFifoInput α) :
    fifoNext depth q x.dataIn x.dataInValid x.push x.dataPopValid x.pop x.flush =
      portQueueNext depth q x := by
  have hin : fifoPortCount (fifoDataInEnable depth q) x.dataInValid =
      leading (min fifoPortNum (depth - q.length)) x.dataInValid :=
    countOneContinuous_bounded (Nat.min_le_left _ _) _
  have hout : fifoPortCount (fifoDataOutValid q) x.dataPopValid =
      leading (min fifoPortNum q.length) x.dataPopValid :=
    countOneContinuous_bounded (Nat.min_le_left _ _) _
  rw [fifoNext, portQueueNext, fifoPopNum, fifoWritten, hin, hout, queuePopped, queueAppended]

/-! ## Space -/

section Space

variable {w : Nat} {depthWidth : Nat} {s : MultiFifoState w}

abbrev RingOk (depthWidth : Nat) (s : MultiFifoState w) : Prop :=
  WellFormed (multiFifoDepth depthWidth) s.rptr s.wptr

/-- The entries, oldest first. -/
def fifoContents (depthWidth : Nat) (s : MultiFifoState w) : List (BitVec w) :=
  contents (multiFifoDepth depthWidth)
    (fun a => s.buffer (a % fifoPortNum) (a / fifoPortNum)) s.rptr s.wptr

theorem multiFifoDepth_pos (depthWidth : Nat) : 0 < multiFifoDepth depthWidth :=
  Nat.two_pow_pos depthWidth

theorem multiFifoFull_iff (h : RingOk depthWidth s) : multiFifoFull depthWidth s = true ↔
    occupancy (multiFifoDepth depthWidth) s.rptr s.wptr = multiFifoDepth depthWidth := by
  obtain ⟨hr, hw, _⟩ := h
  have hpos := multiFifoDepth_pos depthWidth
  have hstage : ∀ ptr, ptr < 2 * multiFifoDepth depthWidth →
      ptr / multiFifoDepth depthWidth % 2 = if multiFifoDepth depthWidth ≤ ptr then 1 else 0 := by
    intro ptr hptr
    split
    · next hge => rw [Nat.div_eq_of_lt_le (by omega) (by omega : _ < (1 + 1) * _)]
    · next hlt => rw [Nat.div_eq_of_lt (by omega)]
  rw [← full_iff hr hw, multiFifoFull, Bool.and_eq_true, decide_eq_true_eq, decide_eq_true_eq,
    hstage _ hr, hstage _ hw, and_comm]
  refine and_congr_left fun _ => ?_
  simp only [stage, ne_eq, decide_eq_decide]
  split <;> split <;> simp [*]

theorem multiFifoEmpty_iff (h : RingOk depthWidth s) : multiFifoEmpty s = true ↔
    occupancy (multiFifoDepth depthWidth) s.rptr s.wptr = 0 := by
  rw [multiFifoEmpty, decide_eq_true_eq, occupancy_eq_zero_iff h.rptr_lt h.wptr_lt]

theorem usedSpace_eq (h : RingOk depthWidth s) :
    usedSpace depthWidth s = (fifoContents depthWidth s).length := by
  rw [usedSpace, fifoContents, length_contents]
  have hfit := h.fits
  have hfull := multiFifoFull_iff h
  cases hf : multiFifoFull depthWidth s with
  | true => rw [if_pos rfl, hfull.1 hf]
  | false =>
      have hne : occupancy (multiFifoDepth depthWidth) s.rptr s.wptr ≠
          multiFifoDepth depthWidth := fun heq =>
        Bool.false_ne_true (hf.symm.trans (hfull.2 heq))
      rw [if_neg Bool.false_ne_true]
      show occupancy _ _ _ % _ = _
      exact Nat.mod_eq_of_lt (by omega)

theorem pushEnableNum_eq (h : RingOk depthWidth s) : pushEnableNum depthWidth s =
    min fifoPortNum (multiFifoDepth depthWidth - (fifoContents depthWidth s).length) := by
  rw [pushEnableNum, freeSpace, usedSpace_eq h]
  simp only [fifoPortNum]
  split <;> omega

theorem popEnableNum_eq (h : RingOk depthWidth s) : popEnableNum depthWidth s =
    min fifoPortNum (fifoContents depthWidth s).length := by
  rw [popEnableNum, usedSpace_eq h]
  simp only [fifoPortNum]
  split <;> omega

variable {x : MultiFifoInput (BitVec w)}

theorem dataInNum_eq (h : RingOk depthWidth s) : dataInNum depthWidth s x =
    leading (min fifoPortNum (multiFifoDepth depthWidth - (fifoContents depthWidth s).length))
      x.dataInValid := by
  have henable : ∀ i, dataInEnable depthWidth s i = expandOne (pushEnableNum depthWidth s) i :=
    fun _ => rfl
  simp only [dataInNum, henable, pushEnableNum_eq h]
  exact countOneContinuous_bounded (Nat.min_le_left _ _) _

theorem dataOutNum_eq (h : RingOk depthWidth s) : dataOutNum depthWidth s x =
    leading (min fifoPortNum (fifoContents depthWidth s).length) x.dataPopValid := by
  have hvalid : ∀ i, dataOutValid depthWidth s i = expandOne (popEnableNum depthWidth s) i :=
    fun _ => rfl
  simp only [dataOutNum, hvalid, popEnableNum_eq h, Bool.and_comm (expandOne _ _)]
  exact countOneContinuous_bounded (Nat.min_le_left _ _) _

/-- How far the pointers move. -/
theorem multiFifoWptrNext_eq (h : RingOk depthWidth s) : multiFifoWptrNext depthWidth s x =
    if x.flush then 0
    else (s.wptr + if x.push then dataInNum depthWidth s x else 0) %
      (2 * multiFifoDepth depthWidth) := by
  have hw := h.wptr_lt
  rw [multiFifoWptrNext]
  split
  · rfl
  · cases hpush : x.push with
    | false =>
        rw [Bool.and_false]
        exact (Nat.mod_eq_of_lt hw).symm
    | true =>
        cases hf : multiFifoFull depthWidth s with
        | false => rfl
        | true =>
            have hnone : dataInNum depthWidth s x = 0 := by
              rw [dataInNum_eq h, fifoContents, length_contents, (multiFifoFull_iff h).1 hf,
                Nat.sub_self, Nat.min_zero]
              rfl
            rw [hnone]
            exact (Nat.mod_eq_of_lt hw).symm

theorem multiFifoRptrNext_eq (h : RingOk depthWidth s) : multiFifoRptrNext depthWidth s x =
    if x.flush then 0
    else (s.rptr + if x.pop then dataOutNum depthWidth s x else 0) %
      (2 * multiFifoDepth depthWidth) := by
  have hr := h.rptr_lt
  rw [multiFifoRptrNext]
  split
  · rfl
  · cases hpop : x.pop with
    | false =>
        rw [Bool.and_false]
        exact (Nat.mod_eq_of_lt hr).symm
    | true =>
        cases he : multiFifoEmpty s with
        | false => rfl
        | true =>
            have hnone : dataOutNum depthWidth s x = 0 := by
              rw [dataOutNum_eq h, fifoContents, length_contents, (multiFifoEmpty_iff h).1 he,
                Nat.min_zero]
              rfl
            rw [hnone]
            exact (Nat.mod_eq_of_lt hr).symm

end Space

/-! ## The rotation -/

section Banks

variable {w : Nat} {depthWidth : Nat} {s : MultiFifoState w} {x : MultiFifoInput (BitVec w)}

/-- The port that meets a bank. -/
def fifoLane (ptr bank : Nat) : Nat := (bank + fifoPortNum - ptr % fifoPortNum) % fifoPortNum

theorem fifoLane_lt (ptr bank : Nat) : fifoLane ptr bank < fifoPortNum :=
  Nat.mod_lt _ (by decide)

theorem fifoBank_eq (hdepth : fifoPortNum ∣ multiFifoDepth depthWidth) (ptr i : Nat) :
    fifoFullAddrSet depthWidth ptr i % fifoPortNum = (ptr + i) % fifoPortNum :=
  Nat.mod_mod_of_dvd _ hdepth

theorem fifoBankIdCmp_iff (hdepth : fifoPortNum ∣ multiFifoDepth depthWidth) {ptr bank j : Nat}
    (hbank : bank < fifoPortNum) (hj : j < fifoPortNum) :
    fifoBankIdCmp depthWidth ptr bank j = true ↔ j = fifoLane ptr bank := by
  rw [fifoBankIdCmp, decide_eq_true_eq, fifoBank_eq hdepth, fifoLane]
  simp only [fifoPortNum] at *
  omega

theorem fifoLane_bank (hdepth : fifoPortNum ∣ multiFifoDepth depthWidth) {ptr i : Nat}
    (hi : i < fifoPortNum) :
    fifoLane ptr (fifoFullAddrSet depthWidth ptr i % fifoPortNum) = i := by
  rw [fifoBank_eq hdepth, fifoLane]
  simp only [fifoPortNum] at *
  omega

theorem fifoSelect (hdepth : fifoPortNum ∣ multiFifoDepth depthWidth) {α : Type} [Packed α]
    (hleft : ∀ a : α, Packed.or Packed.zero a = a) (hright : ∀ a : α, Packed.or a Packed.zero = a)
    {ptr bank : Nat} (hbank : bank < fifoPortNum) (data : Nat → α) :
    dataSelector fifoPortNum (fifoBankIdCmp depthWidth ptr bank) data =
      data (fifoLane ptr bank) :=
  dataSelector_single hleft hright (fifoLane_lt ptr bank)
    fun _ hj => fifoBankIdCmp_iff hdepth hbank hj

theorem fifoBankAddr_eq (hdepth : fifoPortNum ∣ multiFifoDepth depthWidth) {ptr bank : Nat}
    (hbank : bank < fifoPortNum) : fifoBankAddr depthWidth ptr bank =
      fifoFullAddrSet depthWidth ptr (fifoLane ptr bank) / fifoPortNum :=
  fifoSelect hdepth Nat.zero_or Nat.or_zero hbank _

/-! ### Reading -/

theorem fifoShift_eq (hdepth : fifoPortNum ∣ multiFifoDepth depthWidth) {bank : Nat}
    (hbank : bank < fifoPortNum) :
    fifoReadBankDataRegShift depthWidth s bank = fifoLane s.rptr bank * w := by
  have hindex : fifoReadBankSetIndex depthWidth s bank = fifoLane s.rptr bank :=
    parallelFinder_unique (fifoLane_lt _ _) fun j hj => fifoBankIdCmp_iff hdepth hbank hj
  rw [fifoReadBankDataRegShift, hindex]
  refine Nat.mod_eq_of_lt ?_
  rcases Nat.eq_zero_or_pos w with rfl | hw
  · simp
  · exact Nat.lt_of_lt_of_le (Nat.mul_lt_mul_of_pos_right (fifoLane_lt _ _) hw)
      (Nat.le_pow_clog (by decide) _)

/-- A bank's word, shifted to its port, is seen in the field of this port only. -/
theorem fifoShifted_bit (hdepth : fifoPortNum ∣ multiFifoDepth depthWidth) {bank i k : Nat}
    (hbank : bank < fifoPortNum) (hi : i < fifoPortNum) (hk : k < w) :
    (fifoReadBankDataReg depthWidth s bank <<<
        fifoReadBankDataRegShift depthWidth s bank).getLsbD (i * w + k) =
      (decide (fifoLane s.rptr bank = i) &&
        (s.buffer bank (fifoBankAddr depthWidth s.rptr bank)).getLsbD k) := by
  have hlane := fifoLane_lt s.rptr bank
  have hfield : ∀ a b, a < b → a * w + w ≤ b * w := by
    intro a b hab
    rw [← Nat.succ_mul]
    exact Nat.mul_le_mul_right w hab
  have hinside := hfield i fifoPortNum hi
  rw [fifoShift_eq hdepth hbank, BitVec.getLsbD_shiftLeft, fifoReadBankDataReg,
    BitVec.getLsbD_setWidth]
  rcases Nat.lt_trichotomy (fifoLane s.rptr bank) i with hlt | heq | hgt
  · have hbelow := hfield _ _ hlt
    have hne : ¬fifoLane s.rptr bank = i := by omega
    rw [BitVec.getLsbD_of_ge _ (i * w + k - fifoLane s.rptr bank * w) (by omega)]
    simp [hne]
  · rw [heq, Nat.add_sub_cancel_left]
    have hshift : ¬i * w + k < i * w := by omega
    have hword : k < fifoPortNum * w := by omega
    have hbit : i * w + k < fifoPortNum * w := by omega
    simp [hshift, hword, hbit]
  · have habove := hfield _ _ hgt
    have hshift : i * w + k < fifoLane s.rptr bank * w := by omega
    have hne : ¬fifoLane s.rptr bank = i := by omega
    simp [hshift, hne]

theorem fifoRecombine_bit (i n : Nat) :
    (fifoReadBankDataRecombine depthWidth s i).getLsbD n =
      anyBit (i + 1) fun bank => (fifoReadBankDataReg depthWidth s bank <<<
        fifoReadBankDataRegShift depthWidth s bank).getLsbD n := by
  induction i with
  | zero => simp [fifoReadBankDataRecombine, anyBit]
  | succ i ih =>
      rw [fifoReadBankDataRecombine, BitVec.getLsbD_or, ih, anyBit, anyBit,
        List.range_succ (n := i + 1), List.any_append]
      simp

/-- Port `i` shows the entry `i` places behind the read pointer. -/
theorem fifoDataOut_eq (hdepth : fifoPortNum ∣ multiFifoDepth depthWidth) {i : Nat}
    (hi : i < fifoPortNum) : dataOut depthWidth s i =
      s.buffer (fifoFullAddrSet depthWidth s.rptr i % fifoPortNum)
        (fifoFullAddrSet depthWidth s.rptr i / fifoPortNum) := by
  apply BitVec.eq_of_getLsbD_eq
  intro k hk
  have hown := @fifoLane_bank depthWidth hdepth s.rptr i hi
  have hbank : fifoFullAddrSet depthWidth s.rptr i % fifoPortNum < fifoPortNum :=
    Nat.mod_lt _ (by decide)
  rw [dataOut, BitVec.getLsbD_extractLsb', decide_eq_true hk, Bool.true_and, fifoRecombine_bit,
    Bool.eq_iff_iff, anyBit_iff]
  constructor
  · rintro ⟨bank, hlt, hbit⟩
    rw [fifoShifted_bit hdepth hlt hi hk, Bool.and_eq_true, decide_eq_true_eq] at hbit
    have hsame : bank = fifoFullAddrSet depthWidth s.rptr i % fifoPortNum := by
      have hcmp := (@fifoBankIdCmp_iff depthWidth hdepth s.rptr _ _ hlt hi).2 hbit.1.symm
      rw [fifoBankIdCmp, decide_eq_true_eq] at hcmp
      exact hcmp.symm
    rw [fifoBankAddr_eq hdepth hlt, hbit.1] at hbit
    rw [← hsame]
    exact hbit.2
  · intro hbit
    refine ⟨_, hbank, ?_⟩
    rw [fifoShifted_bit hdepth hbank hi hk, fifoBankAddr_eq hdepth hbank, hown, decide_eq_true rfl]
    exact hbit

/-! ### Writing -/

/-- A cell takes the data of the port whose entry it is, if this port writes. -/
theorem fifoCell_next (hdepth : fifoPortNum ∣ multiFifoDepth depthWidth) (addr : Nat) :
    (multiFifoNext depthWidth s x).buffer (addr % fifoPortNum) (addr / fifoPortNum) =
      if setWe depthWidth s x (fifoLane s.wptr (addr % fifoPortNum)) = true ∧
          addr = fifoFullAddrSet depthWidth s.wptr (fifoLane s.wptr (addr % fifoPortNum)) then
        x.dataIn (fifoLane s.wptr (addr % fifoPortNum))
      else s.buffer (addr % fifoPortNum) (addr / fifoPortNum) := by
  have hbank : addr % fifoPortNum < fifoPortNum := Nat.mod_lt _ (by decide)
  have hwe : fifoBankWe depthWidth s x (addr % fifoPortNum) =
      setWe depthWidth s x (fifoLane s.wptr (addr % fifoPortNum)) :=
    fifoSelect hdepth Bool.false_or Bool.or_false hbank _
  have hdata : fifoBankWriteData depthWidth s x (addr % fifoPortNum) =
      x.dataIn (fifoLane s.wptr (addr % fifoPortNum)) :=
    fifoSelect hdepth (fun _ => BitVec.zero_or) (fun _ => BitVec.or_zero) hbank _
  have hsame : fifoFullAddrSet depthWidth s.wptr (fifoLane s.wptr (addr % fifoPortNum)) %
      fifoPortNum = addr % fifoPortNum := by
    have hcmp := (@fifoBankIdCmp_iff depthWidth hdepth s.wptr _ _ hbank (fifoLane_lt _ _)).2 rfl
    rwa [fifoBankIdCmp, decide_eq_true_eq] at hcmp
  show (if fifoBankWe _ _ _ _ && decide (_ = fifoBankAddr _ _ _) then _ else _) = _
  rw [hwe, hdata, fifoBankAddr_eq hdepth hbank]
  simp only [Bool.and_eq_true, decide_eq_true_eq]
  generalize fifoFullAddrSet depthWidth s.wptr (fifoLane s.wptr (addr % fifoPortNum)) = a at *
  have haddr : addr / fifoPortNum = a / fifoPortNum ↔ addr = a := by
    simp only [fifoPortNum] at *
    omega
  simp only [haddr]

/-! ## One cycle -/

/-- How many entries enter and leave in a cycle without a flush. -/
def enterNum (depthWidth : Nat) (s : MultiFifoState w) (x : MultiFifoInput (BitVec w)) : Nat :=
  if x.push then dataInNum depthWidth s x else 0

def leaveNum (depthWidth : Nat) (s : MultiFifoState w) (x : MultiFifoInput (BitVec w)) : Nat :=
  if x.pop then dataOutNum depthWidth s x else 0

theorem enterNum_le (h : RingOk depthWidth s) : enterNum depthWidth s x ≤ fifoPortNum ∧
    (fifoContents depthWidth s).length + enterNum depthWidth s x ≤ multiFifoDepth depthWidth := by
  have hfit := h.fits
  have hle := leading_le (min fifoPortNum
    (multiFifoDepth depthWidth - (fifoContents depthWidth s).length)) x.dataInValid
  rw [← dataInNum_eq h] at hle
  rw [fifoContents, length_contents] at *
  unfold enterNum
  split <;> omega

theorem leaveNum_le (h : RingOk depthWidth s) :
    leaveNum depthWidth s x ≤ (fifoContents depthWidth s).length := by
  have hle := leading_le (min fifoPortNum (fifoContents depthWidth s).length) x.dataPopValid
  rw [← dataOutNum_eq h] at hle
  unfold leaveNum
  split <;> omega

theorem setWe_iff (i : Nat) : setWe depthWidth s x i = true ↔ i < enterNum depthWidth s x := by
  rw [setWe, dataInValidFiltered, expandOne, Bool.and_eq_true, decide_eq_true_eq, enterNum]
  cases x.push <;> simp

/-- The ring before the read pointer moves. -/
theorem fifoContents_written (hdepth : fifoPortNum ∣ multiFifoDepth depthWidth)
    (h : RingOk depthWidth s) :
    contents (multiFifoDepth depthWidth)
        (fun a => (multiFifoNext depthWidth s x).buffer (a % fifoPortNum) (a / fifoPortNum))
        s.rptr ((s.wptr + enterNum depthWidth s x) % (2 * multiFifoDepth depthWidth)) =
      fifoContents depthWidth s ++ (List.range (enterNum depthWidth s x)).map x.dataIn := by
  obtain ⟨hports, hfit⟩ := enterNum_le (x := x) h
  rw [fifoContents, length_contents] at hfit
  refine contents_append h hfit (fun i hi => ?_) fun j hj => ?_
  · rw [fifoCell_next hdepth]
    refine if_neg ?_
    rintro ⟨hwe, haddr⟩
    rw [setWe_iff] at hwe
    generalize fifoLane s.wptr (slot (multiFifoDepth depthWidth) (s.rptr + i) % fifoPortNum) =
      lane at *
    -- The entry would lie behind the live ones.
    have hptr : Nat.ModEq (multiFifoDepth depthWidth) s.wptr
        (s.rptr + occupancy (multiFifoDepth depthWidth) s.rptr s.wptr) := slot_wptr h
    have hslot : slot (multiFifoDepth depthWidth) (s.rptr + i) =
        slot (multiFifoDepth depthWidth)
          (s.rptr + (occupancy (multiFifoDepth depthWidth) s.rptr s.wptr + lane)) := by
      rw [haddr, ← Nat.add_assoc]
      exact hptr.add_right lane
    have := slot_add_inj (by omega) (by omega) hslot
    omega
  · have hlane := @fifoLane_bank depthWidth hdepth s.wptr j (by omega)
    have hslot : slot (multiFifoDepth depthWidth) (s.wptr + j) =
      fifoFullAddrSet depthWidth s.wptr j := rfl
    rw [hslot, fifoCell_next hdepth, hlane, if_pos ⟨(setWe_iff j).2 hj, rfl⟩]

theorem ringOk_next (h : RingOk depthWidth s) : RingOk depthWidth (multiFifoNext depthWidth s x) := by
  have hpos := multiFifoDepth_pos depthWidth
  have henter := (enterNum_le (x := x) h).2
  have hleave := leaveNum_le (x := x) h
  rw [fifoContents, length_contents] at henter hleave
  have hwptr : (multiFifoNext depthWidth s x).wptr = if x.flush then 0
      else (s.wptr + enterNum depthWidth s x) % (2 * multiFifoDepth depthWidth) :=
    multiFifoWptrNext_eq h
  have hrptr : (multiFifoNext depthWidth s x).rptr = if x.flush then 0
      else (s.rptr + leaveNum depthWidth s x) % (2 * multiFifoDepth depthWidth) :=
    multiFifoRptrNext_eq h
  unfold RingOk
  rw [hwptr, hrptr]
  cases x.flush with
  | true => exact ⟨by simpa using hpos, by simpa using hpos, by simp [occupancy]⟩
  | false =>
      have hw : (s.wptr + enterNum depthWidth s x) % (2 * multiFifoDepth depthWidth) <
          2 * multiFifoDepth depthWidth := Nat.mod_lt _ (by omega)
      have hr : (s.rptr + leaveNum depthWidth s x) % (2 * multiFifoDepth depthWidth) <
          2 * multiFifoDepth depthWidth := Nat.mod_lt _ (by omega)
      have hpush := occupancy_push h.rptr_lt h.wptr_lt
        (by omega : _ + enterNum depthWidth s x < _)
      refine ⟨hr, hw, ?_⟩
      rw [if_neg Bool.false_ne_true, if_neg Bool.false_ne_true,
        occupancy_pop h.rptr_lt hw (by rw [hpush]; omega), hpush]
      omega

/-- The banked FIFO does what the queue does. -/
theorem fifoContents_next (hdepth : fifoPortNum ∣ multiFifoDepth depthWidth)
    (h : RingOk depthWidth s) : fifoContents depthWidth (multiFifoNext depthWidth s x) =
      portQueueNext (multiFifoDepth depthWidth) (fifoContents depthWidth s) x := by
  have hwptr : (multiFifoNext depthWidth s x).wptr = if x.flush then 0
      else (s.wptr + enterNum depthWidth s x) % (2 * multiFifoDepth depthWidth) :=
    multiFifoWptrNext_eq h
  have hrptr : (multiFifoNext depthWidth s x).rptr = if x.flush then 0
      else (s.rptr + leaveNum depthWidth s x) % (2 * multiFifoDepth depthWidth) :=
    multiFifoRptrNext_eq h
  rw [fifoContents, hwptr, hrptr, portQueueNext]
  cases hflush : x.flush with
  | true => simp [contents, occupancy]
  | false =>
      have hpos := multiFifoDepth_pos depthWidth
      have henter := (enterNum_le (x := x) h).2
      have hleave := leaveNum_le (x := x) h
      have hlen : (fifoContents depthWidth s).length =
          occupancy (multiFifoDepth depthWidth) s.rptr s.wptr := length_contents _ _ _ _
      have hpush := occupancy_push h.rptr_lt h.wptr_lt
        (by omega : _ + enterNum depthWidth s x < _)
      have hring : WellFormed (multiFifoDepth depthWidth) s.rptr
          ((s.wptr + enterNum depthWidth s x) % (2 * multiFifoDepth depthWidth)) :=
        ⟨h.rptr_lt, Nat.mod_lt _ (by omega), by rw [hpush]; omega⟩
      have happended : (List.range (enterNum depthWidth s x)).map x.dataIn =
          queueAppended (multiFifoDepth depthWidth) (fifoContents depthWidth s) x := by
        rw [enterNum, queueAppended, dataInNum_eq h]
        cases x.push <;> rfl
      have hpopped : leaveNum depthWidth s x = queuePopped (fifoContents depthWidth s) x := by
        rw [leaveNum, queuePopped, dataOutNum_eq h]
      rw [if_neg Bool.false_ne_true, if_neg Bool.false_ne_true, if_neg Bool.false_ne_true,
        contents_pop hring (by rw [hpush]; omega), fifoContents_written hdepth h,
        List.drop_append_of_le_length hleave, happended, hpopped]

end Banks

/-! ## Every run -/

/-- One cycle of the FIFO seen as a queue. -/
structure MultiFifoStep {w : Nat} (depthWidth : Nat) (s : MultiFifoState w)
    (x : MultiFifoInput (BitVec w)) : Prop where
  next : fifoContents depthWidth (multiFifoNext depthWidth s x) =
    portQueueNext (multiFifoDepth depthWidth) (fifoContents depthWidth s) x
  shown : ∀ i, i < fifoPortNum →
    dataOutValid depthWidth s i = decide (i < (fifoContents depthWidth s).length) ∧
      (i < (fifoContents depthWidth s).length →
        (fifoContents depthWidth s)[i]? = some (dataOut depthWidth s i))
  space : ∀ i, i < fifoPortNum → dataInEnable depthWidth s i =
    decide (i < multiFifoDepth depthWidth - (fifoContents depthWidth s).length)
  full : multiFifoFull depthWidth s =
    decide ((fifoContents depthWidth s).length = multiFifoDepth depthWidth)
  empty : multiFifoEmpty s = decide (fifoContents depthWidth s = [])
  fits : (fifoContents depthWidth s).length ≤ multiFifoDepth depthWidth

theorem multiFifoStep {w depthWidth : Nat} {s : MultiFifoState w}
    (hdepth : fifoPortNum ∣ multiFifoDepth depthWidth) (h : RingOk depthWidth s)
    (x : MultiFifoInput (BitVec w)) : MultiFifoStep depthWidth s x where
  next := fifoContents_next hdepth h
  shown := fun i hi => by
    refine ⟨?_, fun hlt => ?_⟩
    · rw [dataOutValid, expandOne, popEnableNum_eq h, decide_eq_decide, Nat.lt_min]
      exact and_iff_right hi
    · rw [fifoDataOut_eq hdepth hi, fifoContents,
        contents_getElem? (by rwa [fifoContents, length_contents] at hlt)]
      rfl
  space := fun i hi => by
    rw [dataInEnable, expandOne, pushEnableNum_eq h, decide_eq_decide, Nat.lt_min]
    exact and_iff_right hi
  full := by
    rw [Bool.eq_iff_iff, decide_eq_true_eq, multiFifoFull_iff h, fifoContents, length_contents]
  empty := by
    rw [Bool.eq_iff_iff, decide_eq_true_eq, multiFifoEmpty_iff h, ← List.length_eq_zero_iff,
      fifoContents, length_contents]
  fits := by
    rw [fifoContents, length_contents]
    exact h.fits

/-- From reset, for every depth `2 ^ k` of at least 8 and every word width, each cycle of
the FIFO is a step of the queue, so a run ends with what the queue then holds. -/
theorem multififo_queue {w : Nat} (k : Nat) (buffer : Nat → Nat → BitVec w)
    (inputs : List (MultiFifoInput (BitVec w))) :
    Along (multiFifoNext (k + 3)) (MultiFifoStep (k + 3)) (multiFifoReset buffer) inputs ∧
      fifoContents (k + 3) (run (multiFifoNext (k + 3)) (multiFifoReset buffer) inputs) =
        run (portQueueNext (2 ^ (k + 3))) [] inputs := by
  have hdepth : fifoPortNum ∣ multiFifoDepth (k + 3) := ⟨2 ^ (k + 1), by
    rw [multiFifoDepth, fifoPortNum, Nat.pow_add, Nat.pow_add]
    omega⟩
  have hreset : RingOk (k + 3) (multiFifoReset buffer) :=
    ⟨by simpa [multiFifoReset] using multiFifoDepth_pos (k + 3),
      by simpa [multiFifoReset] using multiFifoDepth_pos (k + 3),
      by simp [multiFifoReset, occupancy]⟩
  refine ⟨?_, ?_⟩
  · have hall : Along (multiFifoNext (k + 3)) (fun _ _ => True) (multiFifoReset buffer) inputs :=
      along_of_forall fun _ _ _ => trivial
    exact (hall.strengthen (fun _ _ h _ => ringOk_next h) hreset).mono
      fun _ x h => multiFifoStep hdepth h.1 x
  · have hempty : fifoContents (k + 3) (multiFifoReset buffer) = [] := by
      simp [fifoContents, contents, multiFifoReset, occupancy]
    rw [← hempty]
    generalize multiFifoReset buffer = s at hreset
    induction inputs generalizing s with
    | nil => rfl
    | cons x inputs ih =>
        rw [run_cons, run_cons, ih _ (ringOk_next hreset), fifoContents_next hdepth hreset]
        rfl

end DreamCore.Proofs
