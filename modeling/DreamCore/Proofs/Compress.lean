import DreamCore.Cpp.Compress
import DreamCore.Lib.Compaction
import DreamCore.Proofs.FifoQueue
import Mathlib.Data.List.Sort

/-!
# What compaction leaves in the issue queue

Positions are counted from the front.  When the walk has reached position `j`, the items
below `j` that stay have moved down to their ranks, every place from `j` on is untouched,
and the write cursor stands at the rank of `j`.
-/

namespace DreamCore.Proofs

open DreamCore.Ring DreamCore.Compaction DreamCore.Cpp

/-! ## Listed positions -/

section Listed

variable {ks : List Nat} {n j : Nat}

def isListed (ks : List Nat) (k : Nat) : Bool := decide (k ∈ ks)

def stays (ks : List Nat) (k : Nat) : Bool := !isListed ks k

/-- A list of increasing positions is the list of the listed positions. -/
theorem kept_isListed (hsorted : ks.Pairwise (· < ·)) (hlt : ∀ k ∈ ks, k < n) :
    kept (isListed ks) n = ks := by
  refine List.Pairwise.eq_of_mem_iff (List.Pairwise.filter _ List.pairwise_lt_range) hsorted ?_
  intro k
  rw [kept, List.mem_filter, List.mem_range, isListed, decide_eq_true_eq]
  exact ⟨fun h => h.2, fun h => ⟨hlt k h, h⟩⟩

theorem rank_listed_add (ks : List Nat) (j : Nat) :
    rank (isListed ks) j + rank (stays ks) j = j := rank_add_dropped (isListed ks) j

/-- The list entry the walk waits for is the current position exactly if it is listed. -/
theorem listed_iff (hsorted : ks.Pairwise (· < ·)) (hlt : ∀ k ∈ ks, k < n) (hj : j < n)
    {place : Nat → Nat} (hinj : ∀ a b, a < n → b < n → place a = place b → a = b) :
    (ks.map place)[rank (isListed ks) j]? = some (place j) ↔ isListed ks j = true := by
  rw [List.getElem?_map]
  constructor
  · intro h
    obtain ⟨k, hk, heq⟩ := Option.map_eq_some_iff.mp h
    have hmem := List.mem_of_getElem? hk
    obtain rfl := hinj k j (hlt k hmem) hj heq
    exact decide_eq_true hmem
  · intro h
    have hat := kept_getElem?_rank hj h
    rw [kept_isListed hsorted hlt] at hat
    rw [hat, Option.map_some]

end Listed

/-! ## The walk -/

section Walk

variable {α : Type} {n rp wp : Nat} {f₀ f f' : Fifo α} {v v' : CompressVars} {ks : List Nat} {j : Nat}

/-- The slot of a position. -/
def slotOf (n rp k : Nat) : Nat := slot n (rp + k)

/-- The stage of a position. -/
def stageOf (n rp k : Nat) : Bool := stage n ((rp + k) % (2 * n))

/-- The walk stands at position `j` and has moved what stays below it. -/
structure Walked (f₀ : Fifo α) (n rp wp : Nat) (ks : List Nat) (j : Nat) (f : Fifo α)
    (v : CompressVars) : Prop where
  frame : f = { f₀ with buffer := f.buffer }
  index : v.i = rank (isListed ks) j
  found : v.invalidItemFound = decide (0 < rank (isListed ks) j)
  cursor : 0 < rank (isListed ks) j → v.nextId = slotOf n rp (rank (stays ks) j) ∧
    v.newWptr = slotOf n rp (rank (stays ks) j) ∧ v.newWstage = stageOf n rp (rank (stays ks) j)
  moved : ∀ k, k < j → stays ks k = true →
    f.buffer (slotOf n rp (rank (stays ks) k)) = f₀.buffer (slotOf n rp k)
  ahead : ∀ k, j ≤ k → k < occupancy n rp wp → f.buffer (slotOf n rp k) = f₀.buffer (slotOf n rp k)

theorem slotOf_inj (h : WellFormed n rp wp) {a b : Nat} (ha : a < occupancy n rp wp)
    (hb : b < occupancy n rp wp) (heq : slotOf n rp a = slotOf n rp b) : a = b :=
  slot_add_inj (Nat.lt_of_lt_of_le ha h.fits) (Nat.lt_of_lt_of_le hb h.fits) heq

theorem stageOf_succ (hn : 0 < n) (k : Nat) :
    (decide (slotOf n rp k + 1 ≥ n) != stageOf n rp k) = stageOf n rp (k + 1) := by
  have hlt : (rp + k) % (2 * n) < 2 * n := Nat.mod_lt _ (Nat.mul_pos (by decide) hn)
  have hnext := stage_succ hlt
  rw [slot_mod, Nat.mod_add_mod, Nat.add_assoc] at hnext
  rw [stageOf, stageOf, ← hnext, slotOf]
  by_cases hwrap : slot n (rp + k) + 1 ≥ n
  · rw [if_pos hwrap, decide_eq_true hwrap]
    cases stage n ((rp + k) % (2 * n)) <;> rfl
  · rw [if_neg hwrap, decide_eq_false hwrap]
    cases stage n ((rp + k) % (2 * n)) <;> rfl

section Ring

variable (h : WellFormed n rp wp) (hring : f.toRob = ringOf n rp wp)

include h hring

theorem checkIdValid_slotOf {k : Nat} (hk : k < occupancy n rp wp) :
    f.checkIdValid (slotOf n rp k) = true := by
  have hn : 0 < n := Nat.lt_of_lt_of_le (Nat.zero_lt_of_lt hk) h.fits
  rw [hring]
  exact (checkIdValid_iff h (slot_lt hn)).mpr (live_slot hk)

/-- The walk goes on exactly while there is a further item. -/
theorem getNextIdStage_slotOf {k : Nat} (hk : k < occupancy n rp wp) :
    ∃ inUse, f.getNextIdStage (slotOf n rp k) (stageOf n rp k) =
        some (slotOf n rp (k + 1), stageOf n rp (k + 1), inUse) ∧
      (inUse && decide (slotOf n rp (k + 1) ≠ slotOf n rp 0)) =
        decide (k + 1 < occupancy n rp wp) := by
  have hn : 0 < n := Nat.lt_of_lt_of_le (Nat.zero_lt_of_lt hk) h.fits
  have hsize : f.size = n := by rw [hring]; rfl
  have hvalid := checkIdValid_slotOf h hring hk
  obtain ⟨inUse, hnext, hcont⟩ : ∃ inUse, (ringOf n rp wp).getNextId (slotOf n rp k) =
      some (slotOf n rp (k + 1), inUse) ∧ (inUse && decide (slotOf n rp (k + 1) ≠ slotOf n rp 0)) =
        decide (k + 1 < occupancy n rp wp) := ring_getNextId h hk
  rw [← hring, Rob.getNextId, if_pos hvalid, Option.some.injEq, Prod.mk.injEq] at hnext
  refine ⟨inUse, ?_, hcont⟩
  rw [Fifo.getNextIdStage, if_pos hvalid, hnext.2, hnext.1, hsize, stageOf_succ hn]

end Ring

theorem Walked.ring (hw : Walked f₀ n rp wp ks j f v) (hring : f₀.toRob = ringOf n rp wp) :
    f.toRob = ringOf n rp wp := by
  rw [hw.frame]
  exact hring

/-- Ranks never run ahead of the walk. -/
theorem rank_stays_le (ks : List Nat) (j : Nat) : rank (stays ks) j ≤ j := rank_le _ _

theorem rank_stays_lt (hfound : 0 < rank (isListed ks) j) : rank (stays ks) j < j := by
  have := rank_listed_add ks j
  omega

/-- Before the first listed item everything is at its place. -/
theorem rank_stays_eq (hnone : rank (isListed ks) j = 0) : rank (stays ks) j = j := by
  have := rank_listed_add ks j
  omega

theorem rank_listed_succ (ks : List Nat) (j : Nat) :
    rank (isListed ks) (j + 1) = rank (isListed ks) j + if isListed ks j then 1 else 0 :=
  rank_succ _ _

theorem rank_stays_succ (ks : List Nat) (j : Nat) :
    rank (stays ks) (j + 1) = rank (stays ks) j + if isListed ks j then 0 else 1 := by
  rw [rank_succ, stays]
  cases isListed ks j <;> rfl

theorem walked_start (f : Fifo α) (v : CompressVars) (hi : v.i = 0)
    (hfound : v.invalidItemFound = false) : Walked f n rp wp ks 0 f v :=
  ⟨rfl, hi, hfound, fun hpos => absurd hpos (Nat.lt_irrefl 0), fun _ hk => absurd hk (Nat.not_lt_zero _),
    fun _ _ _ => rfl⟩

section Turn

variable (h : WellFormed n rp wp) (hring : f₀.toRob = ringOf n rp wp)
  (hsorted : ks.Pairwise (· < ·)) (hlt : ∀ k ∈ ks, k < occupancy n rp wp)

include h hring hsorted hlt

/-- What a turn does at position `j`: it passes over a listed item and moves another one. -/
theorem walked_turn (hj : j < occupancy n rp wp) (hw : Walked f₀ n rp wp ks j f v) :
    ∃ f' v', compressTurn (ks.map (slotOf n rp)) f v (slotOf n rp j) (stageOf n rp j) =
      some (f', v') ∧ Walked f₀ n rp wp ks (j + 1) f' v' := by
  have hlisted : decide ((ks.map (slotOf n rp))[v.i]? = some (slotOf n rp j)) = isListed ks j := by
    rw [Bool.eq_iff_iff, decide_eq_true_eq, hw.index]
    exact listed_iff hsorted hlt hj fun a b => slotOf_inj h
  have hrank := rank_listed_succ ks j
  have hstays := rank_stays_succ ks j
  have hahead : ∀ k, j + 1 ≤ k → k < occupancy n rp wp →
      f.buffer (slotOf n rp k) = f₀.buffer (slotOf n rp k) :=
    fun k hk => hw.ahead k (by omega)
  cases hin : isListed ks j with
  | true =>
      rw [hin, if_pos rfl] at hrank hstays
      have hmoved : ∀ k, k < j + 1 → stays ks k = true →
          f.buffer (slotOf n rp (rank (stays ks) k)) = f₀.buffer (slotOf n rp k) := by
        intro k hk hkeep
        rcases Nat.lt_succ_iff_lt_or_eq.mp hk with hlow | rfl
        · exact hw.moved k hlow hkeep
        · rw [stays, hin] at hkeep
          cases hkeep
      cases hfound : v.invalidItemFound with
      | true =>
          have hpos : 0 < rank (isListed ks) j := of_decide_eq_true (hw.found.symm.trans hfound)
          refine ⟨f, { v with i := v.i + 1 }, ?_, ?_⟩
          · simp only [compressTurn, hlisted, hin, hfound, Bool.not_true, Bool.false_eq_true,
              if_false, if_true]
          · refine ⟨hw.frame, ?_, ?_, ?_, hmoved, hahead⟩
            · rw [hrank, ← hw.index]
            · exact hfound.trans (decide_eq_true (by omega)).symm
            · intro _
              rw [hstays]
              exact hw.cursor hpos
      | false =>
          have hnone : rank (isListed ks) j = 0 := by
            have := of_decide_eq_false (hw.found.symm.trans hfound)
            omega
          refine ⟨f, { v with
            invalidItemFound := true, i := v.i + 1, nextId := slotOf n rp j,
            newWptr := slotOf n rp j, newWstage := stageOf n rp j }, ?_, ?_⟩
          · simp only [compressTurn, hlisted, hin, hfound, Bool.not_false, if_true]
          · refine ⟨hw.frame, ?_, ?_, ?_, hmoved, hahead⟩
            · rw [hrank, ← hw.index]
            · exact (decide_eq_true (by omega)).symm
            · intro _
              rw [hstays, rank_stays_eq hnone]
              exact ⟨rfl, rfl, rfl⟩
  | false =>
      have hkeep : stays ks j = true := by rw [stays, hin]; rfl
      rw [hin, if_neg Bool.false_ne_true] at hrank hstays
      cases hfound : v.invalidItemFound with
      | true =>
          have hpos : 0 < rank (isListed ks) j := of_decide_eq_true (hw.found.symm.trans hfound)
          have hbelow := rank_stays_lt hpos
          have hcursor := hw.cursor hpos
          have hplace : rank (stays ks) j < occupancy n rp wp := by omega
          have hrob := hw.ring hring
          have hget : f.getItem (slotOf n rp j) = some (f₀.buffer (slotOf n rp j)) := by
            rw [Fifo.getItem, if_pos (checkIdValid_slotOf h hrob hj), hw.ahead j (Nat.le_refl _) hj]
          let f' : Fifo α := { f with
            buffer := fun i => if i = slotOf n rp (rank (stays ks) j) then f₀.buffer (slotOf n rp j)
              else f.buffer i }
          have hset : f.setItem (slotOf n rp (rank (stays ks) j)) (f₀.buffer (slotOf n rp j)) =
              some f' := by
            rw [Fifo.setItem, if_pos (checkIdValid_slotOf h hrob hplace)]
          obtain ⟨inUse, hnext, _⟩ :=
            getNextIdStage_slotOf h (show f'.toRob = ringOf n rp wp from hrob) hplace
          refine ⟨f', { v with
            newWptr := slotOf n rp (rank (stays ks) j + 1),
            newWstage := stageOf n rp (rank (stays ks) j + 1),
            nextId := slotOf n rp (rank (stays ks) j + 1) }, ?_, ?_⟩
          · simp only [compressTurn, hlisted, hin, hfound, Bool.not_true, Bool.false_eq_true,
              if_false, hget, hcursor.1, hcursor.2.2, hset, hnext, Option.bind_eq_bind,
              Option.bind_some, Option.pure_def]
          · have hother : ∀ k, k < occupancy n rp wp → k ≠ rank (stays ks) j →
                f'.buffer (slotOf n rp k) = f.buffer (slotOf n rp k) :=
              fun k hk hne => if_neg fun heq => hne (slotOf_inj h hk hplace heq)
            refine ⟨?_, ?_, ?_, ?_, ?_, ?_⟩
            · show { f with buffer := f'.buffer } = _
              rw [hw.frame]
            · rw [hrank]
              exact hw.index
            · rw [hrank]
              exact hw.found
            · intro _
              rw [hstays]
              exact ⟨rfl, rfl, rfl⟩
            · intro k hk hkeepk
              rcases Nat.lt_succ_iff_lt_or_eq.mp hk with hlow | rfl
              · -- items that moved earlier have smaller ranks
                have hne : rank (stays ks) k ≠ rank (stays ks) j :=
                  fun heq => by have := rank_inj hkeepk hkeep heq; omega
                have hle := rank_stays_le ks k
                rw [hother _ (by omega) hne]
                exact hw.moved k hlow hkeepk
              · exact if_pos rfl
            · intro k hk hkocc
              rw [hother k hkocc (by omega)]
              exact hahead k hk hkocc
      | false =>
          have hnone : rank (isListed ks) j = 0 := by
            have := of_decide_eq_false (hw.found.symm.trans hfound)
            omega
          refine ⟨f, v, ?_, ?_⟩
          · simp only [compressTurn, hlisted, hin, hfound, Bool.not_false, if_true,
              Bool.false_eq_true, if_false]
          · refine ⟨hw.frame, ?_, ?_, ?_, ?_, hahead⟩
            · rw [hrank]
              exact hw.index
            · rw [hrank]
              exact hw.found
            · intro hpos
              omega
            · intro k hk hkeepk
              rcases Nat.lt_succ_iff_lt_or_eq.mp hk with hlow | rfl
              · exact hw.moved k hlow hkeepk
              · rw [rank_stays_eq hnone]
                exact hw.ahead k (Nat.le_refl _) hj

/-- The loop ends behind the last item; `turns` bounds the items ahead. -/
theorem walked_loop (turns : Nat) : ∀ {j : Nat} {f : Fifo α} {v : CompressVars},
    j < occupancy n rp wp → occupancy n rp wp ≤ j + turns → Walked f₀ n rp wp ks j f v →
    ∃ f' v', compressLoop (ks.map (slotOf n rp)) (slotOf n rp 0) turns f v (slotOf n rp j)
        (stageOf n rp j) = some (f', v') ∧
      Walked f₀ n rp wp ks (occupancy n rp wp) f' v' := by
  induction turns with
  | zero =>
      intro j f v hj hle _
      omega
  | succ turns ih =>
      intro j f v hj hle hw
      obtain ⟨f₁, v₁, hturn, hw₁⟩ := walked_turn h hring hsorted hlt hj hw
      obtain ⟨inUse, hnext, hcont⟩ := getNextIdStage_slotOf h (hw₁.ring hring) hj
      by_cases hmore : j + 1 < occupancy n rp wp
      · obtain ⟨f', v', hloop, hend⟩ := ih hmore (by omega) hw₁
        refine ⟨f', v', ?_, hend⟩
        rw [compressLoop, hturn]
        simp only [Option.bind_eq_bind, Option.bind_some, hnext, hcont, decide_eq_true hmore,
          if_true]
        exact hloop
      · have hend : occupancy n rp wp = j + 1 := by omega
        refine ⟨f₁, v₁, ?_, ?_⟩
        · rw [compressLoop, hturn]
          simp only [Option.bind_eq_bind, Option.bind_some, hnext, hcont, decide_eq_false hmore,
            Bool.false_eq_true, if_false, Option.pure_def]
        · rw [hend]
          exact hw₁

end Turn

end Walk

/-! ## The compacted queue -/

section Compacted

variable {α : Type} {n rp wp : Nat} {f f' : Fifo α} {ks : List Nat}

/-- The items of `xs` whose positions are not listed, in their order. -/
def itemsLeft (xs : List α) (ks : List Nat) : List α :=
  ((List.range xs.length).filter (stays ks)).filterMap fun k => xs[k]?

theorem itemsLeft_contents (buffer : Nat → α) :
    itemsLeft (contents n buffer rp wp) ks =
      (kept (stays ks) (occupancy n rp wp)).map fun k => buffer (slotOf n rp k) := by
  rw [itemsLeft, length_contents, ← kept, ← List.filterMap_eq_map]
  refine List.filterMap_congr fun k hk => ?_
  rw [kept, List.mem_filter, List.mem_range] at hk
  exact contents_getElem? hk.1

/-- `f'` holds what `f` holds at the positions that are not listed, from the same front on. -/
structure Compressed (n rp wp : Nat) (ks : List Nat) (f f' : Fifo α) : Prop where
  frame : f' = { f with buffer := f'.buffer, wptr := f'.wptr, wstage := f'.wstage }
  left : ∃ wp', WellFormed n rp wp' ∧ f'.toRob = ringOf n rp wp' ∧
    contents n f'.buffer rp wp' = itemsLeft (contents n f.buffer rp wp) ks ∧
    occupancy n rp wp' + ks.length = occupancy n rp wp
  size : f.popStatusSave = false → n ≤ 2 ^ 31 → f'.getQueueSize + ks.length = f.getQueueSize
  identity : ks = [] → f' = f

/-- Without a saved pop status the size query counts the live items. -/
theorem getQueueSize_eq (h : WellFormed n rp wp) (hring : f.toRob = ringOf n rp wp)
    (hsave : f.popStatusSave = false) (hn : n ≤ 2 ^ 31) :
    f.getQueueSize = occupancy n rp wp := by
  have hsize : f.size = n := by rw [hring]; rfl
  have hwptr : f.wptr = slot n wp := by rw [hring]; rfl
  have hrptr : f.rptr = slot n rp := by rw [hring]; rfl
  have hwstage : f.wstage = stage n wp := by rw [hring]; rfl
  have hrstage : f.rstage = stage n rp := by rw [hring]; rfl
  have hfull : f.isFull = true ↔ occupancy n rp wp = n := by
    rw [Fifo.isFull, hsave, if_neg Bool.false_ne_true, hwptr, hrptr, hwstage, hrstage,
      Bool.and_eq_true, decide_eq_true_eq, decide_eq_true_eq, ← full_iff h.rptr_lt h.wptr_lt, and_comm]
  rw [Fifo.getQueueSize]
  by_cases hocc : occupancy n rp wp = n
  · rw [if_pos (hfull.mpr hocc), hsize, hocc]
  · have hn0 : 0 < n := by
      have := h.rptr_lt
      omega
    have hdist := slot_distance h (Nat.lt_of_le_of_ne h.fits hocc)
    have hrlt : slot n rp < n := slot_lt hn0
    have hwlt : slot n wp < n := slot_lt hn0
    have hword : (slot n wp + n + 2 ^ 32 - slot n rp) % 2 ^ 32 = slot n wp + n - slot n rp := by omega
    rw [if_neg (mt hfull.mp hocc), hsize, hwptr, hrptr, hword, hdist]

/-- The pointers and the contents once the walk is over. -/
theorem walked_end (h : WellFormed n rp wp) (hring : f.toRob = ringOf n rp wp)
    (hsorted : ks.Pairwise (· < ·)) (hlt : ∀ k ∈ ks, k < occupancy n rp wp) (hne : 0 < ks.length)
    {v : CompressVars} (hw : Walked f n rp wp ks (occupancy n rp wp) f' v) :
    Compressed n rp wp ks f { f' with wptr := v.newWptr, wstage := v.newWstage } := by
  have hlen : rank (isListed ks) (occupancy n rp wp) = ks.length := by
    rw [rank, kept_isListed hsorted hlt]
  have hsum := rank_listed_add ks (occupancy n rp wp)
  have hcursor := hw.cursor (by omega)
  generalize hr : rank (stays ks) (occupancy n rp wp) = r at *
  have hfit := h.fits
  have hn : r < 2 * n := by omega
  have hocc : occupancy n rp ((rp + r) % (2 * n)) = r := occupancy_cut h.rptr_lt hn
  have hring' : ({ f' with wptr := v.newWptr, wstage := v.newWstage } : Fifo α).toRob =
      ringOf n rp ((rp + r) % (2 * n)) := by
    have hrob := hw.ring hring
    rw [ringOf, slot_mod, hcursor.2.1, hcursor.2.2]
    show { f'.toRob with wptr := slotOf n rp r, wstage := stageOf n rp r } = _
    rw [hrob]
    rfl
  have hwell : WellFormed n rp ((rp + r) % (2 * n)) :=
    ⟨h.rptr_lt, Nat.mod_lt _ (by omega), by omega⟩
  have hcontents : contents n f'.buffer rp ((rp + r) % (2 * n)) =
      itemsLeft (contents n f.buffer rp wp) ks := by
    rw [itemsLeft_contents, contents, hocc, ← hr, rank]
    exact map_moved hw.moved
  refine ⟨?_, ⟨_, hwell, hring', hcontents, by omega⟩, ?_, ?_⟩
  · rw [hw.frame]
  · intro hsave hsize
    have hsave' : f'.popStatusSave = false := by
      rw [hw.frame]
      exact hsave
    rw [getQueueSize_eq hwell hring' hsave' hsize, getQueueSize_eq h hring hsave hsize]
    omega
  · rintro rfl
    exact absurd hne (Nat.lt_irrefl 0)

/-- For every window of the ring and every list of ids of the queue in queue order,
`compress` returns, and it returns the queue without these items. -/
theorem compress_removes (h : WellFormed n rp wp) (hring : f.toRob = ringOf n rp wp)
    (hsorted : ks.Pairwise (· < ·)) (hlt : ∀ k ∈ ks, k < occupancy n rp wp) :
    ∃ f', f.compress (ks.map (slotOf n rp)) = some f' ∧ Compressed n rp wp ks f f' := by
  have hfront : f.getFrontId = if rp = wp then none else some (slotOf n rp 0) := by
    rw [hring, Rob.getFrontId]
    by_cases hempty : rp = wp
    · rw [if_pos ((isEmpty_iff h).mpr hempty), if_pos hempty]
    · rw [if_neg (mt (isEmpty_iff h).mp hempty), if_neg hempty]
      rfl
  cases hks : ks with
  | nil =>
      refine ⟨f, ?_, rfl, ⟨wp, h, hring, ?_, rfl⟩, fun _ _ => rfl, fun _ => rfl⟩
      · rw [Fifo.compress]
        cases f.getFrontId <;> rfl
      · have hall : kept (stays []) (occupancy n rp wp) = List.range (occupancy n rp wp) :=
          List.filter_eq_self.mpr fun _ _ => rfl
        rw [itemsLeft_contents, hall, contents]
        rfl
  | cons k rest =>
      rw [← hks]
      have hlen : 0 < ks.length := by
        rw [hks]
        exact Nat.succ_pos _
      have hpos : 0 < occupancy n rp wp := Nat.zero_lt_of_lt (hlt k (hks ▸ List.mem_cons_self))
      have hne : rp ≠ wp := fun heq =>
        absurd ((occupancy_eq_zero_iff h.rptr_lt h.wptr_lt).mpr heq) (by omega)
      have hstage : f.rstage = stageOf n rp 0 := by
        rw [hring, stageOf, Nat.add_zero, Nat.mod_eq_of_lt h.rptr_lt]
        rfl
      have hsize : f.size = n := by rw [hring]; rfl
      obtain ⟨f₁, v₁, hloop, hend⟩ := walked_loop h hring hsorted hlt n hpos
        (by have := h.fits; omega)
        (walked_start f ⟨slotOf n rp 0, stageOf n rp 0, slotOf n rp 0, false, 0⟩ rfl rfl)
      refine ⟨_, ?_, walked_end h hring hsorted hlt hlen hend⟩
      rw [Fifo.compress, hfront, if_neg hne, hsize, hstage, List.length_map]
      simp only [if_pos hlen, hloop, Option.bind_eq_bind, Option.bind_some, Option.pure_def]

/-- A full ring of four slots whose front is at the wrap point. -/
theorem compress_removes_wrapped :
    ∃ f' : Fifo Nat, (⟨ringOf 4 3 7, fun i => i * 10, false, 0, false⟩ : Fifo Nat).compress
        ([0, 2].map (slotOf 4 3)) = some f' ∧
      Compressed 4 3 7 [0, 2] ⟨ringOf 4 3 7, fun i => i * 10, false, 0, false⟩ f' :=
  compress_removes ⟨by decide, by decide, by decide⟩ rfl (by decide) (by decide)

end Compacted

end DreamCore.Proofs
