import DreamCore.Lib.Framing

/-!
# What a receiver of frames has read before a frame

Any symbols may come before a frame.  A scan of them keeps only where the receiver stands:
outside of a packet, behind so many symbols of one, or behind the escape symbol.  Without a
complete frame among these symbols the scan tells whether the next frame is read: it is not
if its head is taken for the second symbol of an escape, or if a head directly before a tail
was taken for a packet.
-/

namespace DreamCore.Framing

inductive Place
  | outside
  | inside (read : Nat)
  | escaped (read : Nat)
  deriving DecidableEq

/-- A scan in progress; `crc` is the last check symbol, `taken` an empty packet. -/
structure Scan (α : Type) where
  place : Place
  crc : α
  taken : Bool

section Scan

variable {α : Type} [DecidableEq α] (c : Code α) (check : List α → α) (maxLength : Nat)

/-- A symbol of the check or the payload; the check is the first. -/
def Scan.symbol (s : Scan α) (read : Nat) (b : α) : Scan α :=
  { s with
    place := if read ≤ maxLength then .inside (read + 1) else .outside
    crc := if read = 0 then b else s.crc }

def Scan.next (s : Scan α) (b : α) : Scan α :=
  match s.place with
  | .outside => if b = c.head then { s with place := .inside 0 } else s
  | .inside read =>
      if b = c.head then { s with place := .inside 0 }
      else if b = c.tail then
        { s with
          place := .outside
          taken := s.taken || (decide (read = 0) && decide (check [] = s.crc)) }
      else if b = c.tran then { s with place := .escaped read }
      else s.symbol maxLength read b
  | .escaped read =>
      match c.unescape b with
      | some d => s.symbol maxLength read d
      | none => { s with place := .outside }

def Scan.after (s : Scan α) (noise : List α) : Scan α := noise.foldl (Scan.next c check maxLength) s

/-- The scan stands behind an escape symbol. -/
def Scan.isEscaped (s : Scan α) : Bool :=
  match s.place with
  | .escaped _ => true
  | _ => false

/-- No frame of an acceptable payload lies among the symbols. -/
def NoFrame (noise : List α) : Prop :=
  ∀ before payload behind, payload.length ≤ maxLength →
    noise ≠ before ++ (frame c check payload ++ behind)

end Scan

/-! ## Scan and receiver -/

section Follow

variable {α : Type} [DecidableEq α] {c : Code α} {check : List α → α} {maxLength : Nat}
  {r : Receiver α} {s : Scan α} {seen : List α} {b : α}

/-- The symbols since the last head that the receiver keeps. -/
def Receiver.kept (c : Code α) (r : Receiver α) : List α :=
  (if r.waitCrc then [] else stuff c r.crc ++ r.buf.flatMap (stuff c)) ++
    if r.tranMode then [c.tran] else []

/-- How many symbols of a packet the receiver has put. -/
def Receiver.read (r : Receiver α) : Nat := if r.waitCrc then 0 else r.buf.length + 1

/-- The receiver stands where the scan does, and `seen` ends with what it keeps. -/
structure Follows (c : Code α) (maxLength : Nat) (seen : List α) (r : Receiver α) (s : Scan α) :
    Prop where
  crc_eq : r.crc = s.crc
  place_eq : s.place = if r.revMode then
      if r.tranMode then .escaped r.read else .inside r.read
    else .outside
  outside_tran : r.revMode = false → r.tranMode = false
  empty : r.waitCrc = true → r.buf = []
  fits : r.buf.length ≤ maxLength
  seen_eq : r.revMode = true → ∃ before, seen = before ++ c.head :: r.kept c

/-- Every stand-in is read as the symbol it is written for, and every other symbol but the
reserved ones is written as it is. -/
structure Code.Exact (c : Code α) : Prop where
  escape_unescape : ∀ e b, c.unescape e = some b → c.escape b = some e
  plain : ∀ b, b ≠ c.head → b ≠ c.tail → b ≠ c.tran → c.escape b = none
  unescape_head : c.unescape c.head = none

omit [DecidableEq α] in
/-- Putting a symbol is a step of the scan. -/
theorem follows_put {d : α} {before : List α} (hcrc : r.crc = s.crc) (hrev : r.revMode = true)
    (htran : r.tranMode = false) (hempty : r.waitCrc = true → r.buf = [])
    (hfits : r.buf.length ≤ maxLength)
    (hseen : seen = before ++ c.head :: (r.kept c ++ stuff c d)) :
    Follows c maxLength seen (put maxLength r d) (s.symbol maxLength r.read d) := by
  cases hwait : r.waitCrc with
  | true =>
      have hbuf := hempty hwait
      have hread : r.read = 0 := by rw [Receiver.read, hwait, if_pos rfl]
      have hput : put maxLength r d = { r with crc := d, waitCrc := false } := by
        rw [put, hwait, if_pos rfl]
      rw [hput, Scan.symbol, hread, if_pos (Nat.zero_le _), if_pos rfl]
      refine ⟨rfl, ?_, fun _ => htran, fun hfalse => absurd hfalse Bool.false_ne_true, hfits, ?_⟩
      · simp only [hrev, htran, if_true, Bool.false_eq_true, if_false, Receiver.read, hbuf,
          List.length_nil]
      · intro _
        refine ⟨before, hseen.trans ?_⟩
        simp only [Receiver.kept, hwait, htran, hbuf, if_true, Bool.false_eq_true, if_false,
          List.flatMap_nil, List.append_nil, List.nil_append]
  | false =>
      have hread : r.read = r.buf.length + 1 := by
        rw [Receiver.read, hwait, if_neg Bool.false_ne_true]
      have hkeep : (if r.read = 0 then d else s.crc) = s.crc := if_neg (by omega)
      by_cases hroom : r.buf.length < maxLength
      · have hput : put maxLength r d = { r with buf := r.buf ++ [d] } := by
          rw [put, hwait, if_neg Bool.false_ne_true, if_pos hroom]
        rw [hput, Scan.symbol, if_pos (by omega), hkeep]
        refine ⟨hcrc, ?_, fun _ => htran, ?_, ?_, ?_⟩
        · simp only [hrev, hwait, htran, if_true, Bool.false_eq_true, if_false, Receiver.read,
            List.length_append, List.length_singleton]
        · intro htrue
          exact absurd (hwait.symm.trans htrue) Bool.false_ne_true
        · simp only [List.length_append, List.length_singleton]
          omega
        · intro _
          refine ⟨before, hseen.trans ?_⟩
          simp only [Receiver.kept, hwait, htran, Bool.false_eq_true, if_false, List.flatMap_append,
            List.flatMap_singleton, List.append_nil, List.append_assoc]
      · have hput : put maxLength r d = { r with revMode := false } := by
          rw [put, hwait, if_neg Bool.false_ne_true, if_neg hroom]
        rw [hput, Scan.symbol, if_neg (by omega), hkeep]
        exact ⟨hcrc, rfl, fun _ => htran, hempty, hfits,
          fun hfalse => absurd hfalse Bool.false_ne_true⟩

/-- One symbol: the receiver accepts exactly an empty packet that the scan takes, unless a
whole frame has been read. -/
theorem follows_receive (hcode : c.Exact) (h : Follows c maxLength seen r s)
    (htaken : s.taken = false) (hnoframe : NoFrame c check maxLength (seen ++ [b])) :
    (receive c check maxLength r b).2 = (s.next c check maxLength b).taken ∧
      Follows c maxLength (seen ++ [b]) (receive c check maxLength r b).1
        (s.next c check maxLength b) := by
  have hplace := h.place_eq
  cases hrev : r.revMode with
  | false =>
      have htran := h.outside_tran hrev
      rw [hrev, if_neg Bool.false_ne_true] at hplace
      by_cases hhead : b = c.head
      · have hr : receive c check maxLength r b =
            ({ r with waitCrc := true, tranMode := false, buf := [], revMode := true }, false) := by
          rw [receive, decide_eq_true hhead, Bool.or_true, htran, if_pos hhead]
          rfl
        rw [hr, Scan.next, hplace]
        simp only [if_pos hhead]
        refine ⟨htaken.symm, h.crc_eq, rfl, fun _ => rfl, fun _ => rfl, Nat.zero_le _, ?_⟩
        intro _
        refine ⟨seen, ?_⟩
        rw [hhead]
        rfl
      · have hr : receive c check maxLength r b = (r, false) := by
          rw [receive, hrev, decide_eq_false hhead]
          rfl
        rw [hr, Scan.next, hplace]
        simp only [if_neg hhead]
        refine ⟨htaken.symm, h.crc_eq, ?_, h.outside_tran, h.empty, h.fits, ?_⟩
        · rw [hrev]
          exact hplace
        · intro htrue
          exact absurd (hrev.symm.trans htrue) Bool.false_ne_true
  | true =>
      obtain ⟨before, hseen⟩ := h.seen_eq hrev
      rw [hrev, if_pos rfl] at hplace
      cases htran : r.tranMode with
      | true =>
          rw [htran, if_pos rfl] at hplace
          cases hunescape : c.unescape b with
          | some d =>
              have hr : receive c check maxLength r b =
                  (put maxLength { r with tranMode := false } d, false) := by
                rw [receive, hrev, htran, hunescape]
                rfl
              rw [hr, Scan.next, hplace]
              simp only [hunescape]
              have hstuff : stuff c d = [c.tran, b] := by
                rw [stuff, hcode.escape_unescape b d hunescape]
              refine ⟨htaken.symm, @follows_put _ c maxLength { r with tranMode := false } s _ d
                before h.crc_eq hrev rfl h.empty h.fits ?_⟩
              rw [hseen, hstuff]
              simp only [Receiver.kept, htran, if_true, Bool.false_eq_true, if_false,
                List.append_assoc, List.append_nil, List.cons_append, List.nil_append]
          | none =>
              have hr : receive c check maxLength r b =
                  ({ r with tranMode := false, revMode := false }, false) := by
                rw [receive, hrev, htran, hunescape]
                rfl
              rw [hr, Scan.next, hplace]
              simp only [hunescape]
              exact ⟨htaken.symm, h.crc_eq, rfl, fun _ => rfl, h.empty, h.fits,
                fun hfalse => absurd hfalse Bool.false_ne_true⟩
      | false =>
          rw [htran, if_neg Bool.false_ne_true] at hplace
          by_cases hhead : b = c.head
          · have hr : receive c check maxLength r b =
                ({ r with waitCrc := true, tranMode := false, buf := [], revMode := true }, false) := by
              rw [receive, decide_eq_true hhead, Bool.or_true, htran, if_pos hhead]
              rfl
            rw [hr, Scan.next, hplace]
            simp only [if_pos hhead]
            refine ⟨htaken.symm, h.crc_eq, rfl, fun _ => rfl, fun _ => rfl, Nat.zero_le _, ?_⟩
            intro _
            refine ⟨seen, ?_⟩
            rw [hhead]
            rfl
          by_cases htail : b = c.tail
          · have hr : receive c check maxLength r b =
                ({ r with revMode := false }, decide (check r.buf = r.crc)) := by
              rw [receive, hrev, htran, if_neg hhead, if_pos htail]
              rfl
            rw [hr, Scan.next, hplace]
            simp only [if_neg hhead, if_pos htail, htaken, Bool.false_or]
            refine ⟨?_, h.crc_eq, rfl, fun _ => htran, h.empty, h.fits,
              fun hfalse => absurd hfalse Bool.false_ne_true⟩
            cases hwait : r.waitCrc with
            | true =>
                rw [Receiver.read, hwait, if_pos rfl, decide_eq_true rfl, Bool.true_and, h.empty hwait,
                  h.crc_eq]
            | false =>
                -- a good check symbol would make the symbols since the head a frame
                rw [Receiver.read, hwait, if_neg Bool.false_ne_true,
                  decide_eq_false (Nat.succ_ne_zero _), Bool.false_and]
                refine decide_eq_false fun hcheck => hnoframe before r.buf [] h.fits ?_
                rw [hseen, htail, frame, hcheck]
                simp only [Receiver.kept, hwait, htran, Bool.false_eq_true, if_false,
                  List.append_assoc, List.append_nil, List.cons_append]
          by_cases htranSym : b = c.tran
          · have hr : receive c check maxLength r b = ({ r with tranMode := true }, false) := by
              rw [receive, hrev, htran, if_neg hhead, if_neg htail, if_pos htranSym]
              rfl
            rw [hr, Scan.next, hplace]
            simp only [if_neg hhead, if_neg htail, if_pos htranSym]
            refine ⟨htaken.symm, h.crc_eq, ?_, ?_, h.empty, h.fits, ?_⟩
            · rw [hrev]
              rfl
            · intro hfalse
              exact absurd (hrev.symm.trans hfalse) (by decide)
            · intro _
              refine ⟨before, ?_⟩
              rw [hseen, htranSym]
              simp only [Receiver.kept, htran, if_true, Bool.false_eq_true, if_false,
                List.append_assoc, List.append_nil, List.cons_append]
          · have hr : receive c check maxLength r b = (put maxLength r b, false) := by
              rw [receive, hrev, htran, if_neg hhead, if_neg htail, if_neg htranSym]
              rfl
            rw [hr, Scan.next, hplace]
            simp only [if_neg hhead, if_neg htail, if_neg htranSym]
            have hstuff : stuff c b = [b] := by rw [stuff, hcode.plain b hhead htail htranSym]
            have hwritten : seen ++ [b] = before ++ c.head :: (r.kept c ++ stuff c b) := by
              rw [hseen, hstuff, List.append_assoc, List.cons_append]
            exact ⟨htaken.symm, follows_put h.crc_eq hrev htran h.empty h.fits hwritten⟩

/-! ## Before a frame -/

theorem Scan.after_cons (s : Scan α) (b : α) (noise : List α) :
    s.after c check maxLength (b :: noise) =
      (s.next c check maxLength b).after c check maxLength noise := rfl

theorem taken_next (h : s.taken = true) : (s.next c check maxLength b).taken = true := by
  unfold Scan.next Scan.symbol
  repeat' split
  all_goals simp only [h, Bool.true_or]

theorem taken_after (h : s.taken = true) (noise : List α) :
    (s.after c check maxLength noise).taken = true := by
  induction noise generalizing s with
  | nil => exact h
  | cons b noise ih =>
      rw [Scan.after_cons]
      exact ih (taken_next h)

theorem not_taken_of_after {noise : List α} (h : (s.after c check maxLength noise).taken = false) :
    s.taken = false := by
  cases hs : s.taken with
  | false => rfl
  | true => exact absurd ((taken_after hs noise).symm.trans h) (by decide)

omit [DecidableEq α] in
theorem NoFrame.left {first second : List α} (h : NoFrame c check maxLength (first ++ second)) :
    NoFrame c check maxLength first := by
  intro before payload behind hfit heq
  refine h before payload (behind ++ second) hfit ?_
  rw [heq, List.append_assoc, List.append_assoc]

/-- A packet leaves fewer symbols than there were. -/
theorem receiveAll_length {input payload rest : List α}
    (h : receiveAll c check maxLength r input = some (payload, rest)) :
    rest.length < input.length := by
  induction input generalizing r with
  | nil => cases h
  | cons b input ih =>
      rw [receiveAll] at h
      split at h
      · cases h
        exact Nat.lt_succ_self _
      · exact Nat.lt_succ_of_lt (ih h)

section Noise

variable (hcode : c.Exact) {noise : List α} (behind : List α)
  (hnoframe : NoFrame c check maxLength (seen ++ noise)) (h : Follows c maxLength seen r s)

include hcode hnoframe h

/-- Symbols among which the scan takes no packet are passed over. -/
theorem receiveAll_quiet (htaken : (s.after c check maxLength noise).taken = false) :
    ∃ r', receiveAll c check maxLength r (noise ++ behind) = receiveAll c check maxLength r' behind ∧
      Follows c maxLength (seen ++ noise) r' (s.after c check maxLength noise) := by
  induction noise generalizing r s seen with
  | nil =>
      rw [List.append_nil]
      exact ⟨r, rfl, h⟩
  | cons b noise ih =>
      rw [Scan.after_cons] at htaken ⊢
      have hcons : seen ++ b :: noise = seen ++ [b] ++ noise := by
        rw [List.append_assoc, List.singleton_append]
      rw [hcons] at hnoframe ⊢
      have hnext := not_taken_of_after htaken
      obtain ⟨haccept, hfollows⟩ := follows_receive hcode h
        (@not_taken_of_after _ _ _ _ _ _ [b] hnext) hnoframe.left
      obtain ⟨r', hrun, hend⟩ := ih hnoframe hfollows htaken
      refine ⟨r', ?_, hend⟩
      rw [List.cons_append, receiveAll, haccept, hnext, if_neg Bool.false_ne_true, hrun]

/-- Where the scan takes a packet the receiver returns before the symbols behind. -/
theorem receiveAll_taken (hstart : s.taken = false)
    (htaken : (s.after c check maxLength noise).taken = true) :
    ∃ packet left, receiveAll c check maxLength r (noise ++ behind) =
      some (packet, left ++ behind) := by
  induction noise generalizing r s seen with
  | nil => exact absurd (hstart.symm.trans htaken) (by decide)
  | cons b noise ih =>
      rw [Scan.after_cons] at htaken
      have hcons : seen ++ b :: noise = seen ++ [b] ++ noise := by
        rw [List.append_assoc, List.singleton_append]
      rw [hcons] at hnoframe
      obtain ⟨haccept, hfollows⟩ := follows_receive hcode h hstart hnoframe.left
      cases hnext : (s.next c check maxLength b).taken with
      | true =>
          refine ⟨(receive c check maxLength r b).1.buf, noise, ?_⟩
          rw [List.cons_append, receiveAll, haccept, hnext, if_pos rfl]
      | false =>
          obtain ⟨packet, left, hrun⟩ := ih hnoframe hfollows hnext htaken
          refine ⟨packet, left, ?_⟩
          rw [List.cons_append, receiveAll, haccept, hnext, if_neg Bool.false_ne_true, hrun]

end Noise

omit [DecidableEq α] in
theorem Follows.isEscaped_eq (h : Follows c maxLength seen r s) : s.isEscaped = r.tranMode := by
  rw [Scan.isEscaped, h.place_eq]
  cases hrev : r.revMode with
  | false => exact (h.outside_tran hrev).symm
  | true => cases r.tranMode <;> rfl

omit [DecidableEq α] in
/-- No symbol written inside a frame is the head. -/
theorem head_notMem_stuff (hcode : c.Exact) (b : α) : c.head ∉ stuff c b := by
  intro hmem
  rw [stuff] at hmem
  cases hescape : c.escape b with
  | none =>
      rw [hescape, List.mem_singleton] at hmem
      exact (c.reserved b hescape).1 hmem.symm
  | some e =>
      rw [hescape, List.mem_cons, List.mem_singleton] at hmem
      rcases hmem with htran | hstand
      · exact c.tran_ne_head htran.symm
      · have hread := c.unescape_escape b e hescape
        rw [← hstand, hcode.unescape_head] at hread
        cases hread

/-- Outside of a packet everything but a head is passed over. -/
theorem receiveAll_outside {symbols : List α} (hrev : r.revMode = false)
    (hhead : c.head ∉ symbols) (behind : List α) :
    receiveAll c check maxLength r (symbols ++ behind) = receiveAll c check maxLength r behind := by
  induction symbols with
  | nil => rfl
  | cons b symbols ih =>
      rw [List.mem_cons, not_or] at hhead
      have hstep : receive c check maxLength r b = (r, false) := by
        rw [receive, hrev, decide_eq_false (Ne.symm hhead.1)]
        rfl
      rw [List.cons_append, receiveAll_cons _ hstep, ih hhead.2]

/-- A receiver behind an escape symbol takes the head of a frame for a stand-in and passes
over the frame. -/
theorem receiveAll_frame_lost (hcode : c.Exact) (hrev : r.revMode = true) (htran : r.tranMode = true)
    (payload behind : List α) :
    receiveAll c check maxLength r (frame c check payload ++ behind) =
      receiveAll c check maxLength { r with tranMode := false, revMode := false } behind := by
  have hstep : receive c check maxLength r c.head =
      ({ r with tranMode := false, revMode := false }, false) := by
    rw [receive, hrev, htran, hcode.unescape_head]
    rfl
  rw [frame, List.cons_append, receiveAll_cons _ hstep]
  refine receiveAll_outside rfl ?_ behind
  simp only [List.mem_append, List.mem_flatMap, List.mem_singleton, not_or, not_exists, not_and]
  exact ⟨head_notMem_stuff hcode _, fun b _ => head_notMem_stuff hcode b, Ne.symm c.head_ne_tail⟩

end Follow

section Resync

variable {α : Type} [DecidableEq α] {c : Code α} {check : List α → α} {maxLength : Nat}

/-- The scan before the first symbol. -/
def Scan.start (crc : α) : Scan α := ⟨.outside, crc, false⟩

/-- Behind these symbols the next frame is read. -/
def Quiet (c : Code α) (check : List α → α) (maxLength : Nat) (crc : α) (noise : List α) : Prop :=
  ((Scan.start crc).after c check maxLength noise).taken = false ∧
    ((Scan.start crc).after c check maxLength noise).isEscaped = false

instance (crc : α) (noise : List α) : Decidable (Quiet c check maxLength crc noise) :=
  inferInstanceAs (Decidable (_ ∧ _))

/-- Behind symbols without a complete frame a receiver that starts anew reads the next frame
exactly if they are quiet. -/
theorem receiveAll_resync_iff (hcode : c.Exact) {crc : α} {noise payload : List α}
    (hnoframe : NoFrame c check maxLength noise) (hfit : payload.length ≤ maxLength)
    (behind : List α) :
    receiveAll c check maxLength ⟨false, false, false, crc, []⟩
        (noise ++ (frame c check payload ++ behind)) = some (payload, behind) ↔
      Quiet c check maxLength crc noise := by
  have hstart : Follows c maxLength [] ⟨false, false, false, crc, []⟩ (Scan.start crc) :=
    ⟨rfl, rfl, fun _ => rfl, fun _ => rfl, Nat.zero_le _,
      fun hfalse => absurd hfalse Bool.false_ne_true⟩
  rw [← List.nil_append noise] at hnoframe
  cases htaken : ((Scan.start crc).after c check maxLength noise).taken with
  | true =>
      obtain ⟨packet, left, hrun⟩ := receiveAll_taken hcode (frame c check payload ++ behind)
        hnoframe hstart rfl htaken
      rw [hrun]
      refine iff_of_false ?_ fun hquiet => absurd (htaken.symm.trans hquiet.1) (by decide)
      intro heq
      have hlen := congrArg (fun o => o.map fun p => p.2.length) heq
      simp only [Option.map_some, Option.some.injEq, List.length_append, frame,
        List.length_cons] at hlen
      omega
  | false =>
      obtain ⟨r', hrun, hend⟩ := receiveAll_quiet hcode (frame c check payload ++ behind) hnoframe
        hstart htaken
      rw [hrun, Quiet, htaken, hend.isEscaped_eq]
      cases htran : r'.tranMode with
      | false => exact iff_of_true (receiveAll_frame htran hfit behind) ⟨rfl, rfl⟩
      | true =>
          have hrev : r'.revMode = true := by
            cases hrev : r'.revMode with
            | true => rfl
            | false => exact absurd ((hend.outside_tran hrev).symm.trans htran) (by decide)
          rw [receiveAll_frame_lost hcode hrev htran]
          refine iff_of_false ?_ fun hquiet => absurd hquiet.2 (by decide)
          intro heq
          exact absurd (receiveAll_length heq) (Nat.lt_irrefl _)

end Resync

end DreamCore.Framing
