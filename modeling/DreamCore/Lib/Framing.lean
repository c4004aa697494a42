import Mathlib.Data.List.Basic

/-!
# Frames with escaped symbols

A frame is a head symbol, a check symbol, the payload and a tail symbol.  A symbol of the
check or the payload that is reserved is written as two: the escape symbol and a stand-in.
A receiver reads symbol by symbol; a head makes it start anew, whatever it has read.
-/

namespace DreamCore.Framing

/-- The reserved symbols and their stand-ins. -/
structure Code (α : Type) where
  head : α
  tail : α
  tran : α
  escape : α → Option α
  unescape : α → Option α
  head_ne_tail : tail ≠ head
  tran_ne_head : tran ≠ head
  tran_ne_tail : tran ≠ tail
  unescape_escape : ∀ b e, escape b = some e → unescape e = some b
  reserved : ∀ b, escape b = none → b ≠ head ∧ b ≠ tail ∧ b ≠ tran

/-- What a receiver remembers between symbols. -/
structure Receiver (α : Type) where
  tranMode : Bool
  revMode : Bool
  waitCrc : Bool
  crc : α
  buf : List α

section Frame

variable {α : Type} (c : Code α) (check : List α → α)

def stuff (b : α) : List α :=
  match c.escape b with
  | some e => [c.tran, e]
  | none => [b]

def frame (payload : List α) : List α :=
  c.head :: (stuff c (check payload) ++ (payload.flatMap (stuff c) ++ [c.tail]))

variable [DecidableEq α] (maxLength : Nat)

/-- A symbol of the check or the payload. -/
def put (r : Receiver α) (b : α) : Receiver α :=
  if r.waitCrc then { r with crc := b, waitCrc := false }
  else if r.buf.length < maxLength then { r with buf := r.buf ++ [b] }
  else { r with revMode := false }

/-- One symbol, and whether the frame is accepted with it. -/
def receive (r : Receiver α) (b : α) : Receiver α × Bool :=
  if r.revMode || decide (b = c.head) then
    if !r.tranMode then
      if b = c.head then
        ({ r with waitCrc := true, tranMode := false, buf := [], revMode := true }, false)
      else if b = c.tail then ({ r with revMode := false }, decide (check r.buf = r.crc))
      else if b = c.tran then ({ r with tranMode := true }, false)
      else (put maxLength r b, false)
    else
      match c.unescape b with
      | some d => (put maxLength { r with tranMode := false } d, false)
      | none => ({ r with tranMode := false, revMode := false }, false)
  else (r, false)

/-- The first accepted payload and the symbols behind its frame. -/
def receiveAll : Receiver α → List α → Option (List α × List α)
  | _, [] => none
  | r, b :: rest =>
      if (receive c check maxLength r b).2 then
        some ((receive c check maxLength r b).1.buf, rest)
      else receiveAll (receive c check maxLength r b).1 rest

end Frame

/-! ## A frame is received -/

section Receive

variable {α : Type} [DecidableEq α] {c : Code α} {check : List α → α} {maxLength : Nat}
  {r : Receiver α}

theorem receiveAll_cons {b : α} {r' : Receiver α} (rest : List α)
    (h : receive c check maxLength r b = (r', false)) :
    receiveAll c check maxLength r (b :: rest) = receiveAll c check maxLength r' rest := by
  rw [receiveAll, h, if_neg Bool.false_ne_true]

/-- A symbol written inside a frame is put, whether it is reserved or not. -/
theorem receiveAll_stuff (hrev : r.revMode = true) (htran : r.tranMode = false) (b : α)
    (rest : List α) :
    receiveAll c check maxLength r (stuff c b ++ rest) =
      receiveAll c check maxLength (put maxLength r b) rest := by
  cases hescape : c.escape b with
  | none =>
      obtain ⟨hhead, htail, htranSym⟩ := c.reserved b hescape
      have hstep : receive c check maxLength r b = (put maxLength r b, false) := by
        rw [receive, hrev, htran, if_neg hhead, if_neg htail, if_neg htranSym]
        rfl
      rw [stuff, hescape]
      exact receiveAll_cons rest hstep
  | some e =>
      have hfirst : receive c check maxLength r c.tran = ({ r with tranMode := true }, false) := by
        rw [receive, hrev, htran, if_neg c.tran_ne_head, if_neg c.tran_ne_tail, if_pos rfl]
        rfl
      have hsecond : receive c check maxLength { r with tranMode := true } e =
          (put maxLength r b, false) := by
        obtain ⟨tranMode, revMode, waitCrc, crc, buf⟩ := r
        obtain rfl : revMode = true := hrev
        obtain rfl : tranMode = false := htran
        rw [receive, c.unescape_escape b e hescape]
        simp only [Bool.true_or, if_true, Bool.not_true, Bool.false_eq_true, if_false]
      rw [stuff, hescape]
      show receiveAll c check maxLength r (c.tran :: e :: rest) = _
      rw [receiveAll_cons _ hfirst, receiveAll_cons _ hsecond]

theorem receiveAll_payload (hrev : r.revMode = true) (htran : r.tranMode = false)
    (hwait : r.waitCrc = false) (payload rest : List α)
    (hfit : r.buf.length + payload.length ≤ maxLength) :
    receiveAll c check maxLength r (payload.flatMap (stuff c) ++ rest) =
      receiveAll c check maxLength { r with buf := r.buf ++ payload } rest := by
  induction payload generalizing r with
  | nil => rw [List.append_nil, List.flatMap_nil, List.nil_append]
  | cons b payload ih =>
      rw [List.length_cons] at hfit
      have hput : put maxLength r b = { r with buf := r.buf ++ [b] } := by
        rw [put, hwait, if_neg Bool.false_ne_true, if_pos (by omega)]
      rw [List.flatMap_cons, List.append_assoc, receiveAll_stuff hrev htran, hput,
        @ih { r with buf := r.buf ++ [b] } hrev htran hwait]
      · simp only [List.append_assoc, List.singleton_append]
      · simp only [List.length_append, List.length_singleton]
        omega

/-- A receiver that is not inside an escape reads a whole frame and stops behind it. -/
theorem receiveAll_frame (htran : r.tranMode = false) {payload : List α}
    (hfit : payload.length ≤ maxLength) (rest : List α) :
    receiveAll c check maxLength r (frame c check payload ++ rest) = some (payload, rest) := by
  have hhead : receive c check maxLength r c.head =
      ({ r with waitCrc := true, tranMode := false, buf := [], revMode := true }, false) := by
    rw [receive, decide_eq_true rfl, Bool.or_true, htran]
    simp only [if_true, Bool.not_false]
  have htail : receive c check maxLength ⟨false, true, false, check payload, payload⟩ c.tail =
      (⟨false, false, false, check payload, payload⟩, true) := by
    rw [receive, if_neg c.head_ne_tail, if_pos rfl]
    simp only [Bool.true_or, if_true, Bool.not_false, decide_true]
  rw [frame, List.cons_append, receiveAll_cons _ hhead, List.append_assoc,
    receiveAll_stuff rfl rfl, List.append_assoc, put, if_pos rfl,
    receiveAll_payload rfl rfl rfl _ _ (by simpa using hfit)]
  simp only [List.nil_append, List.singleton_append]
  rw [receiveAll, htail, if_pos rfl]

end Receive

end DreamCore.Framing
