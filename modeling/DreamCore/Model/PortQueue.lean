import DreamCore.Rtl.MultiFifoBanks

/-!
# A bounded queue with several ports

What the FIFOs in front of rename are for.  A cycle shows the first items, removes the
leading ones that are popped and appends the leading ones that are valid, as far as there
was space at its beginning.
-/

namespace DreamCore.Model

open DreamCore.Rtl

variable {α : Type} (depth : Nat) (q : List α) (x : MultiFifoInput α)

/-- The longest prefix of the first `n` positions at which `v` holds. -/
def leading (n : Nat) (v : Nat → Bool) : Nat := ((List.range n).takeWhile v).length

def queuePopped : Nat :=
  if x.pop then leading (min fifoPortNum q.length) x.dataPopValid else 0

def queueAppended : List α :=
  if x.push then
    (List.range (leading (min fifoPortNum (depth - q.length)) x.dataInValid)).map x.dataIn
  else []

def portQueueNext : List α :=
  if x.flush then [] else q.drop (queuePopped q x) ++ queueAppended depth q x

end DreamCore.Model
