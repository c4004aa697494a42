import DreamCore.Lib.Clocked
import DreamCore.Proofs.TcmBytes
import DreamCore.Software.BankFile

/-!
# The banked memory is a byte memory

From the bank files on, both copies hold the image with every write so far applied to it, a
write of the same cycle included, and each port returns sixteen of these bytes.
-/

namespace DreamCore.Proofs

open DreamCore.Bytes DreamCore.Rtl

section Memory

variable {mem : Nat → BitVec 8} {image : Nat → BitVec 8} {s : TcmState} {input : TcmInput}
  {inputs : List TcmInput}

/-- Both copies hold the memory. -/
def Holds (mem : Nat → BitVec 8) (s : TcmState) : Prop :=
  tcmByte s.fetch = mem ∧ tcmByte s.stbuf = mem

variable (input) in
theorem holds_next (h : Holds mem s) :
    Holds (writeBytes tcmSize input.write.addr input.write.byteCount input.write.stbufSetWriteData mem)
      (tcmNext s input) := by
  refine ⟨?_, ?_⟩
  · rw [tcmNext, tcmByte_next, h.1]
  · rw [tcmNext, tcmByte_next, h.2]

end Memory

end DreamCore.Proofs
