import Mathlib.Data.List.Basic
import Mathlib.Logic.Function.Basic

/-!
# The bank files of the memory (`bank_file_generate.py`)

The script deals the bytes of a program out to sixteen files, one byte in hexadecimal a
line, and fills each file up to the depth of a bank.  The simulator's `$readmemh` reads a
line into each row.
-/

namespace DreamCore.BankFile

def bankNum : Nat := 16

def tcmSize : Nat := 1048576

/-! ## Writing -/

/-- `hex(item).replace("0x", "").zfill(2)`. -/
def hexLine (item : UInt8) : List Char := (Nat.toDigits 16 item.toNat).leftpad 2 '0'

/-- `f_list` behind the loop over `data`, which starts at item `i`. -/
def dealOut : (Nat → List (List Char)) → Nat → List UInt8 → Nat → List (List Char)
  | fList, _, [] => fList
  | fList, i, item :: data =>
      dealOut (Function.update fList (i % bankNum) (fList (i % bankNum) ++ [hexLine item]))
        (i + 1) data

def fList (data : List UInt8) : Nat → List (List Char) := dealOut (fun _ => []) 0 data

end DreamCore.BankFile
