/-
Numbers in JSON text. A number without fraction and exponent that fits 64 bits is an integer, minus
zero apart. Any other number stands for a double, found from a significand of 64 bits and a power
of ten; it has no value if that double would be infinite.
-/
import PixelJava.Json.Basic

namespace PixelJava.Json

/-- The parts of a number as written: the digits before and after the point, and the exponent. -/
structure Decimal where
  negative : Bool
  whole : List Char
  fraction : List Char
  exponent : Option Int

/-- The value of decimal digits. -/
def digitsValue (digits : List Char) : Nat :=
  digits.foldl (fun n c => n * 10 + (c.toNat - '0'.toNat)) 0

/-- Takes digits into a significand as long as it fits 64 bits; also the number of digits taken. -/
def significand (n taken : Nat) : List Char → Nat × Nat
  | [] => (n, taken)
  | c :: rest =>
    let next := n * 10 + (c.toNat - '0'.toNat)
    if next < UInt64.size then significand next (taken + 1) rest else (n, taken)

/-- The double nearest to `n`, ties to even, for an `n` in the double range. -/
def roundDouble (n : Nat) : Nat :=
  let shift := n.log2 - 52
  let unit := 1 <<< shift
  let low := n / unit
  let rest := n % unit
  if 2 * rest > unit || (2 * rest == unit && low % 2 == 1) then (low + 1) * unit else low * unit

/-- Whether `n · 10^exponent` is infinite when taken as a product of doubles. -/
def overflows (n : Nat) (exponent : Int) : Bool :=
  if n == 0 || exponent < 0 then false
  else if exponent > 308 then true
  else roundDouble n * roundDouble (Nat.pow 10 exponent.toNat) ≥ (1 <<< 1024) - (1 <<< 970)

namespace Decimal

/-- The significand with the power of ten that belongs to it. -/
def parts (d : Decimal) : Nat × Int :=
  let (whole, taken) := significand 0 0 d.whole
  let (all, more) := significand whole 0 d.fraction
  let dropped : Int := (d.whole.length - taken : Nat)
  (all, dropped - more + d.exponent.getD 0)

/-- The value of a number; `text` is how it is written. -/
def toJson (d : Decimal) (text : String) : Json :=
  let n := digitsValue d.whole
  if d.fraction.isEmpty && d.exponent.isNone && d.negative && 0 < n && n ≤ Int64.minValue.toInt.natAbs then .int (-n)
  else if d.fraction.isEmpty && d.exponent.isNone && !d.negative && n < UInt64.size then .int n
  else
    let (n, exponent) := d.parts
    if overflows n exponent then .unreadable else .real text

end Decimal

end PixelJava.Json
