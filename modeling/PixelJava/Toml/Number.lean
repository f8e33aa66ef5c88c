/-
Numbers and dates of TOML text. Digits may be parted by single underscores; an integer has to fit
64 bits and a float must not be infinite unless it says so, which is asked of positive floats only.
-/
import PixelJava.Text.Scan
import PixelJava.Toml.Value

namespace PixelJava.Toml

open Text

/-- Digits with single underscores between them. -/
def digitRun (isDigit : Char → Bool) : Scan (List Char) := do
  let first ← Scan.run1 isDigit
  let more ← Scan.repeatWhile do
    if ← Scan.word? "_" then return some (← Scan.run1 isDigit) else return none
  return first ++ more.flatten

/-- The value of digits in a base. -/
def digitsIn (base : Nat) (digits : List Char) : Nat :=
  digits.foldl (fun n c => n * base + (hexDigit? c).getD 0) 0

/-- The digits of a whole number in base ten, without a needless zero in front. -/
def wholeDigits : Scan (List Char) := do
  if ← Scan.word? "0" then return ['0'] else digitRun isDigit

def ofInt (n : Int) : Scan Value :=
  if Int64.minValue.toInt ≤ n && n ≤ Int64.maxValue.toInt then return .integer n else Scan.refuse

/-- An integer in another base, after its mark. -/
def integerIn (base : Nat) (isDigit : Char → Bool) : Scan Value := do
  ofInt (digitsIn base (← digitRun isDigit))

/-- Whether `n · 10^exponent` rounds to an infinite double. -/
def isInfinite (n : Nat) (exponent : Int) : Bool :=
  let magnitude : Int := (Nat.toDigits 10 n).length + exponent
  if n == 0 || magnitude < 308 then false
  else if magnitude > 310 then true
  else n * Nat.pow 10 exponent.toNat ≥
    ((1 <<< 1024) - (1 <<< 970)) * Nat.pow 10 (-exponent).toNat

/-- The exponent of a float, if there is one. -/
def exponent? : Scan (Option Int) := do
  match ← Scan.peek? with
  | some 'e' | some 'E' =>
    let _ ← Scan.any
    let negative ← Scan.word? "-"
    if !negative then
      let _ ← Scan.word? "+"
    let n : Int := digitsIn 10 (← digitRun isDigit)
    return some (if negative then -n else n)
  | _ => return none

/-- A number in base ten, after its sign. -/
def decimal (negative : Bool) : Scan Value := do
  if ← Scan.word? "inf" then return .float "inf"
  else if ← Scan.word? "nan" then return .float "nan"
  else
    let whole ← wholeDigits
    let fraction ← if ← Scan.word? "." then digitRun isDigit else pure []
    let exponent ← exponent?
    if fraction.isEmpty && exponent.isNone then
      let n : Int := digitsIn 10 whole
      ofInt (if negative then -n else n)
    else
      let n := digitsIn 10 (whole ++ fraction)
      let power := exponent.getD 0 - fraction.length
      if !negative && isInfinite n power then Scan.refuse
      else return .float ((if negative then "-" else "") ++ toString n ++ "e" ++ toString power)

def number : Scan Value := do
  if ← Scan.word? "0x" then integerIn 16 fun c => (hexDigit? c).isSome
  else if ← Scan.word? "0o" then integerIn 8 fun c => '0' ≤ c && c ≤ '7'
  else if ← Scan.word? "0b" then integerIn 2 fun c => c = '0' || c = '1'
  else if ← Scan.word? "-" then decimal true
  else
    let _ ← Scan.word? "+"
    decimal false

/-! ## Dates -/

/-- A number of exactly so many digits that lies between two bounds. -/
def fixedDigits (count low high : Nat) : Scan Nat := do
  let n := digitsIn 10 (← Scan.exactly count isDigit)
  if low ≤ n && n ≤ high then return n else Scan.refuse

def daysIn (year month : Nat) : Nat :=
  if month = 2 then
    if year % 4 = 0 && (year % 100 ≠ 0 || year % 400 = 0) then 29 else 28
  else if month = 4 || month = 6 || month = 9 || month = 11 then 30
  else 31

def fullDate : Scan Unit := do
  let year ← fixedDigits 4 0 9999
  Scan.word "-"
  let month ← fixedDigits 2 1 12
  Scan.word "-"
  let _ ← fixedDigits 2 1 (daysIn year month)

def fullTime : Scan Unit := do
  let _ ← fixedDigits 2 0 23
  Scan.word ":"
  let _ ← fixedDigits 2 0 59
  Scan.word ":"
  let _ ← fixedDigits 2 0 60
  if ← Scan.word? "." then
    let _ ← Scan.run1 isDigit

/-- The offset from universal time, if there is one. -/
def offset : Scan Unit := do
  match ← Scan.peek? with
  | some 'Z' | some 'z' =>
    let _ ← Scan.any
  | some '+' | some '-' =>
    let _ ← Scan.any
    let _ ← fixedDigits 2 0 23
    Scan.word ":"
    let _ ← fixedDigits 2 0 59
  | _ => return ()

/-- Whether the text starts with so many digits and then `mark`. -/
def startsWithDigits (count : Nat) (mark : Char) (cs : List Char) : Bool :=
  (cs.take count).length == count && (cs.take count).all isDigit && cs[count]? == some mark

/-- The time after a date, with its offset, if there is one. -/
def timeOfDay : Scan Unit := do
  match ← get with
  | c :: rest =>
    if (c = 'T' || c = 't' || c = ' ') && startsWithDigits 2 ':' rest then
      set rest
      fullTime
      offset
  | [] => return ()

/-- A date, a time, or both with a blank or a letter between them. -/
def date : Scan Value := do
  let before ← get
  if startsWithDigits 2 ':' before then fullTime
  else
    fullDate
    timeOfDay
  let after ← get
  return .date (String.ofList (before.take (before.length - after.length)))

/-- A number or a date. -/
def numberOrDate : Scan Value := do
  let cs ← get
  if startsWithDigits 4 '-' cs || startsWithDigits 2 ':' cs then date else number

end PixelJava.Toml
