/-
The tokens of JSON text. A token that stands for a value carries it.
-/
import PixelJava.Json.Number
import PixelJava.Text.Scan

namespace PixelJava.Json

open Text

/-- A token of JSON text. -/
inductive Token where
  | openArray | closeArray | openObject | closeObject | comma | colon
  /-- A value that is no array and no object. -/
  | atom (value : Json)

namespace Token

def isSpace (c : Char) : Bool :=
  c = ' ' || c = '\t' || c = '\n' || c = '\r'

/-- The character that a letter after a backslash stands for. -/
def escape? : Char → Option Char
  | '"' => some '"'
  | '\\' => some '\\'
  | '/' => some '/'
  | 'b' => some '\x08'
  | 'f' => some '\x0c'
  | 'n' => some '\n'
  | 'r' => some '\r'
  | 't' => some '\t'
  | _ => none

/-- Four hexadecimal digits. -/
def hex4 : Scan Nat := do
  let digits ← Scan.exactly 4 fun c => (hexDigit? c).isSome
  match hexValue? digits with
  | some n => return n
  | none => Scan.refuse

def isHighSurrogate (n : Nat) : Bool :=
  0xD800 ≤ n && n < 0xDC00

def isLowSurrogate (n : Nat) : Bool :=
  0xDC00 ≤ n && n < 0xE000

/-- The rest of a `\u` escape: a character, or `none` for a surrogate without its partner. -/
def unicodeEscape : Scan (Option Char) := do
  let n ← hex4
  if isHighSurrogate n then
    if ← Scan.sees "\\u" then
      -- The second escape is taken only if it completes the pair.
      let before ← get
      Scan.word "\\u"
      let low ← hex4
      if isLowSurrogate low then
        return some (Char.ofNat (0x10000 + (n - 0xD800) * 0x400 + (low - 0xDC00)))
      else
        set before
        return none
    else return none
  else if isLowSurrogate n then return none
  else return some (Char.ofNat n)

/-- One piece of a string after its opening quote: `none` at the closing quote, else a character
or, for half a surrogate pair, nothing. -/
def stringPiece : Scan (Option (Option Char)) := do
  let c ← Scan.any
  if c = '"' then return none
  else if c = '\\' then
    let e ← Scan.any
    if e = 'u' then return some (← unicodeEscape)
    else
      match escape? e with
      | some c => return some (some c)
      | none => Scan.refuse
  else if c.toNat < 0x20 then Scan.refuse
  else return some (some c)

/-- The rest of a string after its opening quote. -/
def stringRest : Scan Json := do
  let pieces ← Scan.repeatWhile stringPiece
  match pieces.mapM id with
  | some cs => return .str (String.ofList cs)
  | none => return .unreadable

/-- The digits after a decimal point, if there is one. -/
def fraction : Scan (List Char) := do
  if ← Scan.word? "." then Scan.run1 isDigit else return []

/-- The exponent, if there is one, with the text it is written as. -/
def exponent : Scan (Option Int × List Char) := do
  match ← Scan.peek? with
  | some 'e' | some 'E' =>
    let mark ← Scan.any
    let sign ← Scan.run fun c => c = '+' || c = '-'
    let digits ← Scan.run1 isDigit
    let n : Int := digitsValue digits
    match sign with
    | [] => return (some n, mark :: digits)
    | ['+'] => return (some n, mark :: '+' :: digits)
    | ['-'] => return (some (-n), mark :: '-' :: digits)
    | _ => Scan.refuse
  | _ => return (none, [])

def number : Scan Json := do
  let negative ← Scan.word? "-"
  let whole ← if ← Scan.word? "0" then pure ['0'] else Scan.run1 isDigit
  let fraction ← fraction
  let (exponent, mark) ← exponent
  let point := if fraction.isEmpty then [] else '.' :: fraction
  let text := (if negative then ['-'] else []) ++ whole ++ point ++ mark
  return Decimal.toJson ⟨negative, whole, fraction, exponent⟩ (String.ofList text)

/-- The next token, or `none` at the end of the text. -/
def next? : Scan (Option Token) := do
  let _ ← Scan.run isSpace
  match ← Scan.peek? with
  | none => return none
  | some '[' => Scan.word "["; return some .openArray
  | some ']' => Scan.word "]"; return some .closeArray
  | some '\x7b' => Scan.word "\x7b"; return some .openObject
  | some '\x7d' => Scan.word "\x7d"; return some .closeObject
  | some ',' => Scan.word ","; return some .comma
  | some ':' => Scan.word ":"; return some .colon
  | some '"' => Scan.word "\""; return some (.atom (← stringRest))
  | some 't' => Scan.word "true"; return some (.atom (.bool true))
  | some 'f' => Scan.word "false"; return some (.atom (.bool false))
  | some 'n' => Scan.word "null"; return some (.atom .null)
  | some _ => return some (.atom (← number))

/-- All tokens of a text. -/
def ofText? (text : List Char) : Option (List Token) :=
  (Scan.repeatWhile next?).all text

end Token

end PixelJava.Json
