/-
Scanners take what they read off the front of a text, or refuse. They never back up: which rule to
follow is decided by looking at the next characters.
-/

namespace PixelJava.Text

/-- A reader of the front of a text. -/
abbrev Scan := StateT (List Char) Option

namespace Scan

def refuse {α : Type} : Scan α :=
  fun _ => none

/-- The next character, which stays where it is. -/
def peek? : Scan (Option Char) := do
  return (← get).head?

/-- Whether the text goes on with `word`. -/
def sees (word : String) : Scan Bool := do
  return word.toList.isPrefixOf (← get)

/-- Takes the next character. -/
def any : Scan Char := fun
  | [] => none
  | c :: rest => some (c, rest)

/-- Takes the next character, which has to satisfy `p`. -/
def one (p : Char → Bool) : Scan Char := do
  let c ← any
  if p c then return c else refuse

/-- Takes `word`, which has to come next. -/
def word (word : String) : Scan Unit := fun cs =>
  if word.toList.isPrefixOf cs then some ((), cs.drop word.length) else none

/-- Takes `word` if it comes next, and says whether it did. -/
def word? (word : String) : Scan Bool := fun cs =>
  if word.toList.isPrefixOf cs then some (true, cs.drop word.length) else some (false, cs)

/-- Takes the longest run of characters that satisfy `p`. -/
def run (p : Char → Bool) : Scan (List Char) := fun cs =>
  let (taken, rest) := cs.span p
  some (taken, rest)

/-- Takes a run as `run` does, which must not be empty. -/
def run1 (p : Char → Bool) : Scan (List Char) := do
  let taken ← run p
  if taken.isEmpty then refuse else return taken

/-- Takes exactly `n` characters that satisfy `p`. -/
def exactly (n : Nat) (p : Char → Bool) : Scan (List Char) := fun cs =>
  let taken := cs.take n
  if taken.length == n && taken.all p then some (taken, cs.drop n) else none

/-- Runs `step` until it answers `none` and puts the answers in order; `seen` holds those so far,
last first. Every answer has to take a character off `budget`. -/
def repeatFrom {α : Type} (step : Scan (Option α)) : List Char → List α → Scan (List α)
  | [], seen => do
    match ← step with
    | none => return seen.reverse
    | some _ => refuse
  | _ :: budget, seen => do
    match ← step with
    | none => return seen.reverse
    | some a => repeatFrom step budget (a :: seen)

/-- Runs `step`, which takes at least one character whenever it answers `some`, until it answers
`none`. -/
def repeatWhile {α : Type} (step : Scan (Option α)) : Scan (List α) := do
  repeatFrom step (← get) []

/-- Applies a scanner to a whole text, of which nothing may be left. -/
def all {α : Type} (scan : Scan α) (text : List Char) : Option α :=
  match scan text with
  | some (a, []) => some a
  | _ => none

end Scan

/-- Whether a character is a decimal digit. -/
def isDigit (c : Char) : Bool :=
  '0' ≤ c && c ≤ '9'

/-- The value of a hexadecimal digit. -/
def hexDigit? (c : Char) : Option Nat :=
  if '0' ≤ c && c ≤ '9' then some (c.toNat - '0'.toNat)
  else if 'a' ≤ c && c ≤ 'f' then some (c.toNat - 'a'.toNat + 10)
  else if 'A' ≤ c && c ≤ 'F' then some (c.toNat - 'A'.toNat + 10)
  else none

/-- The value of hexadecimal digits. -/
def hexValue? (digits : List Char) : Option Nat :=
  digits.foldlM (fun n c => (n * 16 + ·) <$> hexDigit? c) 0

end PixelJava.Text
