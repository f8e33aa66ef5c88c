/-
Blanks, comments and strings of TOML text.
-/
import PixelJava.Text.Scan

namespace PixelJava.Toml

open Text

def isWhite (c : Char) : Bool :=
  c = ' ' || c = '\t'

/-- Whether a character may stand in a comment. -/
def isCommentChar (c : Char) : Bool :=
  c = '\t' || (' ' ≤ c && c ≠ '\x7f')

/-- Blanks within a line. -/
def blanks : Scan Unit := do
  let _ ← Scan.run isWhite

/-- A line feed, or a carriage return and a line feed. -/
def newline : Scan Unit := do
  let _ ← Scan.word? "\r"
  Scan.word "\n"

/-- Whether a line ends here. -/
def seesNewline : Scan Bool := do
  return (← Scan.sees "\n") || (← Scan.sees "\r\n")

/-- A comment, without the end of its line. -/
def comment : Scan Unit := do
  Scan.word "#"
  let _ ← Scan.run isCommentChar

/-- The end of a line or of the text. -/
def lineEnd : Scan Unit := do
  if (← Scan.peek?).isSome then newline

/-- What may stand after a line's content. -/
def lineRest : Scan Unit := do
  blanks
  if ← Scan.sees "#" then comment
  lineEnd

/-- Blanks, comments and line ends between the items of an array. -/
def gap : Scan Unit := do
  let _ ← Scan.repeatWhile do
    blanks
    if ← Scan.sees "#" then
      comment
      newline
      return some ()
    else if ← seesNewline then
      newline
      return some ()
    else return none

/-! ## Strings -/

/-- The character of a code point given by hexadecimal digits. -/
def codePoint (digits : Nat) : Scan Char := do
  let digits ← Scan.exactly digits fun c => (hexDigit? c).isSome
  match hexValue? digits with
  | some n => if n.isValidChar then return Char.ofNat n else Scan.refuse
  | none => Scan.refuse

/-- What follows a backslash. -/
def escape : Scan Char := do
  match ← Scan.any with
  | 'b' => return '\x08'
  | 't' => return '\t'
  | 'n' => return '\n'
  | 'f' => return '\x0c'
  | 'r' => return '\r'
  | '"' => return '"'
  | '\\' => return '\\'
  | 'u' => codePoint 4
  | 'U' => codePoint 8
  | _ => Scan.refuse

/-- Whether a character other than quote and backslash may stand in a string. -/
def isStringChar (c : Char) : Bool :=
  isCommentChar c

/-- One piece of a string on one line, after the opening quote. -/
def basicPiece : Scan (Option Char) := do
  let c ← Scan.any
  if c = '"' then return none
  else if c = '\\' then return some (← escape)
  else if isStringChar c then return some c
  else Scan.refuse

/-- A string in double quotes, on one line. -/
def basicString : Scan String := do
  Scan.word "\""
  return String.ofList (← Scan.repeatWhile basicPiece)

/-- A string in single quotes, on one line; nothing is escaped. -/
def literalString : Scan String := do
  Scan.word "'"
  let text ← Scan.run fun c => isStringChar c && c ≠ '\x27'
  Scan.word "'"
  return String.ofList text

/-- Whether the text goes on with blanks up to the end of the line. -/
def seesBlankRest : Scan Bool := do
  let rest := (← get).dropWhile isWhite
  return ['\n'].isPrefixOf rest || ['\r', '\n'].isPrefixOf rest

/-- Skips blanks and line ends after a backslash at the end of a line. -/
def skipBlankLines : Scan Unit := do
  let _ ← Scan.repeatWhile do
    blanks
    if ← seesNewline then
      newline
      return some ()
    else return none

/-- The quotes at a run of three or more: up to two belong to the text, and the last three end
it. -/
def closing (quote : String) : Scan (List Char) := do
  let marks := quote.toList
  Scan.word (quote ++ quote ++ quote)
  if ← Scan.word? (quote ++ quote) then return marks ++ marks
  else if ← Scan.word? quote then return marks
  else return []

/-- The text of a string over several lines after its opening quotes. Every step of `piece` gives
some of the text; the quotes at the end may give the last of it. -/
def longString (quote : String) (piece : Scan (List Char)) : Scan String := do
  if ← seesNewline then newline
  let pieces ← Scan.repeatWhile do
    if ← Scan.sees (quote ++ quote ++ quote) then return none else return some (← piece)
  let last ← closing quote
  return String.ofList (pieces.flatten ++ last)

/-- A piece of a string over several lines in double quotes. -/
def longBasicPiece : Scan (List Char) := do
  if ← seesNewline then
    newline
    return ['\n']
  else
    let c ← Scan.any
    if c = '\\' then
      if ← seesBlankRest then
        skipBlankLines
        return []
      else return [← escape]
    else if isStringChar c then return [c]
    else Scan.refuse

/-- A piece of a string over several lines in single quotes. -/
def longLiteralPiece : Scan (List Char) := do
  if ← seesNewline then
    newline
    return ['\n']
  else
    let c ← Scan.any
    if isStringChar c then return [c] else Scan.refuse

/-- A string of any of the four forms. -/
def string : Scan String := do
  if ← Scan.word? "\"\"\"" then longString "\"" longBasicPiece
  else if ← Scan.word? "'''" then longString "'" longLiteralPiece
  else if ← Scan.sees "\"" then basicString
  else literalString

end PixelJava.Toml
