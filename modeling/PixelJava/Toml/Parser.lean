/-
TOML documents. A document is read line by line; keys and headers then build up one table. Arrays
and inline tables may nest only so deep, and dotted keys are bounded alike.
-/
import PixelJava.Toml.Number
import PixelJava.Toml.Text

namespace PixelJava.Toml

open Text

/-- One more than the brackets of a value or the parts of a key may be. -/
def nestingLimit : Nat :=
  80

/-! ## Keys and values -/

def isBareKeyChar (c : Char) : Bool :=
  ('A' ≤ c && c ≤ 'Z') || ('a' ≤ c && c ≤ 'z') || isDigit c || c = '_' || c = '-'

/-- One part of a key, with the blanks around it. -/
def keyPart : Scan String := do
  blanks
  let part ←
    if ← Scan.sees "\"" then basicString
    else if ← Scan.sees "'" then literalString
    else String.ofList <$> Scan.run1 isBareKeyChar
  blanks
  return part

/-- A key: the path to its table, and its last part. -/
def key : Scan (List String × String) := do
  let first ← keyPart
  let more ← Scan.repeatWhile do
    if ← Scan.word? "." then return some (← keyPart) else return none
  let parts := first :: more
  if parts.length < nestingLimit then return (parts.dropLast, parts.getLast?.getD first)
  else Scan.refuse

/-- The items of an array after its opening bracket. -/
def arrayRest (value : Scan Value) : Scan Value := do
  let items ← Scan.repeatWhile do
    gap
    if ← Scan.word? "]" then return none
    else
      let item ← value
      gap
      if (← Scan.word? ",") || (← Scan.sees "]") then return some item else Scan.refuse
  return .array items

/-- A key with its value in an inline table. -/
def inlinePair (value : Scan Value) : Scan ((List String × String) × Value) := do
  let key ← key
  Scan.word "="
  blanks
  let value ← value
  blanks
  return (key, value)

/-- The entries of an inline table after its opening brace. -/
def inlineRest (value : Scan Value) : Scan Value := do
  blanks
  if ← Scan.word? "\x7d" then return .table .inline []
  else
    let first ← inlinePair value
    let more ← Scan.repeatWhile do
      if ← Scan.word? "," then return some (← inlinePair value) else return none
    Scan.word "\x7d"
    let put (entries : Entries) (pair : (List String × String) × Value) : Option Entries :=
      entries.put true pair.1.1 pair.1.2 pair.2
    match (first :: more).foldlM put [] with
    | some entries => return .table .inline entries
    | none => Scan.refuse

/-- A value that opens fewer than `levels` brackets at once. -/
def value : Nat → Scan Value
  | 0 => Scan.refuse
  | levels + 1 => do
    match ← Scan.peek? with
    | some '"' | some '\x27' => return .string (← string)
    | some '[' =>
      Scan.word "["
      if levels = 0 then Scan.refuse else arrayRest (value levels)
    | some '\x7b' =>
      Scan.word "\x7b"
      if levels = 0 then Scan.refuse else inlineRest (value levels)
    | some 't' =>
      Scan.word "true"
      return .boolean true
    | some 'f' =>
      Scan.word "false"
      return .boolean false
    | _ => numberOrDate

/-! ## Documents -/

/-- What a line of a document says. -/
inductive Line where
  | nothing
  | pair (path : List String) (key : String) (value : Value)
  | header (path : List String) (key : String)
  | arrayHeader (path : List String) (key : String)

/-- The next line, or `none` at the end of the text. -/
def line? : Scan (Option Line) := do
  blanks
  match ← Scan.peek? with
  | none => return none
  | some '#' =>
    comment
    lineEnd
    return some .nothing
  | some '\n' | some '\r' =>
    newline
    return some .nothing
  | some '[' =>
    Scan.word "["
    if ← Scan.word? "[" then
      let (path, last) ← key
      Scan.word "]]"
      lineRest
      return some (.arrayHeader path last)
    else
      let (path, last) ← key
      Scan.word "]"
      lineRest
      return some (.header path last)
  | some _ =>
    let (path, last) ← key
    Scan.word "="
    blanks
    let value ← value nestingLimit
    lineRest
    return some (.pair path last value)

/-- A document read so far. -/
structure Document where
  root : Entries
  /-- The path of the last header, under which keys are put. -/
  current : List String

/-- Takes a line into the document. -/
def Document.add (d : Document) : Line → Option Document
  | .nothing => some d
  | .pair path key value => do
    return { d with root := ← d.root.change d.current (·.put true path key value) }
  | .header path key => do
    return ⟨← d.root.change path (·.define key), path ++ [key]⟩
  | .arrayHeader path key => do
    return ⟨← d.root.change path (·.extend key), path ++ [key]⟩

/-- The table that a text stands for. A byte order mark may come first. -/
def parse? (text : String) : Option Entries := do
  let cs :=
    match text.toList with
    | '\ufeff' :: rest => rest
    | cs => cs
  let lines ← (Scan.repeatWhile line?).all cs
  let document ← lines.foldlM Document.add ⟨[], []⟩
  return document.root

end PixelJava.Toml
