/-
JSON values as text, on one line or with one item per line. Inside strings only the quote, the
backslash and control characters are escaped.
-/
import PixelJava.Json.Basic
import PixelJava.Text.Quoted

namespace PixelJava.Json

/-- How one character is written in a string. -/
def escapeChar (c : Char) : String :=
  if c = '"' then "\\\""
  else if c = '\\' then "\\\\"
  else if c = '\x08' then "\\b"
  else if c = '\x0c' then "\\f"
  else if c = '\n' then "\\n"
  else if c = '\r' then "\\r"
  else if c = '\t' then "\\t"
  else if c.toNat < 0x10 then "\\u000" ++ Text.hex c.toNat
  else if c.toNat < 0x20 then "\\u00" ++ Text.hex c.toNat
  else c.toString

def quoted (s : String) : String :=
  "\"" ++ String.join (s.toList.map escapeChar) ++ "\""

/-- The text of a value that has no parts. -/
def atomText : Json → String
  | .null => "null"
  | .bool b => if b then "true" else "false"
  | .int n => toString n
  | .real text => text
  | .str s => quoted s
  | _ => "null"

mutual

/-- A value on one line, without blanks. -/
def compact : Json → String
  | .arr items => "[" ++ ",".intercalate (compactItems items) ++ "]"
  | .obj fields => "\x7b" ++ ",".intercalate (compactFields fields) ++ "\x7d"
  | atom => atomText atom

def compactItems : List Json → List String
  | [] => []
  | item :: rest => compact item :: compactItems rest

def compactFields : List (String × Json) → List String
  | [] => []
  | (name, value) :: rest => (quoted name ++ ":" ++ compact value) :: compactFields rest

end

/-- A line feed and the indentation of a nesting level. -/
def newline (level : Nat) : String :=
  "\n" ++ String.ofList (List.replicate (2 * level) ' ')

/-- Items between brackets, one per line. -/
def enclose (first last : String) (level : Nat) (items : List String) : String :=
  if items.isEmpty then first ++ last
  else
    first ++ newline (level + 1) ++ ("," ++ newline (level + 1)).intercalate items ++
      newline level ++ last

mutual

/-- A value with every item on a line of its own, indented by two spaces per level. -/
def prettyAt (level : Nat) : Json → String
  | .arr items => enclose "[" "]" level (prettyItems (level + 1) items)
  | .obj fields => enclose "\x7b" "\x7d" level (prettyFields (level + 1) fields)
  | atom => atomText atom

def prettyItems (level : Nat) : List Json → List String
  | [] => []
  | item :: rest => prettyAt level item :: prettyItems level rest

def prettyFields (level : Nat) : List (String × Json) → List String
  | [] => []
  | (name, value) :: rest =>
    (quoted name ++ ": " ++ prettyAt level value) :: prettyFields level rest

end

def pretty (value : Json) : String :=
  prettyAt 0 value

end PixelJava.Json
