/-
The layout of emitted text: each line is trimmed and indented by the braces open before it. Braces
in string literals do not count; a literal ends with its line.
-/
import PixelJava.Text.Lines

namespace PixelJava.Java

open Text

/-- What the braces of a line read so far amount to. -/
structure LineScan where
  opens : Nat
  closes : Nat
  /-- The closing braces that the line begins with. -/
  leading : Nat
  /-- Whether nothing but blanks and closing braces has been read. -/
  atStart : Bool
  inString : Bool
  /-- Whether the next character of a literal is escaped. -/
  escaped : Bool
  deriving DecidableEq

namespace LineScan

def start : LineScan :=
  ⟨0, 0, 0, true, false, false⟩

def step (s : LineScan) (c : Char) : LineScan :=
  if s.inString then
    if s.escaped then { s with escaped := false }
    else if c = '\\' then { s with escaped := true }
    else if c = '"' then { s with inString := false }
    else s
  else if c = '"' then { s with inString := true, atStart := false }
  else if c = '\x7b' then { s with opens := s.opens + 1, atStart := false }
  else if c = '\x7d' then
    { s with closes := s.closes + 1, leading := if s.atStart then s.leading + 1 else s.leading }
  else if c = ' ' || c = '\t' then s
  else { s with atStart := false }

def ofLine (line : List Char) : LineScan :=
  line.foldl step start

end LineScan

/-- The number of spaces per open brace. -/
def indentWidth : Nat :=
  4

/-- Lays out trimmed lines, where `depth` braces are open before the first. -/
def layoutLines (depth : Nat) : List (List Char) → List (List Char)
  | [] => []
  | line :: rest =>
    if line.isEmpty then [] :: layoutLines depth rest
    else
      let scan := LineScan.ofLine line
      let indent := indentWidth * (depth - scan.leading)
      (List.replicate indent ' ' ++ line) :: layoutLines (depth + scan.opens - scan.closes) rest

/-- Lays out a text; every line of the result ends with a line feed. -/
def layout (source : String) : String :=
  let laid := layoutLines 0 ((lines source.toList).map trim)
  String.join (laid.map fun line => String.ofList line ++ "\n")

end PixelJava.Java
