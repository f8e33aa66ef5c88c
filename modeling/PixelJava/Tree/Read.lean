/-
Programs from JSON text. Text is read more strictly than values: brackets may nest only so deep,
and a token without a value is refused. A node is read whole before its kind is known, so both
rules hold for all of it; outside of nodes an unknown field is skipped unread.
-/
import PixelJava.Json.Parser
import PixelJava.Tree.Decode

namespace PixelJava

/-- A part of a record: by its name, or by its index in an array. -/
def Json.part? (name : String) (index : Nat) : Json → Option Json
  | .obj fields => fields.lookup name
  | .arr items => items[index]?
  | _ => none

/-- The items of an array; anything else has none. -/
def Json.itemList : Json → List Json
  | .arr items => items
  | _ => []

namespace Program

/-- How deep brackets may nest in text. -/
def maxBrackets : Nat :=
  127

/-- The nodes that stand outside of all others, each with the number of brackets around it: the
statements of the program's block, and the sizes of its parameters. -/
def outerNodes (program : Json) : List (Nat × Json) :=
  let block := program.part? "block" 3
  let body := (block.bind (·.part? "body" 0)).elim [] Json.itemList
  let params := (program.part? "params" 2).elim [] Json.itemList
  let sizes := params.filterMap (·.part? "dimension" 2)
  body.map (3, ·) ++
    (sizes.filterMap (·.part? "width" 0) ++ sizes.filterMap (·.part? "height" 1)).map (4, ·)

/-- Whether what has to be read of a program can be read from text. -/
def isLegible (program : Json) : Bool :=
  (outerNodes program).all fun (around, node) =>
    around + node.depth ≤ maxBrackets && node.isReadable

/-- The program that a text stands for. -/
def ofText? (text : String) : Option Program := do
  let value ← Json.parse? text
  if isLegible value then ofJson? value else none

end Program

end PixelJava
