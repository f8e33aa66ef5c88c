/-
Options from a TOML document. A key that is left out keeps its default; other keys do not matter.
-/
import PixelJava.Options.Basic
import PixelJava.Toml.Parser

namespace PixelJava.Options

def stringOfToml? : Toml.Value → Option String
  | .string s => some s
  | _ => none

/-- A nesting bound, which may not be negative. -/
def depthOfToml? : Toml.Value → Option UInt64
  | .integer n => if 0 ≤ n then some n.toNat.toUInt64 else none
  | _ => none

def boolOfToml? : Toml.Value → Option Bool
  | .boolean b => some b
  | _ => none

/-- The value of a key, or its default. -/
def entry? {α : Type} (entries : Toml.Entries) (key : String) (default : α)
    (decode : Toml.Value → Option α) : Option α :=
  match entries.find? key with
  | none => some default
  | some value => decode value

/-- The options that a document gives. -/
def ofToml? (text : String) : Option Options := do
  let entries ← Toml.parse? text
  return {
    package := ← entry? entries "package" default.package fun v => some <$> stringOfToml? v
    libraryPackage := ← entry? entries "runtime_package" default.libraryPackage stringOfToml?
    entryPoint := ← entry? entries "entry_point" default.entryPoint stringOfToml?
    maxDepth := ← entry? entries "max_nesting_depth" default.maxDepth depthOfToml?
    pretty := ← entry? entries "pretty" default.pretty boolOfToml? }

end PixelJava.Options
