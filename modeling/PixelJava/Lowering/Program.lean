/-
Whole programs. A program becomes one class with one static method; its parameters live in a scope
around that of its block.
-/
import PixelJava.Java.Layout
import PixelJava.Java.Printer
import PixelJava.Lowering.Stmt
import PixelJava.Options.Basic

namespace PixelJava

open LowerM

/-- The result of compiling a program. -/
structure Compilation where
  className : String
  source : String
  declared : List Declared
  deriving DecidableEq

/-- Declares the parameters in order. -/
def lowerParams {limit : UInt64} : List NameDef → LowerM limit (List Java.Param)
  | [] => return []
  | param :: rest => do
    useType param.type
    let name ← declare param.name param.type param.span
    return ⟨param.type, name⟩ :: (← lowerParams rest)

/-- Lowers the parameters and the block of a program. -/
def Program.lower {limit : UInt64} (program : Program) :
    LowerM limit (List Java.Param × List Java.Stmt) := do
  enterScope
  let params ← lowerParams program.params
  let body ← program.block.lower
  exitScope
  useType program.type
  return (params, body)

/-- The classes to import, each once and in their order. -/
def importsOf (uses : List Java.Library) : List Java.Library :=
  Java.Library.all.filter uses.contains

/-- The unit that a program becomes. -/
def sourceUnit (options : Options) (program : Program) (uses : List Java.Library)
    (params : List Java.Param) (body : List Java.Stmt) : Java.SourceUnit where
  package := options.package
  libraryPackage := options.libraryPackage
  imports := importsOf uses
  className := program.name
  result := program.type
  method := options.entryPoint
  params := params
  body := body

/-- The text of a unit, laid out if the options say so. -/
def unitText (options : Options) (unit : Java.SourceUnit) : String :=
  if options.pretty then Java.layout unit.text else unit.text

/-- Compiles a program. The names among the options are checked first, then the program's. -/
def compile (options : Options) (program : Program) : Logged (Except Fault Compilation) :=
  match options.validate with
  | .error fault => return .error fault
  | .ok () => do
    if !Java.isName program.name then
      return .error ⟨.invalidName program.name, program.span.start⟩
    else
      match ← program.lower.run.run (.start : LowerState options.maxDepth) with
      | (.error fault, _) => return .error fault
      | (.ok (params, body), σ) =>
        let unit := sourceUnit options program σ.uses params body
        Logged.tell .info ("compiled `" ++ program.name ++ "` (" ++
          toString σ.scopes.declared.length ++ " declarations, " ++
          toString unit.imports.length ++ " library classes)")
        return .ok ⟨program.name, unitText options unit, σ.scopes.declared⟩

end PixelJava
