/-
The command. It reads options and a program, compiles, and only then writes; the first step that
fails ends it. What it reads from and writes to is a parameter, so that it can run on the real
files as well as on a model of them.
-/
import PixelJava.Command.Arguments
import PixelJava.Json.Printer
import PixelJava.Lowering.Program
import PixelJava.Options.Toml
import PixelJava.Scope.Encode
import PixelJava.Tree.Read

namespace PixelJava.Command

/-- What the command can do to its surroundings. -/
structure Access (m : Type → Type) where
  /-- The text of a file, if it can be read as text. -/
  readFile : String → m (Option String)
  /-- The text of the standard input, if it can be read as text. -/
  readInput : m (Option String)
  /-- Writes a file and says whether that worked. -/
  writeFile : String → String → m Bool
  /-- Writes to the standard output. -/
  print : String → m Unit

/-- Why a compilation did not come to its end. -/
inductive Failure where
  | unreadableConfig (path : String)
  | invalidConfig (path : String)
  | unreadableFile (path : String)
  | unreadableInput
  | notProgram (file : String)
  | fault (fault : Fault) (file : String)
  | unwritableFile (path : String)
  deriving DecidableEq

namespace Failure

def message : Failure → String
  | .unreadableConfig path => "Error: failed to read config " ++ path
  | .invalidConfig path => "Error: invalid config " ++ path
  | .unreadableFile path => "Error: failed to read " ++ path
  | .unreadableInput => "Error: failed to read stdin"
  | .notProgram file => "Error: " ++ file ++ " is not a typed program"
  | .fault found file => found.render file ++ "\n"
  | .unwritableFile path => "Error: failed to write " ++ path

end Failure

/-- How a run of the command ended. -/
inductive Outcome where
  | done
  | failed (failure : Failure)
  | misused (misuse : Misuse)
  deriving DecidableEq

namespace Outcome

def status : Outcome → UInt32
  | .done => 0
  | .failed _ => 1
  | .misused _ => 2

def message : Outcome → String
  | .done => ""
  | .failed failure => failure.message
  | .misused misuse => "error: " ++ misuse.message ++ "\n"

end Outcome

def versionText : String :=
  "pixelc 0.1.0\n"

def helpText : String :=
  "Lower typed image programs to Java source\n\n" ++
  "Usage: pixelc [OPTIONS] [INPUT]\n\n" ++
  "Arguments:\n" ++
  "  [INPUT]  Typed program as JSON, stdin when omitted\n\n" ++
  "Options:\n" ++
  "  -o, --output <OUTPUT>                        Output file, stdout when omitted\n" ++
  "      --config <CONFIG>                        TOML file with compiler options\n" ++
  "      --package <PACKAGE>                      Package clause of the emitted unit\n" ++
  "      --no-package                             Emit the unit into the default package\n" ++
  "      --runtime-package <RUNTIME_PACKAGE>      Package the runtime classes are imported from\n" ++
  "      --entry-point <ENTRY_POINT>              Name of the static entry method\n" ++
  "      --max-depth <MAX_DEPTH>                  Bound on block and expression nesting\n" ++
  "      --no-pretty                              Skip re-indentation\n" ++
  "      --emit-declarations <EMIT_DECLARATIONS>  Write the declaration table as JSON to this file\n" ++
  "  -h, --help                                   Print help\n" ++
  "  -V, --version                                Print version\n"

/-- The options with what the flags say about them. -/
def Arguments.override (a : Arguments) (o : Options) : Options where
  package := if a.noPackage then none else a.package <|> o.package
  libraryPackage := a.libraryPackage.getD o.libraryPackage
  entryPoint := a.entryPoint.getD o.entryPoint
  maxDepth := a.maxDepth.getD o.maxDepth
  pretty := o.pretty && !a.noPretty

/-- The name of the standard input in messages. -/
def stdinName : String :=
  "stdin"

variable {m : Type → Type} [Monad m]

/-- Takes the result of a step, or fails. -/
def orFail {α : Type} (failure : Failure) : Option α → ExceptT Failure m α
  | some a => return a
  | none => throw failure

/-- The options of the config file and the flags. -/
def readOptions (access : Access m) (a : Arguments) : ExceptT Failure m Options :=
  match a.config with
  | none => return a.override .default
  | some path => do
    let text ← orFail (.unreadableConfig path) (← access.readFile path)
    return a.override (← orFail (.invalidConfig path) (Options.ofToml? text))

/-- The name and the text of the input. -/
def readProgramText (access : Access m) (a : Arguments) : ExceptT Failure m (String × String) :=
  match a.input with
  | some path => return (path, ← orFail (.unreadableFile path) (← access.readFile path))
  | none => return (stdinName, ← orFail .unreadableInput (← access.readInput))

/-- Writes a file, or fails. -/
def save (access : Access m) (path text : String) : ExceptT Failure m Unit := do
  if ← access.writeFile path text then return () else throw (.unwritableFile path)

/-- Writes what a compilation gives. -/
def deliver (access : Access m) (a : Arguments) (c : Compilation) : ExceptT Failure m Unit := do
  match a.output with
  | some path => save access path c.source
  | none => access.print c.source
  match a.table with
  | some path => save access path (tableToJson c.declared).pretty
  | none => return ()

/-- Compiles as the arguments say. -/
def compileFiles (access : Access m) (a : Arguments) : ExceptT Failure m Unit := do
  let options ← readOptions access a
  let (file, text) ← readProgramText access a
  let program ← orFail (.notProgram file) (Program.ofText? text)
  match (compile options program).value with
  | .error fault => throw (.fault fault file)
  | .ok compilation => deliver access a compilation

/-- Runs the command. -/
def run (access : Access m) (arguments : List String) : m Outcome := do
  match Request.ofArguments arguments with
  | .error misuse => return .misused misuse
  | .ok .version =>
    access.print versionText
    return .done
  | .ok .help =>
    access.print helpText
    return .done
  | .ok (.compile a) =>
    match ← compileFiles access a with
    | .ok () => return .done
    | .error failure => return .failed failure

end PixelJava.Command
