/-
The arguments of the command. Flags and the input file mix freely; a value stands in the next
argument or is attached with an equals sign, for the short flag also without one. A next argument
that looks like a flag is not a value, and everything after `--` is the input file.
-/
import PixelJava.Options.Basic
import PixelJava.Text.Scan

namespace PixelJava.Command

/-- The flags of the command. -/
inductive Flag where
  | output | config | package | noPackage | libraryPackage | entryPoint | maxDepth | noPretty
  | table | version | help
  deriving DecidableEq

namespace Flag

def all : List Flag :=
  [.output, .config, .package, .noPackage, .libraryPackage, .entryPoint, .maxDepth, .noPretty,
    .table, .version, .help]

def name : Flag → String
  | .output => "output"
  | .config => "config"
  | .package => "package"
  | .noPackage => "no-package"
  | .libraryPackage => "runtime-package"
  | .entryPoint => "entry-point"
  | .maxDepth => "max-depth"
  | .noPretty => "no-pretty"
  | .table => "emit-declarations"
  | .version => "version"
  | .help => "help"

def takesValue : Flag → Bool
  | .noPackage | .noPretty | .version | .help => false
  | _ => true

def ofName? (name : String) : Option Flag :=
  all.find? (·.name == name)

def ofLetter? : Char → Option Flag
  | 'o' => some .output
  | 'V' => some .version
  | 'h' => some .help
  | _ => none

end Flag

/-- Why arguments make no sense. -/
inductive Misuse where
  | unknownFlag (text : String)
  | missingValue (flag : Flag)
  | needlessValue (flag : Flag)
  | invalidValue (flag : Flag) (value : String)
  | emptyInput
  | repeated (flag : Flag)
  | secondInput (text : String)
  | conflict (one other : Flag)
  deriving DecidableEq

namespace Misuse

def message : Misuse → String
  | .unknownFlag text => "unexpected argument '" ++ text ++ "'"
  | .missingValue flag => "a value is required for '--" ++ flag.name ++ "'"
  | .needlessValue flag => "'--" ++ flag.name ++ "' takes no value"
  | .invalidValue flag value => "invalid value '" ++ value ++ "' for '--" ++ flag.name ++ "'"
  | .emptyInput => "the input file has no name"
  | .repeated flag => "'--" ++ flag.name ++ "' cannot be used multiple times"
  | .secondInput text => "unexpected argument '" ++ text ++ "'"
  | .conflict one other => "'--" ++ one.name ++ "' cannot be used with '--" ++ other.name ++ "'"

end Misuse

/-- What the arguments of a compilation say. -/
structure Arguments where
  input : Option String
  output : Option String
  config : Option String
  package : Option String
  noPackage : Bool
  libraryPackage : Option String
  entryPoint : Option String
  maxDepth : Option UInt64
  noPretty : Bool
  /-- The file for the declaration table. -/
  table : Option String
  deriving DecidableEq

/-- What the command is asked to do. -/
inductive Request where
  | compile (arguments : Arguments)
  | version
  | help
  deriving DecidableEq

namespace Arguments

def empty : Arguments :=
  ⟨none, none, none, none, false, none, none, none, false, none⟩

/-- The number of a nesting bound: digits, with a plus sign or without. -/
def depthOfText? (text : String) : Option UInt64 :=
  let digits :=
    match text.toList with
    | '+' :: rest => rest
    | cs => cs
  let n := digits.foldl (fun n c => n * 10 + (c.toNat - '0'.toNat)) 0
  if !digits.isEmpty && digits.all Text.isDigit && n < UInt64.size then some n.toUInt64 else none

/-- The name of a file, which must not be empty. -/
def pathOfText? (text : String) : Option String :=
  if text.isEmpty then none else some text

/-- Gives a flag's field its value, once. -/
def fill {α : Type} (flag : Flag) (old : Option α) (text : String) (value : Option α) :
    Except Misuse (Option α) :=
  match old, value with
  | some _, _ => .error (.repeated flag)
  | none, none => .error (.invalidValue flag text)
  | none, some value => .ok (some value)

/-- Takes a flag with its value. -/
def setValue (a : Arguments) (flag : Flag) (text : String) : Except Misuse Arguments :=
  match flag with
  | .output => return { a with output := ← fill flag a.output text (pathOfText? text) }
  | .config => return { a with config := ← fill flag a.config text (pathOfText? text) }
  | .package => return { a with package := ← fill flag a.package text (some text) }
  | .libraryPackage =>
    return { a with libraryPackage := ← fill flag a.libraryPackage text (some text) }
  | .entryPoint => return { a with entryPoint := ← fill flag a.entryPoint text (some text) }
  | .maxDepth => return { a with maxDepth := ← fill flag a.maxDepth text (depthOfText? text) }
  | .table => return { a with table := ← fill flag a.table text (pathOfText? text) }
  | .noPackage | .noPretty | .version | .help => .error (.needlessValue flag)

/-- Takes a flag that has no value. -/
def setSwitch (a : Arguments) (flag : Flag) : Except Misuse Arguments :=
  match flag with
  | .noPackage =>
    if a.noPackage then .error (.repeated flag) else .ok { a with noPackage := true }
  | .noPretty => if a.noPretty then .error (.repeated flag) else .ok { a with noPretty := true }
  | _ => .error (.missingValue flag)

/-- Takes the input file. -/
def setInput (a : Arguments) (text : String) : Except Misuse Arguments :=
  match a.input with
  | some _ => .error (.secondInput text)
  | none =>
    match pathOfText? text with
    | some path => .ok { a with input := some path }
    | none => .error .emptyInput

/-- Checks what can only be told at the end. -/
def finish (a : Arguments) : Except Misuse Request :=
  if a.package.isSome && a.noPackage then .error (.conflict .package .noPackage)
  else .ok (.compile a)

end Arguments

/-- An argument by its form. -/
inductive Word where
  /-- The end of the flags. -/
  | separator
  /-- A flag with the value attached to it. -/
  | flag (flag : Flag) (value : Option String)
  | unknown (text : String)
  | plain (text : String)
  deriving DecidableEq

namespace Word

/-- A long flag, given without its two dashes. -/
def ofLong (text : List Char) : Word :=
  let (name, rest) := text.span (· ≠ '=')
  let value :=
    match rest with
    | '=' :: value => some (String.ofList value)
    | _ => none
  match Flag.ofName? (String.ofList name) with
  | some known => .flag known value
  | none => .unknown ("--" ++ String.ofList name)

/-- A short flag with what is written right after it. -/
def ofShort (letter : Char) (rest : List Char) : Word :=
  match Flag.ofLetter? letter with
  | none => .unknown (String.ofList ['-', letter])
  | some known =>
    if known.takesValue then
      match rest with
      | [] => .flag known none
      | '=' :: value => .flag known (some (String.ofList value))
      | value => .flag known (some (String.ofList value))
    else .flag known none

def ofText (text : String) : Word :=
  match text.toList with
  | ['-', '-'] => .separator
  | '-' :: '-' :: rest => ofLong rest
  | '-' :: letter :: rest => ofShort letter rest
  | _ => .plain text

end Word

namespace Request

/-- Takes the arguments after `--`. -/
def readInputs (seen : Arguments) : List String → Except Misuse Request
  | [] => seen.finish
  | text :: rest => do readInputs (← seen.setInput text) rest

/-- Takes arguments one after the other; `waiting` is a flag whose value comes next. -/
def read (seen : Arguments) (waiting : Option Flag) : List String → Except Misuse Request
  | [] =>
    match waiting with
    | some flag => .error (.missingValue flag)
    | none => seen.finish
  | text :: rest =>
    match waiting, Word.ofText text with
    | some flag, .plain value => do read (← seen.setValue flag value) none rest
    | some flag, _ => .error (.missingValue flag)
    | none, .separator => readInputs seen rest
    | none, .plain text => do read (← seen.setInput text) none rest
    | none, .unknown text => .error (.unknownFlag text)
    | none, .flag flag (some value) => do read (← seen.setValue flag value) none rest
    | none, .flag .version none => .ok .version
    | none, .flag .help none => .ok .help
    | none, .flag flag none => do
      if flag.takesValue then read seen (some flag) rest
      else read (← seen.setSwitch flag) none rest

/-- What a list of arguments asks for. -/
def ofArguments (arguments : List String) : Except Misuse Request :=
  read .empty none arguments

end Request

end PixelJava.Command
