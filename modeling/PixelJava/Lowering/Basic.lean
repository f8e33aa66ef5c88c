/-
What lowering is: it may fail, it keeps a log, and it carries a state along, which it may change
even when it fails. The state holds the scopes, the nesting of blocks and expressions around the
current node, and the library classes in use. Nesting is bounded; there is no state beyond the
bound.
-/
import PixelJava.Java.Library
import PixelJava.Scope

namespace PixelJava

/-- How important a log entry is. -/
inductive LogLevel where
  | trace | debug | info
  deriving DecidableEq

structure LogEntry where
  level : LogLevel
  message : String
  deriving DecidableEq

/-- A value with the log kept on the way to it, oldest entry first. -/
structure Logged (α : Type) where
  value : α
  log : List LogEntry

namespace Logged

instance : Monad Logged where
  pure a := ⟨a, []⟩
  bind x f :=
    let y := f x.value
    ⟨y.value, x.log ++ y.log⟩

/-- Adds an entry to the log. -/
def tell (level : LogLevel) (message : String) : Logged Unit :=
  ⟨(), [⟨level, message⟩]⟩

end Logged

/-- What lowering carries along, where blocks and expressions may nest up to `limit`. -/
structure LowerState (limit : UInt64) where
  scopes : Scopes
  /-- The number of blocks and expressions around the current node. -/
  depth : Nat
  /-- The library classes used so far, as often as they were used. -/
  uses : List Java.Library
  depth_le : depth ≤ limit.toNat

namespace LowerState

variable {limit : UInt64}

def start : LowerState limit :=
  ⟨.empty, 0, [], Nat.zero_le _⟩

/-- The state one level deeper, if the limit allows. -/
def deeper? (σ : LowerState limit) : Option (LowerState limit) :=
  if h : σ.depth < limit.toNat then some { σ with depth := σ.depth + 1, depth_le := h } else none

/-- The state one level less deep. -/
def shallower (σ : LowerState limit) : LowerState limit :=
  { σ with depth := σ.depth - 1, depth_le := Nat.le_trans (Nat.sub_le ..) σ.depth_le }

/-- The state in which further classes are in use. -/
def withUses (σ : LowerState limit) (libs : List Java.Library) : LowerState limit :=
  { σ with uses := libs ++ σ.uses }

/-- The state with other scopes. -/
def withScopes (σ : LowerState limit) (scopes : Scopes) : LowerState limit :=
  { σ with scopes := scopes }

end LowerState

/-- A step of lowering. -/
abbrev LowerM (limit : UInt64) := ExceptT Fault (StateT (LowerState limit) Logged)

namespace LowerM

variable {limit : UInt64} {α : Type}

/-- What a step comes to, and the state after it. -/
def outcome (x : LowerM limit α) (σ : LowerState limit) : Except Fault α × LowerState limit :=
  (x.run.run σ).value

/-- Adds an entry to the log. -/
def note (level : LogLevel) (message : String) : LowerM limit Unit :=
  Logged.tell level message

def scopes : LowerM limit Scopes :=
  return (← get).scopes

/-- Notes that library classes are used. -/
def use (libs : List Java.Library) : LowerM limit Unit :=
  modify (·.withUses libs)

/-- Notes that a value of the type is declared. -/
def useType (type : Ty) : LowerM limit Unit :=
  use (if type = .image then [.raster] else [])

/-- Looks a name up in the open scopes. -/
def resolve (name : String) (span : Span) : LowerM limit Binding := do
  MonadExcept.ofExcept ((← scopes).resolve name span)

/-- Runs `body` one level deeper, if the limit allows, and comes back up whether it fails or not. -/
def nested (start : Position) (body : LowerM limit α) : LowerM limit α := do
  match (← get).deeper? with
  | none => throw ⟨.tooDeep limit, start⟩
  | some inner =>
    set inner
    let result ← observing body
    modify LowerState.shallower
    MonadExcept.ofExcept result

/-- Opens a scope. -/
def enterScope : LowerM limit Unit := do
  let scopes := (← scopes).enter
  modify (·.withScopes scopes)
  note .debug ("entered scope (depth " ++ toString scopes.depth ++ ")")

/-- Closes the innermost scope. -/
def exitScope : LowerM limit Unit := do
  let scopes := (← scopes).exit
  modify (·.withScopes scopes)
  note .debug ("exited scope (depth " ++ toString scopes.depth ++ ")")

/-- Runs `body` in a scope of its own, which is closed whether `body` fails or not. -/
def inScope (body : LowerM limit α) : LowerM limit α := do
  enterScope
  let result ← observing body
  exitScope
  MonadExcept.ofExcept result

/-- Declares a name and gives its Java name. -/
def declare (name : String) (type : Ty) (span : Span) : LowerM limit String := do
  let before ← scopes
  let (javaName, after) ← MonadExcept.ofExcept (before.declare name type span)
  if before.frames.isEmpty then
    note .debug ("entered scope (depth " ++ toString before.enter.depth ++ ")")
  if javaName ≠ name then
    note .debug ("renamed `" ++ name ++ "` to `" ++ javaName ++ "`")
  modify (·.withScopes after)
  return javaName

end LowerM

end PixelJava
