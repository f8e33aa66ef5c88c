/-
Scopes: the stack of open frames, the table of all declarations made so far, and a counter per
name for renaming. A name declared while it is bound anywhere gets a fresh Java name, so all names
that are visible at once stay apart in Java, which knows no shadowing of locals. A Java name made
here holds a dollar sign, which no source name does.
-/
import PixelJava.Fault
import PixelJava.Java.Name

namespace PixelJava

/-- What a name stands for. -/
structure Binding where
  javaName : String
  type : Ty
  /-- The index of the declaration in the table. -/
  decl : Nat
  deriving DecidableEq

/-- An entry of the declaration table. -/
structure Declared where
  sourceName : String
  javaName : String
  type : Ty
  span : Span
  /-- The number of frames open at the declaration. -/
  depth : Nat
  deriving DecidableEq

/-- The names bound in one scope, latest first; a later binding of a name hides an earlier one. -/
abbrev Frame := List (String × Binding)

structure Scopes where
  /-- The open frames, innermost first. -/
  frames : List Frame
  /-- How often names have been declared while they were bound, modulo 2^32; the first entry of a
  name counts. -/
  counters : List (String × UInt32)
  /-- All declarations, oldest first; they stay when their frames close. -/
  declared : List Declared
  deriving DecidableEq

namespace Scopes

def empty : Scopes :=
  ⟨[], [], []⟩

/-- The number of open frames. -/
def depth (s : Scopes) : Nat :=
  s.frames.length

/-- Opens a frame. -/
def enter (s : Scopes) : Scopes :=
  { s with frames := [] :: s.frames }

/-- Closes the innermost frame; without an open frame there is nothing to do. -/
def exit (s : Scopes) : Scopes :=
  { s with frames := s.frames.tail }

/-- What a name stands for in the innermost frame that binds it. -/
def find? (s : Scopes) (name : String) : Option Binding :=
  s.frames.findSome? (·.lookup name)

def isBound (s : Scopes) (name : String) : Bool :=
  (s.find? name).isSome

/-- How often `name` has been declared while it was bound, modulo 2^32. -/
def counter (s : Scopes) (name : String) : UInt32 :=
  (s.counters.lookup name).getD 0

/-- A Java name for an unbound source name. -/
def plainName (name : String) : String :=
  if Java.isReserved name then name ++ "$" else name

/-- The Java name with number `n` for a source name that is bound. -/
def freshName (name : String) (n : Nat) : String :=
  name ++ "$" ++ toString n

/-- Binds `name` to `javaName` in the innermost frame and puts it on the table. -/
def bind (s : Scopes) (name javaName : String) (type : Ty) (span : Span) : Scopes :=
  let binding : Binding := ⟨javaName, type, s.declared.length⟩
  { s with
    declared := s.declared ++ [⟨name, javaName, type, span, s.depth⟩]
    frames :=
      match s.frames with
      | [] => []
      | frame :: rest => ((name, binding) :: frame) :: rest }

/-- The scopes with at least one open frame. -/
def opened (s : Scopes) : Scopes :=
  if s.frames.isEmpty then s.enter else s

/-- The Java name that a declaration of `name` gets. -/
def nextName (s : Scopes) (name : String) : String :=
  if s.isBound name then freshName name (s.counter name + 1).toNat else plainName name

/-- Counts a declaration of `name`, if the name is bound. The largest number is followed by zero. -/
def counted (s : Scopes) (name : String) : Scopes :=
  if s.isBound name then { s with counters := (name, s.counter name + 1) :: s.counters } else s

/-- Puts a name into the innermost frame, which is opened if there is none, and gives the Java name
it gets. -/
def add (s : Scopes) (name : String) (type : Ty) (span : Span) : String × Scopes :=
  let s := s.opened
  let javaName := s.nextName name
  (javaName, (s.counted name).bind name javaName type span)

/-- Declares a name, which has to be a source name, and gives the Java name it gets. -/
def declare (s : Scopes) (name : String) (type : Ty) (span : Span) :
    Except Fault (String × Scopes) :=
  if Java.isSourceName name then .ok (s.add name type span)
  else .error ⟨.invalidName name, span.start⟩

/-- What a name stands for; a name that is not bound is a fault at the start of `span`. -/
def resolve (s : Scopes) (name : String) (span : Span) : Except Fault Binding :=
  match s.find? name with
  | some binding => .ok binding
  | none => .error ⟨.unresolved name, span.start⟩

end Scopes

end PixelJava
