/-
Lowering step by step. A session starts without an open scope; its steps act on the same state one
after the other, and a step that fails leaves the session usable.
-/
import PixelJava.Java.Printer
import PixelJava.Lowering.Stmt
import PixelJava.Options.Basic

namespace PixelJava

open LowerM

/-- A session between two steps. -/
structure Session where
  options : Options
  state : LowerState options.maxDepth

/-- What a session can be asked to do. -/
inductive Step where
  | enter
  | exit
  | declare (name : String) (type : Ty) (span : Span)
  | resolve (name : String) (span : Span)
  | javaName (name : String) (span : Span)
  | isBound (name : String)
  | javaType (type : Ty)
  | expr (e : Expr)
  /-- Lowers an expression that does not count as a level of its own. -/
  | node (e : Expr)
  | stmt (s : Stmt)
  | block (b : Block)
  /-- Lowers a block that does not count as a level of its own. -/
  | body (b : Block)
  /-- Finds the image that a binary operator writes into. -/
  | inPlace (left : Expr) (op : BinaryOp) (right : Expr)
  /-- Lowers an assignment to a part of the variable with this type and Java name. -/
  | assignPart (target : Target) (type : Ty) (javaName : String) (value : Expr)

/-- What a step answers. -/
inductive Answer where
  | done
  | text (s : String)
  | flag (b : Bool)
  | binding (b : Binding)
  | target (javaName : Option String)
  | type (t : Ty)
  | expr (e : Java.Expr)
  | stmt (s : Java.Stmt)
  | block (body : List Java.Stmt)
  | body (body : List Java.Stmt)

/-- Carries out a step. -/
def Step.run {limit : UInt64} : Step → LowerM limit Answer
  | .enter => do enterScope; return .done
  | .exit => do exitScope; return .done
  | .declare name type span => return .text (← LowerM.declare name type span)
  | .resolve name span => return .binding (← LowerM.resolve name span)
  | .javaName name span => return .text (← LowerM.resolve name span).javaName
  | .isBound name => return .flag ((← scopes).isBound name)
  | .javaType type => do
    useType type
    return .type type
  | .expr e => return .expr (← e.lower)
  | .node e => return .expr (← e.lowerNode)
  | .stmt s => return .stmt (← s.lower)
  | .block b => return .block (← b.lower)
  | .body b => return .body (← b.lowerHere)
  | .inPlace left op right =>
    return .target (← MonadExcept.ofExcept (inPlaceTarget (← scopes) left op right))
  | .assignPart target type name value =>
    return .stmt (← lowerPartAssignment target type name value)

namespace Session

def start (options : Options) : Session :=
  ⟨options, .start⟩

def scopes (s : Session) : Scopes :=
  s.state.scopes

/-- Carries out a step. -/
def step (s : Session) (what : Step) : Except Fault Answer × Session :=
  let (result, state) := what.run.outcome s.state
  (result, ⟨s.options, state⟩)

end Session

end PixelJava
