/-
Why a program cannot be lowered. A fault is a cause with the position it is reported at; its
message, its tip and its rendering are fixed here.
-/
import PixelJava.Text.Quoted
import PixelJava.Tree.Operator
import PixelJava.Tree.Span
import PixelJava.Tree.Ty

namespace PixelJava

/-- The cause of a fault. -/
inductive Cause where
  | unsupportedBinary (op : BinaryOp) (left right : Ty)
  | unsupportedUnary (op : UnaryOp) (operand : Ty)
  /-- What `detail` describes cannot be selected from a value of the type. -/
  | unsupportedSelector (primary : Ty) (detail : String)
  /-- The named variable cannot be assigned through what `detail` describes. -/
  | unsupportedTarget (name detail : String)
  | unresolved (name : String)
  | unknownConstant (name : String)
  | tooDeep (limit : UInt64)
  | invalidName (name : String)
  deriving DecidableEq

namespace Cause

def name : Cause → String
  | .unsupportedBinary .. => "UnsupportedBinaryOperation"
  | .unsupportedUnary .. => "UnsupportedUnaryOperation"
  | .unsupportedSelector .. => "UnsupportedSelector"
  | .unsupportedTarget .. => "UnsupportedLValue"
  | .unresolved .. => "UnresolvedReference"
  | .unknownConstant .. => "UnknownConstant"
  | .tooDeep .. => "NestingTooDeep"
  | .invalidName .. => "InvalidIdentifier"

/-- What went wrong, with names in quotes. -/
def message : Cause → String
  | .unsupportedBinary op left right =>
    "unsupported binary operation: " ++ left.name ++ " " ++ op.symbol ++ " " ++ right.name
  | .unsupportedUnary op operand =>
    "unsupported unary operation: " ++ op.symbol ++ " " ++ operand.name
  | .unsupportedSelector primary detail =>
    "unsupported selector on " ++ primary.name ++ ": " ++ detail
  | .unsupportedTarget name detail =>
    "unsupported assignment target " ++ Text.quote name ++ ": " ++ detail
  | .unresolved name => "unresolved reference " ++ Text.quote name
  | .unknownConstant name => "unknown constant " ++ Text.quote name
  | .tooDeep limit => "nesting exceeds the limit of " ++ toString limit.toNat
  | .invalidName name => "invalid identifier " ++ Text.quote name

/-- A remark on how to mend the program, with names as they are. -/
def tip? : Cause → Option String
  | .unsupportedBinary op left right =>
    some ("No lowering for `" ++ op.symbol ++ "` with operands `" ++ left.name ++ "` and `" ++
      right.name ++ "`")
  | .unsupportedUnary op operand =>
    some ("No lowering for unary `" ++ op.symbol ++ "` on `" ++ operand.name ++ "`")
  | .unsupportedSelector primary detail =>
    some ("Cannot select " ++ detail ++ " from `" ++ primary.name ++ "`")
  | .unsupportedTarget name detail =>
    some ("Cannot assign to `" ++ name ++ "` through " ++ detail)
  | .unresolved name => some ("Name `" ++ name ++ "` has no enclosing declaration")
  | .unknownConstant name => some ("`" ++ name ++ "` is not a predefined constant")
  | .tooDeep _ => none
  | .invalidName name => some ("`" ++ name ++ "` is not usable as a host identifier")

end Cause

/-- A cause with the place where it shows. -/
structure Fault where
  cause : Cause
  position : Position
  deriving DecidableEq

namespace Fault

def message (fault : Fault) : String :=
  fault.cause.message ++ " (at " ++ fault.position.text ++ ")"

/-- The two lines shown for a fault in `file`, without a final line feed. -/
def render (fault : Fault) (file : String) : String :=
  let tip :=
    match fault.cause.tip? with
    | some tip => " (" ++ tip ++ ")"
    | none => ""
  "Error: " ++ fault.cause.name ++ tip ++ "\n-> " ++ file ++ ":" ++ fault.position.text

end Fault

end PixelJava
