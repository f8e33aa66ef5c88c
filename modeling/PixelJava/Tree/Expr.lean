/-
Typed expressions. A selector picks a channel, a pixel, or a channel of a pixel out of the
expression before it; whether there are coordinates decides which of two constructors a selection
is, so that expressions are a plain inductive type.
-/
import PixelJava.Tree.Operator
import PixelJava.Tree.Span
import PixelJava.Tree.Ty

namespace PixelJava

/-- The channel part of a selection. -/
structure ChannelSelector where
  channel : Channel
  span : Span
  deriving DecidableEq

/-- An expression with the types that checking has found. Literals hold their text as written, a
string with its quotes. -/
inductive Expr where
  | ident (name : String) (type : Ty) (span : Span)
  | num (text : String) (span : Span)
  | str (text : String) (span : Span)
  | bool (value : Bool) (span : Span)
  | const (name : String) (type : Ty) (span : Span)
  | cond (guard whenTrue whenFalse : Expr) (type : Ty) (span : Span)
  | binary (left : Expr) (op : BinaryOp) (right : Expr) (type : Ty) (span : Span)
  | unary (op : UnaryOp) (operand : Expr) (type : Ty) (span : Span)
  /-- A selection without coordinates; without a channel it is just its primary. -/
  | select (primary : Expr) (channel : Option ChannelSelector) (type : Ty) (span : Span)
  /-- A selection of the pixel at `x`, `y`; `place` is the span of the coordinates. -/
  | selectAt (primary x y : Expr) (place : Span) (channel : Option ChannelSelector) (type : Ty)
      (span : Span)
  | pixel (red green blue : Expr) (span : Span)
  deriving DecidableEq

/-- The coordinates of a pixel. -/
structure PixelSelector where
  x : Expr
  y : Expr
  span : Span
  deriving DecidableEq

/-- A use of a variable. -/
structure Variable where
  name : String
  type : Ty
  span : Span
  deriving DecidableEq

namespace Expr

/-- The type of the expression's value. -/
def type : Expr → Ty
  | .num .. => .int
  | .str .. => .string
  | .bool .. => .boolean
  | .pixel .. => .pixel
  | .ident _ type _ | .const _ type _ | .cond _ _ _ type _ | .binary _ _ _ type _
  | .unary _ _ type _ | .select _ _ type _ | .selectAt _ _ _ _ _ type _ => type

def span : Expr → Span
  | .ident _ _ span | .num _ span | .str _ span | .bool _ span | .const _ _ span
  | .cond _ _ _ _ span | .binary _ _ _ _ span | .unary _ _ _ span | .select _ _ _ span
  | .selectAt _ _ _ _ _ _ span | .pixel _ _ _ span => span

/-- The name of the kind of expression. -/
def kind : Expr → String
  | .ident .. => "Ident"
  | .num .. => "NumLit"
  | .str .. => "StringLit"
  | .bool .. => "BooleanLit"
  | .const .. => "Const"
  | .cond .. => "Conditional"
  | .binary .. => "Binary"
  | .unary .. => "Unary"
  | .select .. => "Postfix"
  | .selectAt .. => "Postfix"
  | .pixel .. => "ExpandedPixel"

/-- The variable that the expression names, through selections that select nothing. -/
def named? : Expr → Option Variable
  | .ident name type span => some ⟨name, type, span⟩
  | .select primary none _ _ => primary.named?
  | _ => none

end Expr

end PixelJava
