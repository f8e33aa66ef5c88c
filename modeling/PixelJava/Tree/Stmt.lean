/-
Statements and programs. A block opens a scope; the branches of a choice or a loop are blocks
behind guards.
-/
import PixelJava.Tree.Expr

namespace PixelJava

/-- The size that a declaration gives an image. -/
structure Dimension where
  width : Expr
  height : Expr
  span : Span
  deriving DecidableEq

/-- What a parameter or a declaration introduces. -/
structure NameDef where
  name : String
  type : Ty
  dimension : Option Dimension
  span : Span
  deriving DecidableEq

/-- The left side of an assignment: a variable, or a part of one. -/
structure Target where
  name : String
  pixel : Option PixelSelector
  channel : Option ChannelSelector
  type : Ty
  span : Span
  deriving DecidableEq

mutual

inductive Stmt where
  | declare (defined : NameDef) (initializer : Option Expr) (span : Span)
  | assign (target : Target) (value : Expr) (span : Span)
  | write (value : Expr) (span : Span)
  /-- Runs the branches over and over. -/
  | loop (branches : List Branch) (span : Span)
  /-- Runs the first branch whose guard holds. -/
  | choose (branches : List Branch) (span : Span)
  | ret (value : Expr) (span : Span)
  | block (block : Block)

/-- Statements with a scope of their own. -/
inductive Block where
  | mk (body : List Stmt) (span : Span)

/-- A block behind a guard. -/
inductive Branch where
  | mk (guard : Expr) (block : Block) (span : Span)

end

namespace Block

def body : Block → List Stmt
  | .mk body _ => body

def span : Block → Span
  | .mk _ span => span

end Block

namespace Branch

def guard : Branch → Expr
  | .mk guard _ _ => guard

def block : Branch → Block
  | .mk _ block _ => block

def span : Branch → Span
  | .mk _ _ span => span

end Branch

/-- A program: one named routine. -/
structure Program where
  name : String
  type : Ty
  params : List NameDef
  block : Block
  span : Span

end PixelJava
