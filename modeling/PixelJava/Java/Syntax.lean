/-
Java code of the forms that lowering emits: expressions, statements, and a source unit with one
class and one static method.
-/
import PixelJava.Java.Operation

namespace PixelJava.Java

inductive Expr where
  /-- A variable. -/
  | name (id : String)
  /-- A literal as written. -/
  | literal (text : String)
  | integer (n : Int)
  | cond (guard whenTrue whenFalse : Expr)
  | unary (op : UnaryOp) (operand : Expr)
  | binary (how : Operation) (op : BinaryOp) (left right : Expr)
  | call1 (method : Method) (a : Expr)
  | call2 (method : Method) (a b : Expr)
  | call3 (method : Method) (a b c : Expr)
  deriving DecidableEq

mutual

inductive Stmt where
  | nothing
  /-- A local variable. -/
  | declare (type : Ty) (name : String) (value : Option Expr)
  | assign (name : String) (value : Expr)
  /-- An expression carried out for its effect. -/
  | perform (value : Expr)
  /-- A change of one pixel of an image variable. -/
  | setPixel (image : String) (x y value : Expr)
  | ret (value : Expr)
  | block (body : List Stmt)
  /-- Runs the first branch whose guard holds. -/
  | choose (branches : List Branch)
  /-- Runs every branch whose guard holds, again as long as the last guard holds. -/
  | loop (branches : List Branch) (guard : Expr)

/-- A block behind a guard. -/
inductive Branch where
  | mk (guard : Expr) (body : List Stmt)

end

/-- A parameter of the method. -/
structure Param where
  type : Ty
  name : String
  deriving DecidableEq

/-- A source file with one public class, which has one static method. -/
structure SourceUnit where
  package : Option String
  /-- The package that library classes are imported from. -/
  libraryPackage : String
  imports : List Library
  className : String
  result : Ty
  method : String
  params : List Param
  body : List Stmt

end PixelJava.Java
