/-
Java code as text. An expression never shows an operator outside parentheses, so its text can
stand as an operand anywhere. Every statement ends its line; lines are not indented.
-/
import PixelJava.Java.Syntax

namespace PixelJava.Java

/-! ## Expressions -/

/-- Texts separated by a comma and a blank. -/
def commas (texts : List String) : String :=
  ", ".intercalate texts

/-- A call of a library method. -/
def Method.call (method : Method) (arguments : List String) : String :=
  method.owner.name ++ "." ++ method.name ++ "(" ++ commas arguments ++ ")"

/-- An integer; a negative one stands in parentheses, so that its sign cannot join another. -/
def integerText (n : Int) : String :=
  if n < 0 then "(" ++ toString n ++ ")" else toString n

/-- A unary operator on an operand. -/
def unaryText (op : UnaryOp) (operand : String) : String :=
  match op with
  | .width => "(" ++ operand ++ ".getWidth())"
  | .height => "(" ++ operand ++ ".getHeight())"
  | .plus | .minus | .bang => "(" ++ op.symbol ++ operand ++ ")"

namespace Operation

/-- A call that combines two operands with an operator of the image library. -/
def imageCall (method operator left right : String) : String :=
  Library.images.name ++ "." ++ method ++ "(" ++
    commas [Library.images.name ++ "." ++ operator, left, right] ++ ")"

/-- A pixel rebuilt from what `f` makes of each of its channels. -/
def perChannel (pixel : String) (f : String → String) : String :=
  Method.pack.call (Channel.all.map fun c => f ((Method.channel c).call [pixel]))

/-- A number kept in the range of a channel. -/
def clamped (value : String) : String :=
  "Math.max(0, Math.min(255, " ++ value ++ "))"

/-- An operation on two operands. -/
def text (how : Operation) (op : BinaryOp) (left right : String) : String :=
  match how with
  | .imageEquals => imageCall "binaryImageImageBooleanOp" "BoolOP.EQUALS" left right
  | .imageImage => imageCall "binaryImageImageOp" ("OP." ++ op.name) left right
  | .imageScale | .imageNumber => imageCall "binaryImageScalarOp" ("OP." ++ op.name) left right
  | .pixelDivide => perChannel left fun channel => channel ++ " / " ++ right
  | .pixelScale | .pixelNumber =>
    perChannel left fun channel => clamped (channel ++ " " ++ op.symbol ++ " " ++ right)
  | .imagePixel => imageCall "binaryImagePixelOp" ("OP." ++ op.name) left right
  | .pixelEquals => imageCall "binaryPackedPixelBooleanOp" "BoolOP.EQUALS" left right
  | .pixelPixel => imageCall "binaryPackedPixelPixelOp" ("OP." ++ op.name) left right
  | .stringEquals => left ++ ".equals(" ++ right ++ ")"
  | .power => "((int) Math.pow(" ++ left ++ ", " ++ right ++ "))"
  | .native => "(" ++ left ++ " " ++ op.symbol ++ " " ++ right ++ ")"

end Operation

def Expr.text : Expr → String
  | .name id => id
  | .literal text => text
  | .integer n => integerText n
  | .cond guard whenTrue whenFalse =>
    "(" ++ guard.text ++ " ? " ++ whenTrue.text ++ " : " ++ whenFalse.text ++ ")"
  | .unary op operand => unaryText op operand.text
  | .binary how op left right => how.text op left.text right.text
  | .call1 method a => method.call [a.text]
  | .call2 method a b => method.call [a.text, b.text]
  | .call3 method a b c => method.call [a.text, b.text, c.text]

/-! ## Statements -/

/-- Statements in braces. -/
def braced (body : String) : String :=
  "\x7b\n" ++ body ++ "\x7d"

mutual

def Stmt.text : Stmt → String
  | .nothing => ""
  | .declare type name none => type.java ++ " " ++ name ++ ";\n"
  | .declare type name (some value) => type.java ++ " " ++ name ++ " = " ++ value.text ++ ";\n"
  | .assign name value => name ++ " = " ++ value.text ++ ";\n"
  | .perform value => value.text ++ ";\n"
  | .setPixel image x y value =>
    Method.setPixel.call [image, x.text, y.text, value.text] ++ ";\n"
  | .ret value => "return " ++ value.text ++ ";\n"
  | .block body => braced (bodyText body) ++ "\n"
  | .choose branches => branchesText " else " branches ++ braced "" ++ "\n"
  | .loop branches guard =>
    "do " ++ braced (branchesText "\n" branches) ++ " while (" ++ guard.text ++ ");\n"

def bodyText : List Stmt → String
  | [] => ""
  | stmt :: rest => stmt.text ++ bodyText rest

/-- Branches, with `after` behind each of them. -/
def branchesText (after : String) : List Branch → String
  | [] => ""
  | .mk guard body :: rest =>
    "if (" ++ guard.text ++ ") " ++ braced (bodyText body) ++ after ++ branchesText after rest

end

/-! ## Units -/

def Param.text (p : Param) : String :=
  p.type.java ++ " " ++ p.name

def packageText : Option String → String
  | some package => "package " ++ package ++ ";\n\n"
  | none => ""

/-- The imports of a unit, with an empty line after them. -/
def importsText (home : String) (imports : List Library) : String :=
  String.join (imports.map fun lib => "import " ++ lib.path home ++ ";\n") ++
    if imports.isEmpty then "" else "\n"

/-- The parameters of a method, its body and the end of its last line. -/
def methodText (params : List Param) (body : List Stmt) : String :=
  "(" ++ (commas (params.map Param.text) ++ ") " ++ braced (bodyText body)) ++ "\n"

def SourceUnit.text (u : SourceUnit) : String :=
  packageText u.package ++ importsText u.libraryPackage u.imports ++
    "public class " ++ u.className ++ " \x7b\n" ++
    "public static " ++ u.result.java ++ " " ++ u.method ++ methodText u.params u.body ++ "\x7d\n"

end PixelJava.Java
