/-
Java code in pieces: its text, cut up so that every use and every declaration of a variable stands
alone, and so do the marks that open and close a scope. The pieces of a unit, put together again,
are its text.
-/
import PixelJava.Java.Printer

namespace PixelJava.Java

inductive Piece where
  | text (s : String)
  /-- A variable is used. -/
  | use (id : String)
  /-- A parameter or a local variable is declared. -/
  | declare (id : String)
  /-- A scope opens. -/
  | opens (mark : String)
  /-- The innermost scope closes. -/
  | closes (mark : String)
  deriving DecidableEq

abbrev Code := List Piece

def Piece.shown : Piece → String
  | .text s | .use s | .declare s | .opens s | .closes s => s

namespace Code

/-- The text that the pieces make up. -/
def shown (code : Code) : String :=
  String.join (code.map Piece.shown)

@[simp] theorem shown_append (code code' : Code) :
    shown (code ++ code') = shown code ++ shown code' := by
  simp [shown]

@[simp] theorem shown_nil : shown [] = "" := rfl

@[simp] theorem shown_singleton (p : Piece) : shown [p] = p.shown := by
  simp [shown]

end Code

/-! ## Expressions -/

/-- Text without variables. -/
def plain (text : String) : Code :=
  [.text text]

@[simp] theorem shown_plain (text : String) : (plain text).shown = text :=
  Code.shown_singleton _

def separated : List Code → Code
  | [] => []
  | [code] => code
  | code :: next :: rest => code ++ plain ", " ++ separated (next :: rest)

def Method.code (method : Method) (arguments : List Code) : Code :=
  plain (method.owner.name ++ "." ++ method.name ++ "(") ++ separated arguments ++ plain ")"

def unaryCode (op : UnaryOp) (operand : Code) : Code :=
  match op with
  | .width => plain "(" ++ operand ++ plain ".getWidth())"
  | .height => plain "(" ++ operand ++ plain ".getHeight())"
  | .plus | .minus | .bang => plain ("(" ++ op.symbol) ++ operand ++ plain ")"

namespace Operation

def imageCode (method operator : String) (left right : Code) : Code :=
  plain (Library.images.name ++ "." ++ method ++ "(") ++
    separated [plain (Library.images.name ++ "." ++ operator), left, right] ++ plain ")"

def perChannelCode (pixel : Code) (f : Code → Code) : Code :=
  Method.pack.code (Channel.all.map fun c => f ((Method.channel c).code [pixel]))

def clampedCode (value : Code) : Code :=
  plain "Math.max(0, Math.min(255, " ++ value ++ plain "))"

def code (how : Operation) (op : BinaryOp) (left right : Code) : Code :=
  match how with
  | .imageEquals => imageCode "binaryImageImageBooleanOp" "BoolOP.EQUALS" left right
  | .imageImage => imageCode "binaryImageImageOp" ("OP." ++ op.name) left right
  | .imageScale | .imageNumber => imageCode "binaryImageScalarOp" ("OP." ++ op.name) left right
  | .pixelDivide => perChannelCode left fun channel => channel ++ plain " / " ++ right
  | .pixelScale | .pixelNumber =>
    perChannelCode left fun channel =>
      clampedCode (channel ++ plain " " ++ plain op.symbol ++ plain " " ++ right)
  | .imagePixel => imageCode "binaryImagePixelOp" ("OP." ++ op.name) left right
  | .pixelEquals => imageCode "binaryPackedPixelBooleanOp" "BoolOP.EQUALS" left right
  | .pixelPixel => imageCode "binaryPackedPixelPixelOp" ("OP." ++ op.name) left right
  | .stringEquals => left ++ plain ".equals(" ++ right ++ plain ")"
  | .power => plain "((int) Math.pow(" ++ left ++ plain ", " ++ right ++ plain "))"
  | .native => plain "(" ++ left ++ plain " " ++ plain op.symbol ++ plain " " ++ right ++ plain ")"

end Operation

def Expr.code : Expr → Code
  | .name id => [.use id]
  | .literal text => plain text
  | .integer n => plain (integerText n)
  | .cond guard whenTrue whenFalse =>
    plain "(" ++ guard.code ++ plain " ? " ++ whenTrue.code ++ plain " : " ++ whenFalse.code ++
      plain ")"
  | .unary op operand => unaryCode op operand.code
  | .binary how op left right => how.code op left.code right.code
  | .call1 method a => method.code [a.code]
  | .call2 method a b => method.code [a.code, b.code]
  | .call3 method a b c => method.code [a.code, b.code, c.code]

/-! ## Statements -/

/-- A scope with its marks. -/
def enclosed (opening closing : String) (code : Code) : Code :=
  [.opens opening] ++ code ++ [.closes closing]

def bracedCode (body : Code) : Code :=
  enclosed "\x7b\n" "\x7d" body

mutual

def Stmt.code : Stmt → Code
  | .nothing => []
  | .declare type name none => plain (type.java ++ " ") ++ [.declare name] ++ plain ";\n"
  | .declare type name (some value) =>
    plain (type.java ++ " ") ++ [.declare name] ++ plain " = " ++ value.code ++ plain ";\n"
  | .assign name value => [.use name] ++ plain " = " ++ value.code ++ plain ";\n"
  | .perform value => value.code ++ plain ";\n"
  | .setPixel image x y value =>
    Method.setPixel.code [[.use image], x.code, y.code, value.code] ++ plain ";\n"
  | .ret value => plain "return " ++ value.code ++ plain ";\n"
  | .block body => bracedCode (bodyCode body) ++ plain "\n"
  | .choose branches => branchesCode " else " branches ++ bracedCode [] ++ plain "\n"
  | .loop branches guard =>
    plain "do " ++ bracedCode (branchesCode "\n" branches) ++ plain " while (" ++ guard.code ++
      plain ");\n"

def bodyCode : List Stmt → Code
  | [] => []
  | stmt :: rest => stmt.code ++ bodyCode rest

def branchesCode (after : String) : List Branch → Code
  | [] => []
  | .mk guard body :: rest =>
    plain "if (" ++ guard.code ++ plain ") " ++ bracedCode (bodyCode body) ++ plain after ++
      branchesCode after rest

end

/-! ## Units -/

def Param.code (p : Param) : Code :=
  plain (p.type.java ++ " ") ++ [.declare p.name]

/-- The scope of the parameters ends with the last line of the method. -/
def methodCode (params : List Param) (body : List Stmt) : Code :=
  enclosed "(" "\n"
    (separated (params.map Param.code) ++ plain ") " ++ bracedCode (bodyCode body))

def SourceUnit.code (u : SourceUnit) : Code :=
  plain (packageText u.package ++ importsText u.libraryPackage u.imports ++
      "public class " ++ u.className ++ " \x7b\n" ++
      "public static " ++ u.result.java ++ " " ++ u.method) ++
    methodCode u.params u.body ++ plain "\x7d\n"

/-! ## The text of the pieces -/

/-- Code with commas between its parts shows their texts with commas between them. -/
theorem shown_separated : ∀ codes : List Code,
    (separated codes).shown = commas (codes.map Code.shown)
  | [] => rfl
  | [code] => String.intercalate_singleton.symm
  | code :: next :: rest => by
    rw [separated, Code.shown_append, Code.shown_append, shown_plain, shown_separated (next :: rest)]
    exact String.intercalate_cons_cons.symm

@[simp] theorem Method.shown_code (method : Method) (arguments : List Code) :
    (method.code arguments).shown = method.call (arguments.map Code.shown) := by
  simp only [Method.code, Method.call, Code.shown_append, shown_plain, shown_separated]

theorem shown_unaryCode (op : UnaryOp) (operand : Code) :
    (unaryCode op operand).shown = unaryText op operand.shown := by
  cases op <;> simp only [unaryCode, unaryText, Code.shown_append, shown_plain]

namespace Operation

theorem shown_imageCode (method operator : String) (left right : Code) :
    (imageCode method operator left right).shown =
      imageCall method operator left.shown right.shown := by
  simp only [imageCode, imageCall, Code.shown_append, shown_plain, shown_separated, List.map_cons,
    List.map_nil]

/-- What is done to each channel of a pixel shows alike for each. -/
theorem shown_perChannelCode (pixel : Code) {f : Code → Code} {g : String → String}
    (h : ∀ c, (f c).shown = g c.shown) :
    (perChannelCode pixel f).shown = perChannel pixel.shown g := by
  simp only [perChannelCode, perChannel, Method.shown_code, List.map_map, Function.comp_def, h,
    List.map_cons, List.map_nil]

theorem shown_clampedCode (value : Code) : (clampedCode value).shown = clamped value.shown := by
  unfold clampedCode clamped
  simp only [Code.shown_append, shown_plain]

/-- The pieces of an operation make up its text. -/
theorem shown_code (how : Operation) (op : BinaryOp) (left right : Code) :
    (how.code op left right).shown = how.text op left.shown right.shown := by
  unfold code text
  cases how with
  | imageEquals | imageImage | imageScale | imageNumber | imagePixel | pixelEquals | pixelPixel =>
    exact shown_imageCode ..
  | pixelDivide =>
    dsimp only
    refine shown_perChannelCode left fun c => ?_
    simp only [Code.shown_append, shown_plain]
  | pixelScale | pixelNumber =>
    dsimp only
    refine shown_perChannelCode left fun c => ?_
    simp only [shown_clampedCode, Code.shown_append, shown_plain]
  | stringEquals | power | native => simp only [Code.shown_append, shown_plain]

end Operation

/-- The pieces of an expression make up its text. -/
theorem Expr.shown_code : ∀ e : Expr, e.code.shown = e.text
  | .name id => Code.shown_singleton _
  | .literal text => shown_plain text
  | .integer n => shown_plain (integerText n)
  | .cond guard whenTrue whenFalse => by
    simp only [Expr.code, Expr.text, Code.shown_append, shown_plain, guard.shown_code,
      whenTrue.shown_code, whenFalse.shown_code]
  | .unary op operand => by rw [Expr.code, Expr.text, shown_unaryCode, operand.shown_code]
  | .binary how op left right => by
    rw [Expr.code, Expr.text, Operation.shown_code, left.shown_code, right.shown_code]
  | .call1 method a => by simp [Expr.code, Expr.text, a.shown_code]
  | .call2 method a b => by simp [Expr.code, Expr.text, a.shown_code, b.shown_code]
  | .call3 method a b c => by
    simp [Expr.code, Expr.text, a.shown_code, b.shown_code, c.shown_code]

theorem shown_bracedCode (body : Code) : (bracedCode body).shown = braced body.shown := by
  simp only [bracedCode, enclosed, braced, Code.shown_append, Code.shown_singleton, Piece.shown]

mutual

/-- The pieces of a statement make up its text. -/
theorem Stmt.shown_code : ∀ stmt : Stmt, stmt.code.shown = stmt.text
  | .nothing => rfl
  | .declare type name none => by
    simp only [Stmt.code, Stmt.text, Code.shown_append, shown_plain, Code.shown_singleton,
      Piece.shown]
  | .declare type name (some value) => by
    simp only [Stmt.code, Stmt.text, Code.shown_append, shown_plain, Code.shown_singleton,
      Piece.shown, value.shown_code]
  | .assign name value => by
    simp only [Stmt.code, Stmt.text, Code.shown_append, shown_plain, Code.shown_singleton,
      Piece.shown, value.shown_code]
  | .perform value | .ret value => by
    simp only [Stmt.code, Stmt.text, Code.shown_append, shown_plain, value.shown_code]
  | .setPixel image x y value => by
    simp only [Stmt.code, Stmt.text, Code.shown_append, shown_plain, Method.shown_code,
      List.map_cons, List.map_nil, Code.shown_singleton, Piece.shown, x.shown_code, y.shown_code,
      value.shown_code]
  | .block body => by
    simp only [Stmt.code, Stmt.text, Code.shown_append, shown_plain, shown_bracedCode,
      shown_bodyCode body]
  | .choose branches => by
    simp only [Stmt.code, Stmt.text, Code.shown_append, shown_plain, shown_bracedCode,
      Code.shown_nil, shown_branchesCode _ branches]
  | .loop branches guard => by
    simp only [Stmt.code, Stmt.text, Code.shown_append, shown_plain, shown_bracedCode,
      shown_branchesCode _ branches, guard.shown_code]

theorem shown_bodyCode : ∀ body : List Stmt, (bodyCode body).shown = bodyText body
  | [] => rfl
  | stmt :: rest => by
    rw [bodyCode, bodyText, Code.shown_append, stmt.shown_code, shown_bodyCode rest]

theorem shown_branchesCode (after : String) : ∀ branches : List Branch,
    (branchesCode after branches).shown = branchesText after branches
  | [] => rfl
  | .mk guard body :: rest => by
    simp only [branchesCode, branchesText, Code.shown_append, shown_plain, shown_bracedCode,
      guard.shown_code, shown_bodyCode body, shown_branchesCode after rest]

end

theorem Param.shown_code (p : Param) : p.code.shown = p.text := by
  simp only [Param.code, Param.text, Code.shown_append, shown_plain, Code.shown_singleton,
    Piece.shown]

/-- The pieces of a method make up its text, from the opening parenthesis on. -/
theorem shown_methodCode (params : List Param) (body : List Stmt) :
    (methodCode params body).shown = methodText params body := by
  simp only [methodCode, methodText, enclosed, Code.shown_append, shown_plain, shown_separated,
    List.map_map, Function.comp_def, Param.shown_code, shown_bracedCode, shown_bodyCode,
    Code.shown_singleton, Piece.shown]

/-- The pieces of a unit make up its text. -/
theorem SourceUnit.shown_code (u : SourceUnit) : u.code.shown = u.text := by
  simp only [SourceUnit.code, SourceUnit.text, Code.shown_append, shown_plain, shown_methodCode]

end PixelJava.Java
