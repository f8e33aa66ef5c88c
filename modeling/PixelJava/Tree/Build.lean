/-
Trees built by hand. Every node has the zero span, and a string literal is given without its
quotes.
-/
import PixelJava.Tree.Stmt

namespace PixelJava.Build

def ident (name : String) (type : Ty) : Expr :=
  .ident name type .zero

def num (text : String) : Expr :=
  .num text .zero

/-- The literal of an integer, its sign included. -/
def int (n : Int) : Expr :=
  num (toString n)

/-- A string literal; the quotes are added and nothing is escaped. -/
def str (text : String) : Expr :=
  .str ("\"" ++ text ++ "\"") .zero

def bool (value : Bool) : Expr :=
  .bool value .zero

def const (name : String) (type : Ty) : Expr :=
  .const name type .zero

def binary (left : Expr) (op : BinaryOp) (right : Expr) (type : Ty) : Expr :=
  .binary left op right type .zero

def unary (op : UnaryOp) (operand : Expr) (type : Ty) : Expr :=
  .unary op operand type .zero

def cond (guard whenTrue whenFalse : Expr) (type : Ty) : Expr :=
  .cond guard whenTrue whenFalse type .zero

def select (primary : Expr) (pixel : Option (Expr × Expr)) (channel : Option Channel) (type : Ty) :
    Expr :=
  let channel := channel.map (⟨·, .zero⟩)
  match pixel with
  | none => .select primary channel type .zero
  | some (x, y) => .selectAt primary x y .zero channel type .zero

def pixel (red green blue : Expr) : Expr :=
  .pixel red green blue .zero

def nameDef (name : String) (type : Ty) : NameDef :=
  ⟨name, type, none, .zero⟩

def declare (name : String) (type : Ty) (initializer : Option Expr) : Stmt :=
  .declare (nameDef name type) initializer .zero

/-- An assignment to a whole variable. -/
def assign (name : String) (type : Ty) (value : Expr) : Stmt :=
  .assign ⟨name, none, none, type, .zero⟩ value .zero

def write (value : Expr) : Stmt :=
  .write value .zero

def ret (value : Expr) : Stmt :=
  .ret value .zero

def block (body : List Stmt) : Block :=
  .mk body .zero

def branch (guard : Expr) (body : List Stmt) : Branch :=
  .mk guard (block body) .zero

def choose (branches : List Branch) : Stmt :=
  .choose branches .zero

def loop (branches : List Branch) : Stmt :=
  .loop branches .zero

def program (name : String) (type : Ty) (params : List NameDef) (body : List Stmt) : Program :=
  ⟨name, type, params, block body, .zero⟩

end PixelJava.Build
