/-
The operators of the language and the color channels of a pixel, with the names they carry in the
tree's JSON form and the symbols they are shown by.
-/

namespace PixelJava

/-- An operator between two operands. -/
inductive BinaryOp where
  | plus | minus | times | div | mod | exp | and | or | eq | lt | gt | le | ge
  deriving DecidableEq

namespace BinaryOp

def all : List BinaryOp :=
  [.plus, .minus, .times, .div, .mod, .exp, .and, .or, .eq, .lt, .gt, .le, .ge]

def name : BinaryOp → String
  | .plus => "PLUS"
  | .minus => "MINUS"
  | .times => "TIMES"
  | .div => "DIV"
  | .mod => "MOD"
  | .exp => "EXP"
  | .and => "AND"
  | .or => "OR"
  | .eq => "EQ"
  | .lt => "LT"
  | .gt => "GT"
  | .le => "LE"
  | .ge => "GE"

def symbol : BinaryOp → String
  | .plus => "+"
  | .minus => "-"
  | .times => "*"
  | .div => "/"
  | .mod => "%"
  | .exp => "**"
  | .and => "&&"
  | .or => "||"
  | .eq => "=="
  | .lt => "<"
  | .gt => ">"
  | .le => "<="
  | .ge => ">="

def isArithmetic : BinaryOp → Bool
  | .plus | .minus | .times | .div | .mod => true
  | _ => false

def isComparison : BinaryOp → Bool
  | .lt | .gt | .le | .ge => true
  | _ => false

end BinaryOp

/-- An operator on one operand. -/
inductive UnaryOp where
  | plus | minus | bang | width | height
  deriving DecidableEq

namespace UnaryOp

def all : List UnaryOp :=
  [.plus, .minus, .bang, .width, .height]

def name : UnaryOp → String
  | .plus => "PLUS"
  | .minus => "MINUS"
  | .bang => "BANG"
  | .width => "WIDTH"
  | .height => "HEIGHT"

def symbol : UnaryOp → String
  | .plus => "+"
  | .minus => "-"
  | .bang => "!"
  | .width => "width"
  | .height => "height"

end UnaryOp

/-- A color component of a pixel. -/
inductive Channel where
  | red | green | blue
  deriving DecidableEq

namespace Channel

def all : List Channel :=
  [.red, .green, .blue]

def name : Channel → String
  | .red => "RED"
  | .green => "GREEN"
  | .blue => "BLUE"

/-- The channel as a word, which is also the name of its getter. -/
def word : Channel → String
  | .red => "red"
  | .green => "green"
  | .blue => "blue"

/-- The channel as the last part of a method name. -/
def title : Channel → String
  | .red => "Red"
  | .green => "Green"
  | .blue => "Blue"

end Channel

end PixelJava
