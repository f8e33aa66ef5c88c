/-
The types of values in a program, and the Java types that hold them. A pixel is a packed word, so
Java holds it as an `int`.
-/

namespace PixelJava

/-- The type of a value. -/
inductive Ty where
  | int | boolean | string | pixel | image | void
  deriving DecidableEq

namespace Ty

def all : List Ty :=
  [.int, .boolean, .string, .pixel, .image, .void]

def name : Ty → String
  | .int => "INT"
  | .boolean => "BOOLEAN"
  | .string => "STRING"
  | .pixel => "PIXEL"
  | .image => "IMAGE"
  | .void => "VOID"

/-- The Java type of a variable or result. -/
def java : Ty → String
  | .int => "int"
  | .boolean => "boolean"
  | .string => "String"
  | .pixel => "int"
  | .image => "BufferedImage"
  | .void => "void"

end Ty

end PixelJava
