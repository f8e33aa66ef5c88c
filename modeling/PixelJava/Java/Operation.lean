/-
How a binary operator is carried out in Java. The operation depends only on the operator and the
types of its operands; a combination that is missing here cannot be lowered.
-/
import PixelJava.Java.Library
import PixelJava.Tree.Ty

namespace PixelJava.Java

/-- A way to carry out a binary operator. -/
inductive Operation where
  | imageEquals
  /-- Pixel by pixel; the result goes into the left image if it is a variable. -/
  | imageImage
  /-- An image times a number; the result goes into the image if it is a variable. -/
  | imageScale
  /-- An image and a number otherwise; the result goes into the image if it is a variable. -/
  | imageNumber
  /-- Each channel divided by a number. -/
  | pixelDivide
  /-- Each channel times a number, kept in range. -/
  | pixelScale
  /-- Each channel with a number otherwise, kept in range. -/
  | pixelNumber
  /-- Every pixel of an image with one pixel. -/
  | imagePixel
  | pixelEquals
  | pixelPixel
  | stringEquals
  | power
  /-- Java's own operator. -/
  | native
  deriving DecidableEq

namespace Operation

/-- Whether the result can be written into the left operand. -/
def isInPlace : Operation → Bool
  | .imageImage | .imageScale | .imageNumber => true
  | _ => false

/-- Whether Java's own operator works on operands of these types. -/
def isNative (op : BinaryOp) (left right : Ty) : Bool :=
  match op with
  | .plus => left = right && (left = .int || left = .string)
  | .minus | .times | .div | .mod => left = .int && right = .int
  | .and | .or => left = .boolean && right = .boolean
  | .eq => left = right && (left = .int || left = .boolean)
  | .exp => false
  | .lt | .gt | .le | .ge => left = .int && right = .int

/-- An operation whose first operand is an image. -/
def ofImage? (op : BinaryOp) : Ty → Option Operation
  | .image =>
    if op = .eq then some .imageEquals else if op.isArithmetic then some .imageImage else none
  | .int =>
    if op = .times then some .imageScale else if op.isArithmetic then some .imageNumber else none
  | .pixel => if op.isArithmetic then some .imagePixel else none
  | _ => none

/-- An operation whose first operand is a pixel. An image as the second operand changes places
with the pixel, which only the commutative operators allow. -/
def ofPixel? (op : BinaryOp) : Ty → Option Operation
  | .int =>
    if op = .div then some .pixelDivide
    else if op = .times then some .pixelScale
    else if op.isArithmetic then some .pixelNumber
    else none
  | .image => if op = .plus || op = .times then some .imagePixel else none
  | .pixel =>
    if op = .eq then some .pixelEquals else if op.isArithmetic then some .pixelPixel else none
  | _ => none

/-- The operation for `left op right`, if there is one. -/
def find? (op : BinaryOp) (left right : Ty) : Option Operation :=
  match left with
  | .image => ofImage? op right
  | .pixel => ofPixel? op right
  | _ =>
    if op = .eq && left = .string && right = .string then some .stringEquals
    else if op = .exp && left = .int && right = .int then some .power
    else if isNative op left right then some .native
    else none

/-- The library class that carries out the operation. -/
def owner? : Operation → Option Library
  | .pixelDivide | .pixelScale | .pixelNumber => some .pixels
  | .stringEquals | .power | .native => none
  | _ => some .images

end Operation

end PixelJava.Java
