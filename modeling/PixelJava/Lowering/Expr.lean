/-
Expressions in Java. An expression counts one level of nesting, and so do its parts inside it. The
check of an operator or a selector comes before its operands are lowered; the library class that
carries it out counts as used after them.
-/
import PixelJava.Java.Syntax
import PixelJava.Lowering.Basic
import PixelJava.Tree.Constant
import PixelJava.Tree.Expr

namespace PixelJava

open LowerM

/-- What is selected, in words. -/
def describeSelector (hasPixel : Bool) (channel : Option ChannelSelector) : String :=
  match hasPixel, channel with
  | true, some c => "a pixel and channel " ++ c.channel.word
  | true, none => "a pixel"
  | false, some c => "channel " ++ c.channel.word
  | false, none => "nothing"

/-- The image variable that an operation writes its result into. -/
def inPlaceVariable? (left : Expr) (op : BinaryOp) (right : Expr) : Option Variable :=
  if (Java.Operation.find? op left.type right.type).any Java.Operation.isInPlace then left.named?
  else none

/-- The Java name of the image variable that an operation writes its result into. -/
def inPlaceTarget (scopes : Scopes) (left : Expr) (op : BinaryOp) (right : Expr) :
    Except Fault (Option String) :=
  match inPlaceVariable? left op right with
  | some v => (fun b => some b.javaName) <$> scopes.resolve v.name v.span
  | none => return none

/-- Whether a unary operator works on an operand of this type. -/
def UnaryOp.accepts (op : UnaryOp) (operand : Ty) : Bool :=
  match op with
  | .width | .height => operand = .image
  | .plus | .minus => operand = .int
  | .bang => operand = .boolean

/-- An operation on lowered operands. An operation of an image and a pixel takes the image first; a
result that belongs into `target` is copied there. -/
def operate (how : Java.Operation) (op : BinaryOp) (leftType : Ty) (left right : Java.Expr)
    (target : Option String) : Java.Expr :=
  let result : Java.Expr :=
    if how = .imagePixel && leftType ≠ .image then .binary how op right left
    else .binary how op left right
  match target with
  | some name => .call2 .copyInto result (.name name)
  | none => result

namespace Expr

variable {limit : UInt64}

/-- Counts a level for `e`, notes that it is lowered, and runs `body` on that level. -/
def atLevel (e : Expr) (body : LowerM limit Java.Expr) : LowerM limit Java.Expr :=
  nested e.span.start do
    note .trace ("lowering " ++ e.kind ++ " expression (" ++ e.type.name ++ ")")
    body

/-- Lowers an expression that does not count as a level of its own. -/
def lowerNode : Expr → LowerM limit Java.Expr
  | .ident name _ span => do
    let binding ← resolve name span
    return .name binding.javaName
  | .num text _ => return .literal text
  | .str text _ => return .literal text
  | .bool value _ => return .literal (if value then "true" else "false")
  | .const name _ span =>
    match Constant.find? name with
    | some constant => return .integer constant.value
    | none => throw ⟨.unknownConstant name, span.start⟩
  | .cond guard whenTrue whenFalse _ _ => do
    let guard ← guard.atLevel guard.lowerNode
    let whenTrue ← whenTrue.atLevel whenTrue.lowerNode
    let whenFalse ← whenFalse.atLevel whenFalse.lowerNode
    return .cond guard whenTrue whenFalse
  | .binary left op right _ span =>
    match Java.Operation.find? op left.type right.type with
    | none => throw ⟨.unsupportedBinary op left.type right.type, span.start⟩
    | some how => do
      let l ← left.atLevel left.lowerNode
      let r ← right.atLevel right.lowerNode
      let target ← MonadExcept.ofExcept (inPlaceTarget (← scopes) left op right)
      use how.owner?.toList
      return operate how op left.type l r target
  | .unary op operand _ span =>
    if op.accepts operand.type then do
      let e ← operand.atLevel operand.lowerNode
      return .unary op e
    else throw ⟨.unsupportedUnary op operand.type, span.start⟩
  | .select primary channel _ span =>
    match primary.type, channel with
    | _, none => primary.atLevel primary.lowerNode
    | .pixel, some c => do
      let e ← primary.atLevel primary.lowerNode
      use [(Java.Method.channel c.channel).owner]
      return .call1 (.channel c.channel) e
    | .image, some c => do
      let e ← primary.atLevel primary.lowerNode
      use [(Java.Method.extract c.channel).owner]
      return .call1 (.extract c.channel) e
    | type, some _ =>
      throw ⟨.unsupportedSelector type (describeSelector false channel), span.start⟩
  | .selectAt primary x y _ channel _ span =>
    match primary.type with
    | .image => do
      let image ← primary.atLevel primary.lowerNode
      let x ← x.atLevel x.lowerNode
      let y ← y.atLevel y.lowerNode
      use [Java.Method.getPixel.owner]
      match channel with
      | none => return .call3 .getPixel image x y
      | some c =>
        use [(Java.Method.channel c.channel).owner]
        return .call1 (.channel c.channel) (.call3 .getPixel image x y)
    | type => throw ⟨.unsupportedSelector type (describeSelector true channel), span.start⟩
  | .pixel red green blue _ => do
    let red ← red.atLevel red.lowerNode
    let green ← green.atLevel green.lowerNode
    let blue ← blue.atLevel blue.lowerNode
    use [Java.Method.pack.owner]
    return .call3 .pack red green blue

/-- Lowers an expression. -/
def lower (e : Expr) : LowerM limit Java.Expr :=
  e.atLevel e.lowerNode

end Expr

end PixelJava
