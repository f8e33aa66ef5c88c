/-
The text of an expression with its operands cut out. What stands around the operands depends only on
the kind of the expression, its shape, of which there are finitely many; so a fact about the texts of
all expressions takes a check of these shapes and one induction. An operation on each channel has
places for its operands once for each channel.
-/
import PixelJava.Java.Printer

namespace PixelJava.Java

/-! ## Shapes -/

/-- A kind of expression that has operands. -/
inductive Shape where
  | cond
  | unary (op : UnaryOp)
  | binary (how : Operation) (op : BinaryOp)
  | call (method : Method) (arguments : Nat)
  deriving DecidableEq

/-- The text of a call up to its arguments. -/
def Method.opening (method : Method) : List Char :=
  method.owner.name.toList ++ '.' :: method.name.toList ++ ['(']

namespace Operation

/-- The text of a call of the image library up to its operands. -/
def imageOpening (method operator : String) : List Char :=
  Library.images.name.toList ++ '.' :: method.toList ++ '(' ::
    (Library.images.name.toList ++ '.' :: operator.toList ++ ", ".toList)

/-- What stands before, between and after the operands of an operation on one channel. -/
def channelMarks (how : Operation) (op : BinaryOp) : List Char × List Char × List Char :=
  if how = .pixelDivide then ([], " / ".toList, [])
  else ("Math.max(0, Math.min(255, ".toList, (" " ++ op.symbol ++ " ").toList, "))".toList)

/-- The text of an operation up to its first operand. -/
def opening (how : Operation) (op : BinaryOp) : List Char :=
  match how with
  | .imageEquals => imageOpening "binaryImageImageBooleanOp" "BoolOP.EQUALS"
  | .imageImage => imageOpening "binaryImageImageOp" ("OP." ++ op.name)
  | .imageScale | .imageNumber => imageOpening "binaryImageScalarOp" ("OP." ++ op.name)
  | .imagePixel => imageOpening "binaryImagePixelOp" ("OP." ++ op.name)
  | .pixelEquals => imageOpening "binaryPackedPixelBooleanOp" "BoolOP.EQUALS"
  | .pixelPixel => imageOpening "binaryPackedPixelPixelOp" ("OP." ++ op.name)
  | .pixelDivide | .pixelScale | .pixelNumber =>
    Method.pack.opening ++ (how.channelMarks op).1 ++ (Method.channel .red).opening
  | .stringEquals => []
  | .power => "((int) Math.pow(".toList
  | .native => ['(']

/-- The operands of an operation in the order of its text, with what stands behind each. -/
def slots (how : Operation) (op : BinaryOp) : List (Nat × List Char) :=
  match how with
  | .pixelDivide | .pixelScale | .pixelNumber =>
    let (before, between, after) := how.channelMarks op
    let next (c : Channel) := after ++ ", ".toList ++ before ++ (Method.channel c).opening
    [(0, ')' :: between), (1, next .green), (0, ')' :: between), (1, next .blue),
      (0, ')' :: between), (1, after ++ [')'])]
  | .stringEquals => [(0, ".equals(".toList), (1, [')'])]
  | .power => [(0, ", ".toList), (1, "))".toList)]
  | .native => [(0, (" " ++ op.symbol ++ " ").toList), (1, [')'])]
  | _ => [(0, ", ".toList), (1, [')'])]

end Operation

namespace Shape

/-- The text up to the first operand. -/
def opening : Shape → List Char
  | .cond => ['(']
  | .unary .width | .unary .height => ['(']
  | .unary op => '(' :: op.symbol.toList
  | .binary how op => how.opening op
  | .call method _ => method.opening

/-- The places for operands: the number of the operand, and the text behind it. -/
def slots : Shape → List (Nat × List Char)
  | .cond => [(0, " ? ".toList), (1, " : ".toList), (2, [')'])]
  | .unary .width => [(0, ".getWidth())".toList)]
  | .unary .height => [(0, ".getHeight())".toList)]
  | .unary _ => [(0, [')'])]
  | .binary how op => how.slots op
  | .call _ 1 => [(0, [')'])]
  | .call _ 2 => [(0, ", ".toList), (1, [')'])]
  | .call _ _ => [(0, ", ".toList), (1, ", ".toList), (2, [')'])]

/-- The text with operands in their places. -/
def fill (shape : Shape) (operands : List (List Char)) : List Char :=
  shape.opening ++ shape.slots.flatMap fun slot => operands.getD slot.1 [] ++ slot.2

def arity : Shape → Nat
  | .cond => 3
  | .unary _ => 1
  | .binary .. => 2
  | .call _ n => n

end Shape

/-! ## All shapes -/

namespace Operation

def all : List Operation :=
  [.imageEquals, .imageImage, .imageScale, .imageNumber, .pixelDivide, .pixelScale, .pixelNumber,
    .imagePixel, .pixelEquals, .pixelPixel, .stringEquals, .power, .native]

theorem mem_all (how : Operation) : how ∈ all := by
  cases how <;> decide

end Operation

namespace Method

def all : List Method :=
  [.write, .writePixel] ++ Channel.all.map .channel ++ Channel.all.map .setChannel ++ [.pack] ++
    Channel.all.map .extract ++
    [.getPixel, .setPixel, .copyInto, .copyAndResize, .makeImage, .readImage]

theorem mem_all (method : Method) : method ∈ all := by
  cases method with
  | channel c | setChannel c | extract c => cases c <;> decide
  | write | writePixel | pack | getPixel | setPixel | copyInto | copyAndResize | makeImage |
    readImage => decide

end Method

namespace Shape

/-- The shapes that expressions have. -/
def all : List Shape :=
  .cond :: UnaryOp.all.map .unary ++
    Operation.all.flatMap (fun how => BinaryOp.all.map (.binary how)) ++
    Method.all.flatMap fun method => [.call method 1, .call method 2, .call method 3]

theorem mem_all_binary (how : Operation) (op : BinaryOp) : .binary how op ∈ all := by
  have hop : op ∈ BinaryOp.all := by cases op <;> decide
  refine List.mem_append_left _ (List.mem_append_right _ (List.mem_flatMap.2 ⟨how, how.mem_all, ?_⟩))
  exact List.mem_map_of_mem hop

theorem mem_all_call (method : Method) {n : Nat} (h : n = 1 ∨ n = 2 ∨ n = 3) :
    .call method n ∈ all := by
  refine List.mem_append_right _ (List.mem_flatMap.2 ⟨method, method.mem_all, ?_⟩)
  rcases h with rfl | rfl | rfl <;> simp

/-- Every place is for one of the operands, and every operand has a place. -/
theorem slots_arity : ∀ shape ∈ all,
    (∀ slot ∈ shape.slots, slot.1 < shape.arity) ∧
      ∀ i < shape.arity, ∃ slot ∈ shape.slots, slot.1 = i := by
  decide +kernel

end Shape

/-! ## Expressions -/

namespace Expr

/-- The shape of an expression that has operands. -/
def shape? : Expr → Option Shape
  | .name _ | .literal _ | .integer _ => none
  | .cond .. => some .cond
  | .unary op _ => some (.unary op)
  | .binary how op _ _ => some (.binary how op)
  | .call1 method _ => some (.call method 1)
  | .call2 method _ _ => some (.call method 2)
  | .call3 method _ _ _ => some (.call method 3)

def operands : Expr → List Expr
  | .name _ | .literal _ | .integer _ => []
  | .cond guard whenTrue whenFalse => [guard, whenTrue, whenFalse]
  | .unary _ operand => [operand]
  | .binary _ _ left right => [left, right]
  | .call1 _ a => [a]
  | .call2 _ a b => [a, b]
  | .call3 _ a b c => [a, b, c]

/-- The texts of the parts that have no operands. -/
def leaves : Expr → List String
  | .name id => [id]
  | .literal text => [text]
  | .integer n => [integerText n]
  | .cond guard whenTrue whenFalse => guard.leaves ++ (whenTrue.leaves ++ whenFalse.leaves)
  | .unary _ operand => operand.leaves
  | .binary _ _ left right => left.leaves ++ right.leaves
  | .call1 _ a => a.leaves
  | .call2 _ a b => a.leaves ++ b.leaves
  | .call3 _ a b c => a.leaves ++ (b.leaves ++ c.leaves)

/-- Every expression has one of the listed shapes, so that a check of the list covers all. -/
theorem shape_mem_all {e : Expr} {shape : Shape} (h : e.shape? = some shape) :
    shape ∈ Shape.all := by
  cases e with
  | name | literal | integer => cases h
  | cond => cases h; decide
  | unary op operand => cases h; cases op <;> decide
  | binary how op left right => cases h; exact Shape.mem_all_binary how op
  | call1 method a => cases h; exact Shape.mem_all_call method (.inl rfl)
  | call2 method a b => cases h; exact Shape.mem_all_call method (.inr (.inl rfl))
  | call3 method a b c => cases h; exact Shape.mem_all_call method (.inr (.inr rfl))

theorem length_operands {e : Expr} {shape : Shape} (h : e.shape? = some shape) :
    e.operands.length = shape.arity := by
  cases e <;> cases h <;> rfl

/-- The names and literals of an operand are among those of the expression. -/
theorem leaves_of_operand {e x : Expr} (h : x ∈ e.operands) : x.leaves ⊆ e.leaves := by
  intro text ht
  cases e with
  | name | literal | integer => cases h
  | cond | unary | binary | call1 | call2 | call3 =>
    simp only [operands, List.mem_cons, List.not_mem_nil, or_false] at h
    simp only [leaves, List.mem_append]
    grind

theorem leaves_of_leaf {e : Expr} (h : e.shape? = none) : e.leaves = [e.text] := by
  cases e with
  | name | literal | integer => rfl
  | cond | unary | binary | call1 | call2 | call3 => cases h

theorem toList_imageCall (method operator left right : String) :
    (Operation.imageCall method operator left right).toList =
      Operation.imageOpening method operator ++
        (left.toList ++ ", ".toList ++ (right.toList ++ [')'] ++ [])) := by
  simp [Operation.imageCall, Operation.imageOpening, commas]

theorem toList_between (before left between right after : String) :
    (before ++ left ++ between ++ right ++ after).toList =
      before.toList ++ (left.toList ++ between.toList ++ (right.toList ++ after.toList ++ [])) := by
  simp

/-- An operation on each channel writes its operands once for each of them. -/
theorem toList_perChannel (before between after left right : String) :
    (Operation.perChannel left
        fun channel => before ++ (channel ++ between ++ right) ++ after).toList =
      Method.pack.opening ++ before.toList ++ (Method.channel .red).opening ++
        (left.toList ++ (')' :: between.toList) ++ (right.toList ++
            (after.toList ++ ", ".toList ++ before.toList ++ (Method.channel .green).opening) ++
          (left.toList ++ (')' :: between.toList) ++ (right.toList ++
            (after.toList ++ ", ".toList ++ before.toList ++ (Method.channel .blue).opening) ++
          (left.toList ++ (')' :: between.toList) ++
            (right.toList ++ (after.toList ++ [')']) ++ [])))))) := by
  simp [Operation.perChannel, Channel.all, Method.call, Method.opening, commas]

/-- An operation is written as its shape says. -/
theorem text_operation (how : Operation) (op : BinaryOp) (left right : String) :
    (how.text op left right).toList = (Shape.binary how op).fill [left.toList, right.toList] := by
  cases how with
  | imageEquals | imageImage | imageScale | imageNumber | imagePixel | pixelEquals | pixelPixel =>
    exact toList_imageCall _ _ left right
  | pixelDivide =>
    have htext (channel : String) : channel ++ " / " ++ right =
        "" ++ (channel ++ " / " ++ right) ++ "" := by
      simp only [String.append_empty, String.empty_append]
    calc (Operation.pixelDivide.text op left right).toList
        = (Operation.perChannel left fun channel => channel ++ " / " ++ right).toList := rfl
      _ = _ := by rw [funext htext]
      _ = _ := toList_perChannel "" " / " "" left right
  | pixelScale | pixelNumber =>
    have htext (channel : String) : channel ++ " " ++ op.symbol ++ " " ++ right =
        channel ++ (" " ++ op.symbol ++ " ") ++ right := by
      simp only [String.append_assoc]
    calc (Operation.pixelScale.text op left right).toList
        = (Operation.perChannel left fun channel =>
            Operation.clamped (channel ++ " " ++ op.symbol ++ " " ++ right)).toList := rfl
      _ = (Operation.perChannel left fun channel =>
            Operation.clamped (channel ++ (" " ++ op.symbol ++ " ") ++ right)).toList := by
          simp only [htext]
      _ = _ := toList_perChannel _ _ _ left right
  | stringEquals =>
    have h := toList_between "" left ".equals(" right ")"
    rw [String.empty_append] at h
    exact h
  | power => exact toList_between _ left _ right _
  | native =>
    calc (Operation.native.text op left right).toList
        = ("(" ++ left ++ " " ++ op.symbol ++ " " ++ right ++ ")").toList := rfl
      _ = ("(" ++ left ++ (" " ++ op.symbol ++ " ") ++ right ++ ")").toList := by
          simp only [String.append_assoc]
      _ = _ := toList_between _ left _ right _

/-- The text of an expression is its shape with the texts of its operands in their places. -/
theorem text_eq_fill {e : Expr} {shape : Shape} (h : e.shape? = some shape) :
    e.text.toList = shape.fill (e.operands.map fun x => x.text.toList) := by
  cases e with
  | name | literal | integer => cases h
  | cond guard whenTrue whenFalse =>
    cases h
    simp [text, operands, Shape.fill, Shape.opening, Shape.slots]
  | unary op operand =>
    cases h
    cases op <;> simp [text, unaryText, operands, Shape.fill, Shape.opening, Shape.slots]
  | binary how op left right =>
    cases h
    exact text_operation how op left.text right.text
  | call1 | call2 | call3 =>
    cases h
    simp [text, Method.call, commas, operands, Shape.fill, Shape.opening, Shape.slots,
      Method.opening]

/-- What holds of an expression if it holds of its operands, holds of all expressions. -/
theorem induction_on_shape {P : Expr → Prop} (leaf : ∀ e, e.shape? = none → P e)
    (node : ∀ e shape, e.shape? = some shape → (∀ x ∈ e.operands, P x) → P e) (e : Expr) : P e := by
  induction e with
  | name | literal | integer => exact leaf _ rfl
  | cond guard whenTrue whenFalse ihg iht ihf =>
    exact node _ _ rfl (by simp [operands, ihg, iht, ihf])
  | unary op operand ih => exact node _ _ rfl (by simp [operands, ih])
  | binary how op left right ihl ihr => exact node _ _ rfl (by simp [operands, ihl, ihr])
  | call1 method a iha => exact node _ _ rfl (by simp [operands, iha])
  | call2 method a b iha ihb => exact node _ _ rfl (by simp [operands, iha, ihb])
  | call3 method a b c iha ihb ihc => exact node _ _ rfl (by simp [operands, iha, ihb, ihc])

end Expr

end PixelJava.Java
