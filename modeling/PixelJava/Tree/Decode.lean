/-
Trees from JSON. Records may be spelled as `Json.Record` allows; spans default to zero, parameters
to none. Recursion is bounded by the brackets of the value: a node is a bracket, and its parts
nest one less deep.
-/
import PixelJava.Json.Record
import PixelJava.Tree.Stmt

namespace PixelJava

open Json

/-! ## Places, types, operators -/

def Position.ofJson? : Json → Option Position
  | .arr [line, column] => do
    return ⟨(← line.nat? 32).toUInt32, (← column.nat? 32).toUInt32⟩
  | _ => none

def Span.schema : Schema :=
  [required "start", required "end"]

def Span.ofJson? (value : Json) : Option Span := do
  let [some start, some stop] ← Span.schema.read value | none
  return ⟨← Position.ofJson? start, ← Position.ofJson? stop⟩

/-- A span that is zero if it is left out. -/
def Span.field? : Option Json → Option Span :=
  withDefault? .zero Span.ofJson?

def Ty.ofJson? (place : Place) : Json → Option Ty :=
  choice? Ty.all Ty.name place

def BinaryOp.ofJson? (place : Place) : Json → Option BinaryOp :=
  choice? BinaryOp.all BinaryOp.name place

def UnaryOp.ofJson? (place : Place) : Json → Option UnaryOp :=
  choice? UnaryOp.all UnaryOp.name place

def Channel.ofJson? (place : Place) : Json → Option Channel :=
  choice? Channel.all Channel.name place

/-! ## Expressions -/

def ChannelSelector.schema : Schema :=
  [required "color", defaulted "span"]

def ChannelSelector.ofJson? (place : Place) (value : Json) : Option ChannelSelector := do
  let [some color, span] ← ChannelSelector.schema.read value | none
  return ⟨← Channel.ofJson? place color, ← Span.field? span⟩

def PixelSelector.schema : Schema :=
  [required "x", required "y", defaulted "span"]

/-- The coordinates of a pixel, read with the given reader of expressions. -/
def PixelSelector.ofJsonWith? (expr : Json → Option Expr) (value : Json) :
    Option PixelSelector := do
  let [some x, some y, span] ← PixelSelector.schema.read value | none
  return ⟨← expr x, ← expr y, ← Span.field? span⟩

namespace Expr

def identSchema : Schema :=
  [required "name", required "type", defaulted "span"]

def literalSchema : Schema :=
  [required "text", defaulted "span"]

def boolSchema : Schema :=
  [required "value", defaulted "span"]

def condSchema : Schema :=
  [required "guard", required "true_expr", required "false_expr", required "type",
    defaulted "span"]

def binarySchema : Schema :=
  [required "left", required "op", required "right", required "type", defaulted "span"]

def unarySchema : Schema :=
  [required "op", required "expr", required "type", defaulted "span"]

def selectSchema : Schema :=
  [required "primary", defaulted "pixel", defaulted "channel", required "type", defaulted "span"]

def pixelSchema : Schema :=
  [required "red", required "green", required "blue", defaulted "span"]

/-- A binary expression from its record, without its kind. -/
def binaryOfJsonWith? (expr : Json → Option Expr) (place : Place) (value : Json) :
    Option Expr := do
  let [some left, some op, some right, some type, span] ← binarySchema.read value | none
  return .binary (← expr left) (← BinaryOp.ofJson? place op) (← expr right)
    (← Ty.ofJson? place type) (← Span.field? span)

/-- A selection from its record, without its kind. -/
def selectOfJsonWith? (expr : Json → Option Expr) (place : Place) (value : Json) :
    Option Expr := do
  let [some primary, coords, channel, some type, span] ← selectSchema.read value | none
  let primary ← expr primary
  let coords ← optional? (PixelSelector.ofJsonWith? expr) coords
  let channel ← optional? (ChannelSelector.ofJson? place) channel
  let type ← Ty.ofJson? place type
  let span ← Span.field? span
  match coords with
  | none => return .select primary channel type span
  | some coords => return .selectAt primary coords.x coords.y coords.span channel type span

/-- An expression whose brackets nest at most `levels` deep. -/
def decode : Nat → Json → Option Expr
  | 0, _ => none
  | levels + 1, value => do
    let (kind, record) ← value.node?
    match kind with
    | "Ident" =>
      let [some name, some type, span] ← identSchema.read record | none
      return .ident (← name.string?) (← Ty.ofJson? .inNode type) (← Span.field? span)
    | "NumLit" =>
      let [some text, span] ← literalSchema.read record | none
      return .num (← text.string?) (← Span.field? span)
    | "StringLit" =>
      let [some text, span] ← literalSchema.read record | none
      return .str (← text.string?) (← Span.field? span)
    | "BooleanLit" =>
      let [some value, span] ← boolSchema.read record | none
      return .bool (← value.bool?) (← Span.field? span)
    | "Const" =>
      let [some name, some type, span] ← identSchema.read record | none
      return .const (← name.string?) (← Ty.ofJson? .inNode type) (← Span.field? span)
    | "Conditional" =>
      let [some guard, some whenTrue, some whenFalse, some type, span] ← condSchema.read record
        | none
      return .cond (← decode levels guard) (← decode levels whenTrue) (← decode levels whenFalse)
        (← Ty.ofJson? .inNode type) (← Span.field? span)
    | "Binary" => binaryOfJsonWith? (decode levels) .inNode record
    | "Unary" =>
      let [some op, some operand, some type, span] ← unarySchema.read record | none
      return .unary (← UnaryOp.ofJson? .inNode op) (← decode levels operand)
        (← Ty.ofJson? .inNode type) (← Span.field? span)
    | "Postfix" => selectOfJsonWith? (decode levels) .inNode record
    | "ExpandedPixel" =>
      let [some red, some green, some blue, span] ← pixelSchema.read record | none
      return .pixel (← decode levels red) (← decode levels green) (← decode levels blue)
        (← Span.field? span)
    | _ => none

def ofJson? (value : Json) : Option Expr :=
  decode value.depth value

/-- A binary expression on its own, where a kind is a field like any unknown one. -/
def binaryOfJson? (value : Json) : Option Expr :=
  binaryOfJsonWith? ofJson? .outside value

/-- A selection on its own, where a kind is a field like any unknown one. -/
def selectOfJson? (value : Json) : Option Expr :=
  selectOfJsonWith? ofJson? .outside value

end Expr

/-! ## Statements -/

def PixelSelector.ofJson? : Json → Option PixelSelector :=
  PixelSelector.ofJsonWith? Expr.ofJson?

def Dimension.schema : Schema :=
  [required "width", required "height", defaulted "span"]

def Dimension.ofJson? (value : Json) : Option Dimension := do
  let [some width, some height, span] ← Dimension.schema.read value | none
  return ⟨← Expr.ofJson? width, ← Expr.ofJson? height, ← Span.field? span⟩

def NameDef.schema : Schema :=
  [required "name", required "type", defaulted "dimension", defaulted "span"]

def NameDef.ofJson? (place : Place) (value : Json) : Option NameDef := do
  let [some name, some type, dimension, span] ← NameDef.schema.read value | none
  return ⟨← name.string?, ← Ty.ofJson? place type, ← optional? Dimension.ofJson? dimension,
    ← Span.field? span⟩

def Target.schema : Schema :=
  [required "name", defaulted "pixel", defaulted "channel", required "type", defaulted "span"]

def Target.ofJson? (place : Place) (value : Json) : Option Target := do
  let [some name, pixel, channel, some type, span] ← Target.schema.read value | none
  return ⟨← name.string?, ← optional? PixelSelector.ofJson? pixel,
    ← optional? (ChannelSelector.ofJson? place) channel, ← Ty.ofJson? place type,
    ← Span.field? span⟩

def Block.schema : Schema :=
  [required "body", defaulted "span"]

/-- A block, read with the given reader of statements. -/
def Block.ofJsonWith? (stmt : Json → Option Stmt) (value : Json) : Option Block := do
  let [some body, span] ← Block.schema.read value | none
  return .mk (← list? stmt body) (← Span.field? span)

def Branch.schema : Schema :=
  [required "guard", required "block", defaulted "span"]

/-- A branch, read with the given reader of statements. -/
def Branch.ofJsonWith? (stmt : Json → Option Stmt) (value : Json) : Option Branch := do
  let [some guard, some block, span] ← Branch.schema.read value | none
  return .mk (← Expr.ofJson? guard) (← Block.ofJsonWith? stmt block) (← Span.field? span)

namespace Stmt

def declareSchema : Schema :=
  [required "name_def", defaulted "initializer", defaulted "span"]

def assignSchema : Schema :=
  [required "lvalue", required "expr", defaulted "span"]

def valueSchema : Schema :=
  [required "expr", defaulted "span"]

def branchesSchema : Schema :=
  [required "guarded_blocks", defaulted "span"]

/-- A statement whose brackets nest at most `levels` deep. -/
def decode : Nat → Json → Option Stmt
  | 0, _ => none
  | levels + 1, value => do
    let (kind, record) ← value.node?
    match kind with
    | "Declaration" =>
      let [some defined, initializer, span] ← declareSchema.read record | none
      return .declare (← NameDef.ofJson? .inNode defined)
        (← optional? Expr.ofJson? initializer) (← Span.field? span)
    | "Assignment" =>
      let [some target, some value, span] ← assignSchema.read record | none
      return .assign (← Target.ofJson? .inNode target) (← Expr.ofJson? value) (← Span.field? span)
    | "Write" =>
      let [some value, span] ← valueSchema.read record | none
      return .write (← Expr.ofJson? value) (← Span.field? span)
    | "Do" =>
      let [some branches, span] ← branchesSchema.read record | none
      return .loop (← list? (Branch.ofJsonWith? (decode levels)) branches) (← Span.field? span)
    | "If" =>
      let [some branches, span] ← branchesSchema.read record | none
      return .choose (← list? (Branch.ofJsonWith? (decode levels)) branches) (← Span.field? span)
    | "Return" =>
      let [some value, span] ← valueSchema.read record | none
      return .ret (← Expr.ofJson? value) (← Span.field? span)
    | "Block" => return .block (← Block.ofJsonWith? (decode levels) record)
    | _ => none

def ofJson? (value : Json) : Option Stmt :=
  decode value.depth value

end Stmt

def Block.ofJson? : Json → Option Block :=
  Block.ofJsonWith? Stmt.ofJson?

/-! ## Programs -/

def Program.schema : Schema :=
  [required "name", required "type", defaulted "params", required "block", defaulted "span"]

def Program.ofJson? (value : Json) : Option Program := do
  let [some name, some type, params, some block, span] ← Program.schema.read value | none
  return ⟨← name.string?, ← Ty.ofJson? .outside type,
    ← withDefault? [] (list? (NameDef.ofJson? .outside)) params, ← Block.ofJson? block,
    ← Span.field? span⟩

end PixelJava
