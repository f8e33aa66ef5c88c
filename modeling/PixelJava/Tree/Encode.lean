/-
Trees as JSON. Every field is written, an absent one as `null`; expressions and statements name
their kind first.
-/
import PixelJava.Json.Record
import PixelJava.Tree.Stmt

namespace PixelJava

def Position.toJson (p : Position) : Json :=
  .arr [.int p.line.toNat, .int p.column.toNat]

def Span.toJson (s : Span) : Json :=
  .obj [("start", s.start.toJson), ("end", s.stop.toJson)]

def Ty.toJson (t : Ty) : Json :=
  .str t.name

def ChannelSelector.toJson (c : ChannelSelector) : Json :=
  .obj [("color", .str c.channel.name), ("span", c.span.toJson)]

/-- A value that may be absent. -/
def Json.ofOption {α : Type} (encode : α → Json) : Option α → Json
  | none => .null
  | some a => encode a

/-- A node of the given kind. -/
def Json.node (kind : String) (fields : List (String × Json)) : Json :=
  .obj ((Json.kindField, .str kind) :: fields)

def Expr.toJson : Expr → Json
  | .ident name type span =>
    .node "Ident" [("name", .str name), ("type", type.toJson), ("span", span.toJson)]
  | .num text span => .node "NumLit" [("text", .str text), ("span", span.toJson)]
  | .str text span => .node "StringLit" [("text", .str text), ("span", span.toJson)]
  | .bool value span => .node "BooleanLit" [("value", .bool value), ("span", span.toJson)]
  | .const name type span =>
    .node "Const" [("name", .str name), ("type", type.toJson), ("span", span.toJson)]
  | .cond guard whenTrue whenFalse type span =>
    .node "Conditional" [("guard", guard.toJson), ("true_expr", whenTrue.toJson),
      ("false_expr", whenFalse.toJson), ("type", type.toJson), ("span", span.toJson)]
  | .binary left op right type span =>
    .node "Binary" [("left", left.toJson), ("op", .str op.name), ("right", right.toJson),
      ("type", type.toJson), ("span", span.toJson)]
  | .unary op operand type span =>
    .node "Unary" [("op", .str op.name), ("expr", operand.toJson), ("type", type.toJson),
      ("span", span.toJson)]
  | .select primary channel type span =>
    .node "Postfix" [("primary", primary.toJson), ("pixel", .null),
      ("channel", .ofOption ChannelSelector.toJson channel), ("type", type.toJson),
      ("span", span.toJson)]
  | .selectAt primary x y place channel type span =>
    .node "Postfix" [("primary", primary.toJson),
      ("pixel", .obj [("x", x.toJson), ("y", y.toJson), ("span", place.toJson)]),
      ("channel", .ofOption ChannelSelector.toJson channel), ("type", type.toJson),
      ("span", span.toJson)]
  | .pixel red green blue span =>
    .node "ExpandedPixel" [("red", red.toJson), ("green", green.toJson), ("blue", blue.toJson),
      ("span", span.toJson)]

def Variable.toJson (v : Variable) : Json :=
  .obj [("name", .str v.name), ("type", v.type.toJson), ("span", v.span.toJson)]

def PixelSelector.toJson (p : PixelSelector) : Json :=
  .obj [("x", p.x.toJson), ("y", p.y.toJson), ("span", p.span.toJson)]

def Dimension.toJson (d : Dimension) : Json :=
  .obj [("width", d.width.toJson), ("height", d.height.toJson), ("span", d.span.toJson)]

def NameDef.toJson (d : NameDef) : Json :=
  .obj [("name", .str d.name), ("type", d.type.toJson),
    ("dimension", .ofOption Dimension.toJson d.dimension), ("span", d.span.toJson)]

def Target.toJson (t : Target) : Json :=
  .obj [("name", .str t.name), ("pixel", .ofOption PixelSelector.toJson t.pixel),
    ("channel", .ofOption ChannelSelector.toJson t.channel), ("type", t.type.toJson),
    ("span", t.span.toJson)]

mutual

def Stmt.toJson : Stmt → Json
  | .declare defined initializer span =>
    .node "Declaration" [("name_def", defined.toJson),
      ("initializer", .ofOption Expr.toJson initializer), ("span", span.toJson)]
  | .assign target value span =>
    .node "Assignment" [("lvalue", target.toJson), ("expr", value.toJson), ("span", span.toJson)]
  | .write value span => .node "Write" [("expr", value.toJson), ("span", span.toJson)]
  | .loop branches span =>
    .node "Do" [("guarded_blocks", .arr (branchesToJson branches)), ("span", span.toJson)]
  | .choose branches span =>
    .node "If" [("guarded_blocks", .arr (branchesToJson branches)), ("span", span.toJson)]
  | .ret value span => .node "Return" [("expr", value.toJson), ("span", span.toJson)]
  | .block (.mk body span) =>
    .node "Block" [("body", .arr (bodyToJson body)), ("span", span.toJson)]

def bodyToJson : List Stmt → List Json
  | [] => []
  | stmt :: rest => stmt.toJson :: bodyToJson rest

def branchesToJson : List Branch → List Json
  | [] => []
  | .mk guard (.mk body blockSpan) span :: rest =>
    .obj [("guard", guard.toJson),
      ("block", .obj [("body", .arr (bodyToJson body)), ("span", blockSpan.toJson)]),
      ("span", span.toJson)] :: branchesToJson rest

end

def Block.toJson (b : Block) : Json :=
  .obj [("body", .arr (bodyToJson b.body)), ("span", b.span.toJson)]

def Program.toJson (p : Program) : Json :=
  .obj [("name", .str p.name), ("type", p.type.toJson),
    ("params", .arr (p.params.map NameDef.toJson)), ("block", p.block.toJson),
    ("span", p.span.toJson)]

end PixelJava
