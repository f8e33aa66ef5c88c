/-
Reading back what is written. A tree of any size and kind, and every choice of options, is what is
read from its JSON form.
-/
import PixelJava.Options.Codec
import PixelJava.Proofs.Tree.Form
import PixelJava.Tree.Encode

namespace PixelJava

open Json

/-! ## Scalars -/

theorem Json.nat?_int {bits n : Nat} (h : n < 1 <<< bits) : (Json.int n).nat? bits = some n :=
  if_pos h

@[simp] theorem Position.ofJson?_toJson (p : Position) : Position.ofJson? p.toJson = some p := by
  have hline : (Json.int p.line.toNat).nat? 32 = some _ := nat?_int p.line.toNat_lt
  have hcolumn : (Json.int p.column.toNat).nat? 32 = some _ := nat?_int p.column.toNat_lt
  simp [Position.ofJson?, Position.toJson, hline, hcolumn]

/-- Types are read back wherever they stand. -/
@[simp] theorem Ty.ofJson?_toJson (place : Place) (t : Ty) :
    Ty.ofJson? place t.toJson = some t := by
  cases t <;> rfl

@[simp] theorem BinaryOp.ofJson?_name (place : Place) (op : BinaryOp) :
    BinaryOp.ofJson? place (.str op.name) = some op := by
  cases op <;> rfl

@[simp] theorem UnaryOp.ofJson?_name (place : Place) (op : UnaryOp) :
    UnaryOp.ofJson? place (.str op.name) = some op := by
  cases op <;> rfl

@[simp] theorem Channel.ofJson?_name (place : Place) (c : Channel) :
    Channel.ofJson? place (.str c.name) = some c := by
  cases c <;> rfl

/-! ## Records -/

/-- An object with just the fields of a record is read slot by slot. -/
theorem Record.read_obj {α : Type} {r : Record α} (reader : Reader)
    {fields : List (String × Json)} (hnames : names fields = r.slots.map Slot.name)
    (hnodup : (r.slots.map Slot.name).Nodup) :
    r.read reader (.obj fields) =
      readInto reader r.slots r.make (fields.map fun p => some p.2) := by
  have hschema : r.schema.map Field.name = r.slots.map Slot.name := by
    rw [schema, List.map_map]
    rfl
  rw [read, Schema.read_obj (hnames.trans hschema.symm) (hschema ▸ hnodup), Option.bind_some]

/-- An object with a value for every slot is read slot by slot. -/
theorem Form.read_obj {f : Form} {r : Record f.Value} (h : f.record? none = some r)
    {fields : List (String × Json)} (hnames : names fields = r.slots.map Slot.name) :
    f.read (.obj fields) = readInto Form.read r.slots r.make (fields.map fun p => some p.2) := by
  rw [Form.read_of_record? h, Record.read_obj _ hnames (List.nodup_cons.1 (Form.nodup_names h)).2]

/-- A node with a value for every slot of its kind is read slot by slot. -/
theorem Form.read_node {f : Form} {kind : String} {r : Record f.Value}
    (h : f.record? (some kind) = some r) {fields : List (String × Json)}
    (hnames : names fields = r.slots.map Slot.name) :
    f.read (.node kind fields) =
      readInto Form.read r.slots r.make (fields.map fun p => some p.2) := by
  obtain ⟨hkind, hnodup⟩ := List.nodup_cons.1 (Form.nodup_names h)
  rw [Form.read_of_record?_kind h, Json.node, readNode_of_node? (node?_cons kind (hnames ▸ hkind)), h,
    Option.bind_some, Record.read_obj _ hnames hnodup]

@[simp] theorem optional?_null {α : Type} (decode : Json → Option α) :
    optional? decode (some .null) = some none :=
  rfl

@[simp] theorem optional?_obj {α : Type} (decode : Json → Option α)
    (fields : List (String × Json)) :
    optional? decode (some (.obj fields)) = (decode (.obj fields)).map some :=
  rfl

/-- An optional field is read back if `null` is no value of it. -/
theorem optional?_ofOption {α : Type} {decode : Json → Option α} {encode : α → Json}
    (h : ∀ a, decode (encode a) = some a) (hnull : decode .null = none) (a : Option α) :
    optional? decode (some (.ofOption encode a)) = some a := by
  cases a with
  | none => rfl
  | some a =>
    have ha := h a
    show optional? decode (some (encode a)) = some (some a)
    cases he : encode a with
    | null => rw [he, hnull] at ha; cases ha
    | _ => rw [he] at ha; exact congrArg (some <$> ·) ha

@[simp] theorem Span.ofJson?_toJson (s : Span) : Span.ofJson? s.toJson = some s := by
  refine (Form.read_obj (f := .span) rfl rfl).trans ?_
  simp [Span.record, Form.read, Form.readWith]

@[simp] theorem Span.field_toJson (s : Span) :
    withDefault? .zero Span.ofJson? (some s.toJson) = some s :=
  Span.ofJson?_toJson s

/-- A channel is read back, or that there is none. -/
@[simp] theorem ChannelSelector.field_toJson (place : Place) (c : Option ChannelSelector) :
    optional? (ChannelSelector.ofJson? place) (some (.ofOption toJson c)) = some c := by
  refine optional?_ofOption (fun c => ?_) rfl c
  refine (Form.read_obj (f := .channel place) rfl rfl).trans ?_
  simp [ChannelSelector.record, Form.read, Form.readWith]

/-! ## Expressions -/

theorem PixelSelector.ofJson?_obj {x y : Expr} (hx : Expr.ofJson? x.toJson = some x)
    (hy : Expr.ofJson? y.toJson = some y) (span : Span) :
    PixelSelector.ofJson? (.obj [("x", x.toJson), ("y", y.toJson), ("span", span.toJson)]) =
      some ⟨x, y, span⟩ := by
  refine (Form.read_obj (f := .pixel) rfl rfl).trans ?_
  simp [PixelSelector.record, Form.read, Form.readWith, hx, hy]

/-- Expressions are read back: the induction is on the expression. -/
@[simp] theorem Expr.ofJson?_toJson (e : Expr) : Expr.ofJson? e.toJson = some e := by
  induction e with
  | ident name type span =>
    refine (Form.read_node (f := .expr) rfl rfl).trans ?_
    simp [Form.read, Form.readWith, string?]
  | num text span =>
    refine (Form.read_node (f := .expr) rfl rfl).trans ?_
    simp [Form.read, Form.readWith, string?]
  | str text span =>
    refine (Form.read_node (f := .expr) rfl rfl).trans ?_
    simp [Form.read, Form.readWith, string?]
  | bool value span =>
    refine (Form.read_node (f := .expr) rfl rfl).trans ?_
    simp [Form.read, Form.readWith, bool?]
  | const name type span =>
    refine (Form.read_node (f := .expr) rfl rfl).trans ?_
    simp [Form.read, Form.readWith, string?]
  | cond guard whenTrue whenFalse type span hguard htrue hfalse =>
    refine (Form.read_node (f := .expr) rfl rfl).trans ?_
    simp [Form.read, Form.readWith, hguard, htrue, hfalse]
  | binary left op right type span hleft hright =>
    refine (Form.read_node (f := .expr) rfl rfl).trans ?_
    simp [Form.read, Form.readWith, hleft, hright]
  | unary op operand type span hoperand =>
    refine (Form.read_node (f := .expr) rfl rfl).trans ?_
    simp [Form.read, Form.readWith, hoperand]
  | select primary channel type span hprimary =>
    refine (Form.read_node (f := .expr) rfl rfl).trans ?_
    simp [Form.read, Form.readWith, hprimary, Expr.selection]
  | selectAt primary x y place channel type span hprimary hx hy =>
    have hcoords := PixelSelector.ofJson?_obj hx hy place
    rw [PixelSelector.ofJson?] at hcoords
    refine (Form.read_node (f := .expr) rfl rfl).trans ?_
    simp [Form.read, Form.readWith, hprimary, hcoords, Expr.selection]
  | pixel red green blue span hred hgreen hblue =>
    refine (Form.read_node (f := .expr) rfl rfl).trans ?_
    simp [Form.read, Form.readWith, hred, hgreen, hblue]

theorem Expr.field_toJson (e : Option Expr) :
    optional? Expr.ofJson? (some (.ofOption toJson e)) = some e :=
  optional?_ofOption Expr.ofJson?_toJson rfl e

/-! ## Declarations and targets -/

/-- A pixel is read back, or that there is none. -/
theorem PixelSelector.field_toJson (p : Option PixelSelector) :
    optional? (ofJsonWith? Expr.ofJson?) (some (.ofOption toJson p)) = some p :=
  optional?_ofOption
    (fun p => ofJson?_obj (Expr.ofJson?_toJson p.x) (Expr.ofJson?_toJson p.y) p.span) rfl p

/-- A size is read back, or that there is none. -/
theorem Dimension.field_toJson (d : Option Dimension) :
    optional? Dimension.ofJson? (some (.ofOption toJson d)) = some d := by
  refine optional?_ofOption (fun d => ?_) rfl d
  refine (Form.read_obj (f := .dimension) rfl rfl).trans ?_
  simp [Dimension.record, Form.read, Form.readWith]

/-- Definitions are read back. -/
@[simp] theorem NameDef.ofJson?_toJson (place : Place) (d : NameDef) :
    NameDef.ofJson? place d.toJson = some d := by
  refine (Form.read_obj (f := .nameDef place) rfl rfl).trans ?_
  simp [NameDef.record, Form.read, Form.readWith, string?, Dimension.field_toJson]

/-- Targets are read back. -/
@[simp] theorem Target.ofJson?_toJson (place : Place) (t : Target) :
    Target.ofJson? place t.toJson = some t := by
  refine (Form.read_obj (f := .target place) rfl rfl).trans ?_
  simp [Target.record, Form.read, Form.readWith, string?, PixelSelector.field_toJson]

/-! ## Statements -/

theorem Block.ofJson?_obj {body : List Stmt}
    (h : (bodyToJson body).mapM Stmt.ofJson? = some body) (span : Span) :
    Block.ofJson? (.obj [("body", .arr (bodyToJson body)), ("span", span.toJson)]) =
      some (.mk body span) := by
  refine (Form.read_obj (f := .block) rfl rfl).trans ?_
  simp [Block.record, Form.read, Form.readWith, list?, items?, h]

theorem Branch.ofJson?_obj {body : List Stmt}
    (h : (bodyToJson body).mapM Stmt.ofJson? = some body) (guard : Expr) (blockSpan span : Span) :
    Branch.ofJsonWith? Stmt.ofJson? (.obj [("guard", guard.toJson),
      ("block", .obj [("body", .arr (bodyToJson body)), ("span", blockSpan.toJson)]),
      ("span", span.toJson)]) = some (.mk guard (.mk body blockSpan) span) := by
  have hblock := Block.ofJson?_obj h blockSpan
  rw [Block.ofJson?] at hblock
  refine (Form.read_obj (f := .branch) rfl rfl).trans ?_
  simp [Branch.record, Form.read, Form.readWith, hblock]

mutual

/-- Statements are read back: the induction is on the statement, with the bodies in it. -/
theorem Stmt.ofJson?_toJson : ∀ s : Stmt, Stmt.ofJson? s.toJson = some s
  | .declare defined initializer span => by
    refine (Form.read_node (f := .stmt) rfl rfl).trans ?_
    simp [Form.read, Form.readWith, Expr.field_toJson]
  | .assign target value span => by
    refine (Form.read_node (f := .stmt) rfl rfl).trans ?_
    simp [Form.read, Form.readWith]
  | .write value span => by
    refine (Form.read_node (f := .stmt) rfl rfl).trans ?_
    simp [Form.read, Form.readWith]
  | .loop branches span => by
    have hbranches := mapM_branchesToJson branches
    refine (Form.read_node (f := .stmt) rfl rfl).trans ?_
    simp [Form.read, Form.readWith, list?, items?, hbranches]
  | .choose branches span => by
    have hbranches := mapM_branchesToJson branches
    refine (Form.read_node (f := .stmt) rfl rfl).trans ?_
    simp [Form.read, Form.readWith, list?, items?, hbranches]
  | .ret value span => by
    refine (Form.read_node (f := .stmt) rfl rfl).trans ?_
    simp [Form.read, Form.readWith]
  | .block (.mk body span) => by
    have hbody := mapM_bodyToJson body
    refine (Form.read_node (f := .stmt) rfl rfl).trans ?_
    simp [Block.record, Form.read, Form.readWith, list?, items?, hbody]

theorem mapM_bodyToJson : ∀ body : List Stmt, (bodyToJson body).mapM Stmt.ofJson? = some body
  | [] => rfl
  | stmt :: rest => by
    have hstmt := Stmt.ofJson?_toJson stmt
    have hrest := mapM_bodyToJson rest
    simp [bodyToJson, hstmt, hrest]

theorem mapM_branchesToJson : ∀ branches : List Branch,
    (branchesToJson branches).mapM (Branch.ofJsonWith? Stmt.ofJson?) = some branches
  | [] => rfl
  | .mk guard (.mk body blockSpan) span :: rest => by
    have hbranch := Branch.ofJson?_obj (mapM_bodyToJson body) guard blockSpan span
    have hrest := mapM_branchesToJson rest
    simp [branchesToJson, hbranch, hrest]

end

/-! ## Programs and options -/

theorem Block.ofJson?_toJson (b : Block) : Block.ofJson? b.toJson = some b := by
  obtain ⟨body, span⟩ := b
  exact Block.ofJson?_obj (mapM_bodyToJson body) span

theorem NameDef.list?_toJson (place : Place) (params : List NameDef) :
    list? (NameDef.ofJson? place) (.arr (params.map toJson)) = some params := by
  show (params.map toJson).mapM (NameDef.ofJson? place) = some params
  induction params with
  | nil => rfl
  | cons first rest ih => rw [List.map_cons, List.mapM_cons, NameDef.ofJson?_toJson, ih]; rfl

/-- Programs are read back. -/
theorem Program.ofJson?_toJson (p : Program) : Program.ofJson? p.toJson = some p := by
  have hblock := Block.ofJson?_toJson p.block
  rw [Block.ofJson?] at hblock
  refine (Form.read_obj (f := .program) rfl rfl).trans ?_
  simp [Program.record, Form.read, Form.readWith, string?, withDefault?, NameDef.list?_toJson,
    hblock]

/-- Options are read back. -/
theorem Options.ofJson?_toJson (o : Options) : Options.ofJson? o.toJson = some o := by
  have hread : schema.read o.toJson = some _ := Schema.read_obj rfl (by decide)
  have hdepth : (Json.int o.maxDepth.toNat).nat? 64 = some _ := nat?_int o.maxDepth.toNat_lt
  obtain ⟨package, libraryPackage, entryPoint, maxDepth, pretty⟩ := o
  rw [Options.ofJson?, hread]
  cases package with
  | none => simp [withDefault?, packageOfJson?, string?, bool?, hdepth]
  | some package => simp [withDefault?, packageOfJson?, string?, bool?, hdepth]

/-- Whatever tree is written is read back as it was, of any depth and with any names, texts and
positions in it, and so are the options. -/
theorem json_round_trip :
    (∀ p : Program, Program.ofJson? p.toJson = some p) ∧
    (∀ e : Expr, Expr.ofJson? e.toJson = some e) ∧
    (∀ s : Stmt, Stmt.ofJson? s.toJson = some s) ∧
    (∀ (place : Place) (t : Target), Target.ofJson? place t.toJson = some t) ∧
    (∀ (place : Place) (d : NameDef), NameDef.ofJson? place d.toJson = some d) ∧
    (∀ s : Span, Span.ofJson? s.toJson = some s) ∧
    (∀ o : Options, Options.ofJson? o.toJson = some o) :=
  ⟨Program.ofJson?_toJson, Expr.ofJson?_toJson, Stmt.ofJson?_toJson, Target.ofJson?_toJson,
    NameDef.ofJson?_toJson, Span.ofJson?_toJson, Options.ofJson?_toJson⟩

end PixelJava
