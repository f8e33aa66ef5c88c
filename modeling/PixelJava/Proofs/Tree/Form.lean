/-
The JSON form of trees as data. Every record of the tree is a list of slots, each with a name and
with what it holds, and a way to make the tree from the values of the slots. The readers of trees
are the reader of records at these lists, and nothing they read depends on the levels they allow.
-/
import PixelJava.Proofs.Json.Record
import PixelJava.Tree.Decode

namespace PixelJava

open Json

/-! ## Forms -/

/-- What a value stands for. -/
inductive Form where
  | text
  | truth
  | position
  | type (place : Place)
  | binaryOp
  | unaryOp
  | color (place : Place)
  | span
  | channel (place : Place)
  | pixel
  | dimension
  | nameDef (place : Place)
  | target (place : Place)
  | block
  | branch
  | program
  | expr
  | stmt
  | list (item : Form)

abbrev Form.Value : Form → Type
  | .text => String
  | .truth => Bool
  | .position => Position
  | .type _ => Ty
  | .binaryOp => BinaryOp
  | .unaryOp => UnaryOp
  | .color _ => Channel
  | .span => Span
  | .channel _ => ChannelSelector
  | .pixel => PixelSelector
  | .dimension => Dimension
  | .nameDef _ => NameDef
  | .target _ => Target
  | .block => Block
  | .branch => Branch
  | .program => Program
  | .expr => Expr
  | .stmt => Stmt
  | .list item => List item.Value

/-- A reader for every form. -/
abbrev Reader := (f : Form) → Json → Option f.Value

/-- The readers of trees, on top of readers of expressions and of statements. -/
def Form.readWith (expr : Json → Option Expr) (stmt : Json → Option Stmt) : Reader
  | .text => Json.string?
  | .truth => Json.bool?
  | .position => Position.ofJson?
  | .type place => Ty.ofJson? place
  | .binaryOp => BinaryOp.ofJson? .inNode
  | .unaryOp => UnaryOp.ofJson? .inNode
  | .color place => Channel.ofJson? place
  | .span => Span.ofJson?
  | .channel place => ChannelSelector.ofJson? place
  | .pixel => PixelSelector.ofJsonWith? expr
  | .dimension => Dimension.ofJson?
  | .nameDef place => NameDef.ofJson? place
  | .target place => Target.ofJson? place
  | .block => Block.ofJsonWith? stmt
  | .branch => Branch.ofJsonWith? stmt
  | .program => Program.ofJson?
  | .expr => expr
  | .stmt => stmt
  | .list item => list? (readWith expr stmt item)

/-- The readers of trees. -/
def Form.read : Reader :=
  readWith Expr.ofJson? Stmt.ofJson?

/-! ## Records -/

/-- What a slot of a record holds, and whether it may be left out: a value that has to be there, one
that may be absent, a span that is zero by default, a list that is empty by default. -/
inductive Content where
  | required (form : Form)
  | optional (form : Form)
  | span
  | items (item : Form)

namespace Content

abbrev Value : Content → Type
  | .required form => form.Value
  | .optional form => Option form.Value
  | .span => Span
  | .items item => List item.Value

def hasDefault : Content → Bool
  | .required _ => false
  | _ => true

/-- The form of the values that are written for it. -/
def form : Content → Form
  | .required form | .optional form => form
  | .span => .span
  | .items item => .list item

/-- The content from what stands in the slot, `none` for one that is left out. -/
def read (reader : Reader) : (c : Content) → Option Json → Option c.Value
  | .required form, value => value.bind (reader form)
  | .optional form, value => optional? (reader form) value
  | .span, value => withDefault? .zero (reader .span) value
  | .items item, value => withDefault? [] (reader (.list item)) value

/-- Only a value of the content's form is given to the reader. -/
theorem read_congr {reader reader' : Reader} (c : Content) {value : Option Json}
    (h : ∀ v, value = some v → reader c.form v = reader' c.form v) :
    c.read reader value = c.read reader' value := by
  cases value with
  | none => cases c <;> rfl
  | some v =>
    have hv := h v rfl
    cases c with
    | required form => exact hv
    | optional form =>
      show optional? (reader form) (some v) = optional? (reader' form) (some v)
      unfold optional?
      split
      · rfl
      · rfl
      · rename_i v' _ he
        cases he
        exact congrArg (some <$> ·) hv
    | span => exact hv
    | items item => exact hv

end Content

/-- A named part of a record. -/
structure Slot where
  name : String
  content : Content

namespace Slot

def field (s : Slot) : Field :=
  ⟨s.name, s.content.hasDefault⟩

abbrev required (name : String) (form : Form) : Slot :=
  ⟨name, .required form⟩

abbrev optional (name : String) (form : Form) : Slot :=
  ⟨name, .optional form⟩

abbrev span : Slot :=
  ⟨"span", .span⟩

end Slot

/-- A function of the values of the slots, in their order. -/
abbrev Maker (α : Type) : List Slot → Type
  | [] => α
  | s :: rest => s.content.Value → Maker α rest

/-- What is made from the values that stand in the slots. -/
def readInto {α : Type} (reader : Reader) :
    (slots : List Slot) → Maker α slots → List (Option Json) → Option α
  | [], a, [] => some a
  | [], _, _ :: _ => none
  | _ :: _, _, [] => none
  | s :: rest, make, x :: xs =>
    (s.content.read reader x).bind fun value => readInto reader rest (make value) xs

section

variable {α : Type} (reader : Reader) {rest : List Slot} (xs : List (Option Json))

@[simp] theorem readInto_nil (a : α) : readInto reader [] a [] = some a :=
  rfl

@[simp] theorem readInto_required {name : String} {form : Form}
    (make : Maker α (.required name form :: rest)) (value : Json) :
    readInto reader (.required name form :: rest) make (some value :: xs) =
      (reader form value).bind fun a => readInto reader rest (make a) xs :=
  rfl

@[simp] theorem readInto_optional {name : String} {form : Form}
    (make : Maker α (.optional name form :: rest)) (x : Option Json) :
    readInto reader (.optional name form :: rest) make (x :: xs) =
      (optional? (reader form) x).bind fun a => readInto reader rest (make a) xs :=
  rfl

@[simp] theorem readInto_span (make : Maker α (.span :: rest)) (x : Option Json) :
    readInto reader (.span :: rest) make (x :: xs) =
      (withDefault? .zero (reader .span) x).bind fun a => readInto reader rest (make a) xs :=
  rfl

@[simp] theorem readInto_items {name : String} {item : Form}
    (make : Maker α (⟨name, .items item⟩ :: rest)) (x : Option Json) :
    readInto reader (⟨name, .items item⟩ :: rest) make (x :: xs) =
      (withDefault? [] (reader (.list item)) x).bind fun a => readInto reader rest (make a) xs :=
  rfl

end

/-- Readers that agree on the fields of a record read the same from it. -/
theorem readInto_congr {α : Type} {reader reader' : Reader} (slots : List Slot)
    (make : Maker α slots) (xs : List (Option Json))
    (h : ∀ f v, some v ∈ xs → reader f v = reader' f v) :
    readInto reader slots make xs = readInto reader' slots make xs := by
  induction slots generalizing xs with
  | nil => cases xs <;> rfl
  | cons s rest ih =>
    cases xs with
    | nil => rfl
    | cons x xs =>
      have hs := s.content.read_congr (fun v hv => h s.content.form v (hv ▸ List.mem_cons_self))
      rw [readInto, readInto, hs]
      congr 1
      funext value
      exact ih _ xs fun f v hv => h f v (List.mem_cons_of_mem _ hv)

/-- The form of a record. -/
structure Record (α : Type) where
  slots : List Slot
  make : Maker α slots

namespace Record

variable {α : Type}

def schema (r : Record α) : Schema :=
  r.slots.map Slot.field

def read (reader : Reader) (r : Record α) (value : Json) : Option α :=
  (r.schema.read value).bind (readInto reader r.slots r.make)

/-- Only values that nest less deep than the record are given to the reader. -/
theorem read_congr {reader reader' : Reader} (r : Record α) {value : Json}
    (h : ∀ f v, v.depth < value.depth → reader f v = reader' f v) :
    r.read reader value = r.read reader' value := by
  unfold read
  cases hread : r.schema.read value with
  | none => rfl
  | some xs => exact readInto_congr _ _ _ fun f v hv => h f v (Schema.depth_of_read hread hv)

end Record

/-! ## What readers match on -/

/-- A property of all lists of values that a schema can give: one for each slot, which is there if
the slot has to be. -/
def ForallShapes : List Slot → (List (Option Json) → Prop) → Prop
  | [], P => P []
  | s :: rest, P =>
    match s.content with
    | .required _ => ∀ value, ForallShapes rest fun xs => P (some value :: xs)
    | _ => ∀ value, ForallShapes rest fun xs => P (value :: xs)

theorem ForallShapes.cons {s : Slot} {rest : List Slot} {P : List (Option Json) → Prop}
    (h : ForallShapes (s :: rest) P) {x : Option Json}
    (hx : s.content.hasDefault = false → ∃ value, x = some value) :
    ForallShapes rest fun xs => P (x :: xs) := by
  obtain ⟨name, content⟩ := s
  cases content with
  | required form =>
    obtain ⟨value, rfl⟩ := hx rfl
    exact h value
  | optional form => exact h x
  | span => exact h x
  | items item => exact h x

/-- The fields of an object fill the slots in their order. -/
theorem ForallShapes.of_members {slots : List Slot} {P : List (Option Json) → Prop}
    (h : ForallShapes slots P) {fields : List (String × Json)} {xs : List (Option Json)}
    (hread : (slots.map Slot.field).mapM (Schema.member fields) = some xs) : P xs := by
  induction slots generalizing P xs with
  | nil =>
    cases hread
    exact h
  | cons s rest ih =>
    simp only [List.map_cons, List.mapM_cons, Option.bind_eq_bind, Option.bind_eq_some_iff] at hread
    obtain ⟨x, hx, ys, hys, he⟩ := hread
    cases he
    exact ih (h.cons (Schema.isSome_of_member hx)) hys

/-- The items of an array fill the slots in their order. -/
theorem ForallShapes.of_elements {slots : List Slot} {P : List (Option Json) → Prop}
    (h : ForallShapes slots P) {values : List Json} {xs : List (Option Json)}
    (hread : Schema.elements (slots.map Slot.field) values = some xs) : P xs := by
  induction slots generalizing P xs values with
  | nil =>
    cases values with
    | nil =>
      cases hread
      exact h
    | cons value values => cases hread
  | cons s rest ih =>
    cases values with
    | nil =>
      rw [List.map_cons, Schema.elements] at hread
      split at hread
      · rename_i hdefault
        obtain ⟨ys, hys, rfl⟩ := Option.map_eq_some_iff.1 hread
        exact ih (h.cons fun hno => absurd (hdefault.symm.trans hno) (by decide)) hys
      · cases hread
    | cons value values =>
      obtain ⟨ys, hys, rfl⟩ := Option.map_eq_some_iff.1 hread
      exact ih (h.cons fun _ => ⟨value, rfl⟩) hys

/-- A reader that matches on what the schema gives is the reader of the record if the two agree on
every list that can be given. -/
theorem Record.eq_read {α : Type} {reader : Reader} {r : Record α} {value : Json}
    {k : List (Option Json) → Option α} {result : Option α}
    (hresult : result = (r.schema.read value).bind k)
    (h : ForallShapes r.slots fun xs => k xs = readInto reader r.slots r.make xs) :
    result = r.read reader value := by
  rw [hresult, Record.read]
  cases hread : r.schema.read value with
  | none => rfl
  | some xs =>
    cases value with
    | obj fields => exact h.of_members hread
    | arr values => exact h.of_elements hread
    | _ => cases hread

/-! ## The records of trees -/

def Span.record : Record Span where
  slots := [.required "start" .position, .required "end" .position]
  make := Span.mk

def ChannelSelector.record (place : Place) : Record ChannelSelector where
  slots := [.required "color" (.color place), .span]
  make := ChannelSelector.mk

def PixelSelector.record : Record PixelSelector where
  slots := [.required "x" .expr, .required "y" .expr, .span]
  make := PixelSelector.mk

def Dimension.record : Record Dimension where
  slots := [.required "width" .expr, .required "height" .expr, .span]
  make := Dimension.mk

def NameDef.record (place : Place) : Record NameDef where
  slots := [.required "name" .text, .required "type" (.type place), .optional "dimension" .dimension,
    .span]
  make := NameDef.mk

def Target.record (place : Place) : Record Target where
  slots := [.required "name" .text, .optional "pixel" .pixel, .optional "channel" (.channel place),
    .required "type" (.type place), .span]
  make := Target.mk

def Block.record : Record Block where
  slots := [.required "body" (.list .stmt), .span]
  make := Block.mk

def Branch.record : Record Branch where
  slots := [.required "guard" .expr, .required "block" .block, .span]
  make := Branch.mk

def Program.record : Record Program where
  slots := [.required "name" .text, .required "type" (.type .outside),
    ⟨"params", .items (.nameDef .outside)⟩, .required "block" .block, .span]
  make := Program.mk

/-- A selection, of one pixel where coordinates are given. -/
def Expr.selection (primary : Expr) (coords : Option PixelSelector)
    (channel : Option ChannelSelector) (type : Ty) (span : Span) : Expr :=
  match coords with
  | none => .select primary channel type span
  | some coords => .selectAt primary coords.x coords.y coords.span channel type span

/-- The record of an expression of the given kind. -/
def Expr.record? : String → Option (Record Expr)
  | "Ident" => some ⟨[.required "name" .text, .required "type" (.type .inNode), .span], .ident⟩
  | "NumLit" => some ⟨[.required "text" .text, .span], .num⟩
  | "StringLit" => some ⟨[.required "text" .text, .span], .str⟩
  | "BooleanLit" => some ⟨[.required "value" .truth, .span], .bool⟩
  | "Const" => some ⟨[.required "name" .text, .required "type" (.type .inNode), .span], .const⟩
  | "Conditional" =>
    some ⟨[.required "guard" .expr, .required "true_expr" .expr, .required "false_expr" .expr,
      .required "type" (.type .inNode), .span], .cond⟩
  | "Binary" =>
    some ⟨[.required "left" .expr, .required "op" .binaryOp, .required "right" .expr,
      .required "type" (.type .inNode), .span], .binary⟩
  | "Unary" =>
    some ⟨[.required "op" .unaryOp, .required "expr" .expr, .required "type" (.type .inNode),
      .span], .unary⟩
  | "Postfix" =>
    some ⟨[.required "primary" .expr, .optional "pixel" .pixel,
      .optional "channel" (.channel .inNode), .required "type" (.type .inNode), .span], selection⟩
  | "ExpandedPixel" =>
    some ⟨[.required "red" .expr, .required "green" .expr, .required "blue" .expr, .span], .pixel⟩
  | _ => none

/-- The record of a statement of the given kind. -/
def Stmt.record? : String → Option (Record Stmt)
  | "Declaration" =>
    some ⟨[.required "name_def" (.nameDef .inNode), .optional "initializer" .expr, .span], .declare⟩
  | "Assignment" =>
    some ⟨[.required "lvalue" (.target .inNode), .required "expr" .expr, .span], .assign⟩
  | "Write" => some ⟨[.required "expr" .expr, .span], .write⟩
  | "Do" => some ⟨[.required "guarded_blocks" (.list .branch), .span], .loop⟩
  | "If" => some ⟨[.required "guarded_blocks" (.list .branch), .span], .choose⟩
  | "Return" => some ⟨[.required "expr" .expr, .span], .ret⟩
  | "Block" => some ⟨Block.record.slots, fun body span => .block (.mk body span)⟩
  | _ => none

/-- The record of the given form: of the given kind for a node, without one for all else. -/
def Form.record? : (f : Form) → Option String → Option (Record f.Value)
  | .span, none => some Span.record
  | .channel place, none => some (ChannelSelector.record place)
  | .pixel, none => some PixelSelector.record
  | .dimension, none => some Dimension.record
  | .nameDef place, none => some (NameDef.record place)
  | .target place, none => some (Target.record place)
  | .block, none => some Block.record
  | .branch, none => some Branch.record
  | .program, none => some Program.record
  | .expr, some kind => Expr.record? kind
  | .stmt, some kind => Stmt.record? kind
  | _, _ => none

/-- The slots of a record have different names, and no slot is named as a kind. -/
theorem Form.nodup_names {f : Form} {kind : Option String} {r : Record f.Value}
    (h : f.record? kind = some r) : (kindField :: r.slots.map Slot.name).Nodup := by
  unfold Form.record? at h
  split at h
  case h_10 =>
    unfold Expr.record? at h
    split at h <;> cases h <;> decide
  case h_11 =>
    unfold Stmt.record? at h
    split at h <;> cases h <;> decide
  -- the names of a record do not depend on its place
  case h_2 place => cases h; cases place <;> decide
  case h_5 place => cases h; cases place <;> decide
  case h_6 place => cases h; cases place <;> decide
  all_goals cases h <;> decide

/-! ## The readers of records -/

section

variable (expr : Json → Option Expr) (stmt : Json → Option Stmt) (value : Json)

theorem Span.ofJson?_eq : Span.ofJson? value = Span.record.read (Form.readWith expr stmt) value :=
  Record.eq_read rfl fun _ _ => rfl

theorem ChannelSelector.ofJson?_eq (place : Place) :
    ChannelSelector.ofJson? place value =
      (ChannelSelector.record place).read (Form.readWith expr stmt) value :=
  Record.eq_read rfl fun _ _ => rfl

theorem PixelSelector.ofJsonWith?_eq :
    PixelSelector.ofJsonWith? expr value =
      PixelSelector.record.read (Form.readWith expr stmt) value :=
  Record.eq_read rfl fun _ _ _ => rfl

theorem Dimension.ofJson?_eq :
    Dimension.ofJson? value = Dimension.record.read (Form.readWith Expr.ofJson? stmt) value :=
  Record.eq_read rfl fun _ _ _ => rfl

theorem NameDef.ofJson?_eq (place : Place) :
    NameDef.ofJson? place value = (NameDef.record place).read (Form.readWith expr stmt) value :=
  Record.eq_read rfl fun _ _ _ _ => rfl

theorem Target.ofJson?_eq (place : Place) :
    Target.ofJson? place value =
      (Target.record place).read (Form.readWith Expr.ofJson? stmt) value :=
  Record.eq_read rfl fun _ _ _ _ _ => rfl

theorem Block.ofJsonWith?_eq :
    Block.ofJsonWith? stmt value = Block.record.read (Form.readWith expr stmt) value :=
  Record.eq_read rfl fun _ _ => rfl

theorem Branch.ofJsonWith?_eq :
    Branch.ofJsonWith? stmt value =
      Branch.record.read (Form.readWith Expr.ofJson? stmt) value :=
  Record.eq_read rfl fun _ _ _ => rfl

theorem Program.ofJson?_eq :
    Program.ofJson? value = Program.record.read (Form.readWith expr Stmt.ofJson?) value :=
  Record.eq_read rfl fun _ _ _ _ _ => rfl

end

/-! ## Nodes -/

/-- The tree of a node, from the records of its kinds. -/
def readNode {α : Type} (record? : String → Option (Record α)) (reader : Reader) (value : Json) :
    Option α :=
  value.node?.bind fun (kind, record) => (record? kind).bind (·.read reader record)

theorem readNode_of_node? {α : Type} {record? : String → Option (Record α)} {reader : Reader}
    {value record : Json} {kind : String} (h : value.node? = some (kind, record)) :
    readNode record? reader value = (record? kind).bind (·.read reader record) := by
  rw [readNode, h, Option.bind_some]

/-- Only values that nest less deep than the node are given to the reader. -/
theorem readNode_congr {α : Type} {record? : String → Option (Record α)} {reader reader' : Reader}
    {value : Json} (h : ∀ f v, v.depth < value.depth → reader f v = reader' f v) :
    readNode record? reader value = readNode record? reader' value := by
  refine Option.bind_congr fun p hp => Option.bind_congr fun r _ => r.read_congr fun f v hv => ?_
  have := depth_of_node? hp
  exact h f v (by omega)

/-- One level of decoding reads a node and leaves its parts to the level below. -/
theorem Expr.decode_succ (stmt : Json → Option Stmt) (levels : Nat) (value : Json) :
    Expr.decode (levels + 1) value =
      readNode record? (Form.readWith (decode levels) stmt) value := by
  rw [decode, readNode]
  cases value.node? with
  | none => rfl
  | some p =>
    obtain ⟨kind, record⟩ := p
    dsimp only [Option.bind_eq_bind, Option.bind_some]
    split
    case h_11 => rw [record?, Option.bind_none] <;> assumption
    all_goals rw [record?, Option.bind_some]
    · exact Record.eq_read rfl fun _ _ _ => rfl
    · exact Record.eq_read rfl fun _ _ => rfl
    · exact Record.eq_read rfl fun _ _ => rfl
    · exact Record.eq_read rfl fun _ _ => rfl
    · exact Record.eq_read rfl fun _ _ _ => rfl
    · exact Record.eq_read rfl fun _ _ _ _ _ => rfl
    · exact Record.eq_read rfl fun _ _ _ _ _ => rfl
    · exact Record.eq_read rfl fun _ _ _ _ => rfl
    · exact Record.eq_read rfl fun _ _ _ _ _ => Option.bind_congr fun _ _ =>
        Option.bind_congr fun coords _ => Option.bind_congr fun _ _ => Option.bind_congr fun _ _ =>
          Option.bind_congr fun _ _ => by cases coords <;> rfl
    · exact Record.eq_read rfl fun _ _ _ _ => rfl

theorem Stmt.decode_succ (levels : Nat) (value : Json) :
    Stmt.decode (levels + 1) value =
      readNode record? (Form.readWith Expr.ofJson? (decode levels)) value := by
  rw [decode, readNode]
  cases value.node? with
  | none => rfl
  | some p =>
    obtain ⟨kind, record⟩ := p
    dsimp only [Option.bind_eq_bind, Option.bind_some]
    split
    case h_8 => rw [record?, Option.bind_none] <;> assumption
    all_goals rw [record?, Option.bind_some]
    · exact Record.eq_read rfl fun _ _ _ => rfl
    · exact Record.eq_read rfl fun _ _ _ => rfl
    · exact Record.eq_read rfl fun _ _ => rfl
    · exact Record.eq_read rfl fun _ _ => rfl
    · exact Record.eq_read rfl fun _ _ => rfl
    · exact Record.eq_read rfl fun _ _ => rfl
    · exact Record.eq_read (Option.bind_assoc ..) fun _ _ =>
        (Option.bind_assoc ..).trans (Option.bind_congr fun _ _ => Option.bind_assoc ..)

/-! ## Levels -/

/-- Readers of expressions and statements that agree up to a depth make readers that agree up to
it. -/
theorem Form.readWith_congr {expr expr' : Json → Option Expr} {stmt stmt' : Json → Option Stmt}
    {depth : Nat} (hexpr : ∀ v : Json, v.depth ≤ depth → expr v = expr' v)
    (hstmt : ∀ v : Json, v.depth ≤ depth → stmt v = stmt' v) (f : Form) {value : Json}
    (hvalue : value.depth ≤ depth) :
    f.readWith expr stmt value = f.readWith expr' stmt' value := by
  -- the parts of a value nest less deep than the value, whatever its form
  induction depth using Nat.strongRecOn generalizing expr expr' f value with
  | _ depth ih =>
    have hpart {e e' : Json → Option Expr} (he : ∀ v : Json, v.depth ≤ depth → e v = e' v)
        (f : Form) (v : Json) (hv : v.depth < value.depth) :
        f.readWith e stmt v = f.readWith e' stmt' v :=
      ih v.depth (by omega) (fun w hw => he w (by omega)) (fun w hw => hstmt w (by omega)) f
        (Nat.le_refl _)
    cases f with
    | pixel =>
      rw [readWith, readWith, PixelSelector.ofJsonWith?_eq expr stmt,
        PixelSelector.ofJsonWith?_eq expr' stmt']
      exact Record.read_congr _ (hpart hexpr)
    | block =>
      rw [readWith, readWith, Block.ofJsonWith?_eq expr stmt, Block.ofJsonWith?_eq expr' stmt']
      exact Record.read_congr _ (hpart hexpr)
    | branch =>
      rw [readWith, readWith, Branch.ofJsonWith?_eq, Branch.ofJsonWith?_eq]
      exact Record.read_congr _ (hpart fun _ _ => rfl)
    | expr => exact hexpr value hvalue
    | stmt => exact hstmt value hvalue
    | list item =>
      cases value with
      | arr items =>
        show items.mapM _ = items.mapM _
        exact mapM_congr fun v hv => hpart hexpr item v (depth_lt_arr hv)
      | _ => rfl
    | _ => rfl

/-- A reader of nodes that gives up one level for what is inside a node. -/
structure ByLevels {α : Type} (decode : Nat → Json → Option α)
    (record? : String → Option (Record α)) (reader : (Json → Option α) → Reader) : Prop where
  zero : ∀ value, decode 0 value = none
  succ : ∀ levels value,
    decode (levels + 1) value = readNode record? (reader (decode levels)) value
  congr : ∀ {part part' : Json → Option α} {depth : Nat},
    (∀ v : Json, v.depth ≤ depth → part v = part' v) →
      ∀ (f : Form) (v : Json), v.depth ≤ depth → reader part f v = reader part' f v

namespace ByLevels

variable {α : Type} {decode : Nat → Json → Option α} {record? : String → Option (Record α)}
  {reader : (Json → Option α) → Reader}

theorem decode_of_depth_eq_zero (h : ByLevels decode record? reader) {value : Json}
    (hvalue : value.depth = 0) (levels : Nat) : decode levels value = none := by
  cases levels with
  | zero => exact h.zero value
  | succ levels => rw [h.succ, readNode, node?_of_depth_eq_zero hvalue, Option.bind_none]

/-- Levels beyond the depth of a value do not matter. -/
theorem decode_eq (h : ByLevels decode record? reader) {value : Json} {levels levels' : Nat}
    (hl : value.depth ≤ levels) (hl' : value.depth ≤ levels') :
    decode levels value = decode levels' value := by
  induction levels generalizing value levels' with
  | zero =>
    have hzero : value.depth = 0 := by omega
    rw [h.decode_of_depth_eq_zero hzero, h.decode_of_depth_eq_zero hzero]
  | succ levels ih =>
    cases levels' with
    | zero =>
      have hzero : value.depth = 0 := by omega
      rw [h.decode_of_depth_eq_zero hzero, h.decode_of_depth_eq_zero hzero]
    | succ levels' =>
      rw [h.succ, h.succ]
      refine readNode_congr fun f v hv => h.congr (fun w hw => ?_) f v (Nat.le_refl _)
      exact ih (by omega) (by omega)

/-- With as many levels as its brackets, a value is read by the records of its kinds. -/
theorem decode_depth (h : ByLevels decode record? reader) (value : Json) :
    decode value.depth value = readNode record? (reader fun v => decode v.depth v) value := by
  rw [h.decode_eq (Nat.le_refl _) (Nat.le_succ _), h.succ]
  refine readNode_congr fun f v hv => h.congr (fun w hw => ?_) f v (Nat.le_refl _)
  exact h.decode_eq (by omega) (Nat.le_refl _)

end ByLevels

theorem Expr.byLevels :
    ByLevels Expr.decode Expr.record? fun expr => Form.readWith expr Stmt.ofJson? where
  zero _ := rfl
  succ := Expr.decode_succ Stmt.ofJson?
  congr h f _ hv := Form.readWith_congr h (fun _ _ => rfl) f hv

/-- Expressions are read by their records, with no bound on the levels. -/
theorem Expr.ofJson?_eq (value : Json) : Expr.ofJson? value = readNode record? Form.read value :=
  Expr.byLevels.decode_depth value

theorem Stmt.byLevels : ByLevels Stmt.decode Stmt.record? (Form.readWith Expr.ofJson?) where
  zero _ := rfl
  succ := Stmt.decode_succ
  congr h f _ hv := Form.readWith_congr (fun _ _ => rfl) h f hv

/-- Statements are read by their records, with no bound on the levels. -/
theorem Stmt.ofJson?_eq (value : Json) : Stmt.ofJson? value = readNode record? Form.read value :=
  Stmt.byLevels.decode_depth value

/-! ## Reading by the table -/

/-- A form that has a record is read by it. -/
theorem Form.read_of_record? {f : Form} {r : Record f.Value} (h : f.record? none = some r)
    (value : Json) : f.read value = r.read Form.read value := by
  cases f with
  | span => cases h; exact Span.ofJson?_eq ..
  | channel place => cases h; exact ChannelSelector.ofJson?_eq ..
  | pixel => cases h; exact PixelSelector.ofJsonWith?_eq ..
  | dimension => cases h; exact Dimension.ofJson?_eq ..
  | nameDef place => cases h; exact NameDef.ofJson?_eq ..
  | target place => cases h; exact Target.ofJson?_eq ..
  | block => cases h; exact Block.ofJsonWith?_eq ..
  | branch => cases h; exact Branch.ofJsonWith?_eq ..
  | program => cases h; exact Program.ofJson?_eq ..
  | _ => cases h

/-- A form that has a record for a kind is read as a node. -/
theorem Form.read_of_record?_kind {f : Form} {kind : String} {r : Record f.Value}
    (h : f.record? (some kind) = some r) (value : Json) :
    f.read value = readNode (fun kind => f.record? (some kind)) Form.read value := by
  cases f with
  | expr => exact Expr.ofJson?_eq value
  | stmt => exact Stmt.ofJson?_eq value
  | _ => cases h

end PixelJava
