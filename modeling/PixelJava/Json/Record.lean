/-
Records in JSON. A record is an object of named fields, or an array of the fields in declaration
order. Unknown names in an object are skipped; a known name must not occur twice, and may be left
out only if its field has a default. An array may leave off fields with a default at its end. A
node is a record that says in `kind` which of several it is; as an array it starts with its kind.
-/
import PixelJava.Json.Basic

namespace PixelJava.Json

/-- A field of a record. -/
structure Field where
  name : String
  /-- Whether the field may be left out. -/
  hasDefault : Bool
  deriving DecidableEq

/-- A field that has to be there. -/
def required (name : String) : Field :=
  ⟨name, false⟩

/-- A field that may be left out. -/
def defaulted (name : String) : Field :=
  ⟨name, true⟩

/-- The fields of a record, in declaration order. -/
abbrev Schema := List Field

namespace Schema

/-- The value of a field of an object, `none` inside for one that is left out. -/
def member (fields : List (String × Json)) (field : Field) : Option (Option Json) :=
  match fields.filter (·.1 == field.name) with
  | [] => if field.hasDefault then some none else none
  | [(_, value)] => some (some value)
  | _ => none

/-- The values of the fields of an array. -/
def elements : Schema → List Json → Option (List (Option Json))
  | [], [] => some []
  | [], _ :: _ => none
  | field :: rest, [] => if field.hasDefault then (none :: ·) <$> elements rest [] else none
  | _ :: rest, value :: values => (some value :: ·) <$> elements rest values

/-- The values of a record's fields in declaration order, `none` inside for one that is left
out. -/
def read (schema : Schema) : Json → Option (List (Option Json))
  | .obj fields => schema.mapM (member fields)
  | .arr values => schema.elements values
  | _ => none

end Schema

/-- The name of the field that holds a node's kind. -/
def kindField : String :=
  "kind"

/-- The kind of a node, and the record that is left without it. A kind is given by its name; it is
assumed that no node gives it by a number. -/
def node? : Json → Option (String × Json)
  | .obj fields =>
    match fields.filter (·.1 == kindField) with
    | [(_, .str kind)] => some (kind, .obj (fields.filter (·.1 != kindField)))
    | _ => none
  | .arr (.str kind :: values) => some (kind, .arr values)
  | _ => none

/-- Whether a record stands on its own or inside a node. -/
inductive Place where
  | outside
  | inNode
  deriving DecidableEq

/-- Whether a value can stand for nothing: `null`, and inside a node the empty object too. -/
def isUnit (place : Place) : Json → Bool
  | .null => true
  | .obj [] => place = .inNode
  | _ => false

/-- One of several named values: its name, or an object whose only field has that name and holds
nothing. -/
def choice? {α : Type} (all : List α) (name : α → String) (place : Place) : Json → Option α
  | .str s => all.find? (name · == s)
  | .obj [(s, value)] => if value.isUnit place then all.find? (name · == s) else none
  | _ => none

/-- A field that may be left out or `null`, and then holds nothing. -/
def optional? {α : Type} (decode : Json → Option α) : Option Json → Option (Option α)
  | none => some none
  | some .null => some none
  | some value => some <$> decode value

/-- A field that has `value` if it is left out. -/
def withDefault? {α : Type} (value : α) (decode : Json → Option α) : Option Json → Option α
  | none => some value
  | some value => decode value

/-- An array of values of one kind. -/
def list? {α : Type} (decode : Json → Option α) (value : Json) : Option (List α) := do
  (← value.items?).mapM decode

end PixelJava.Json
