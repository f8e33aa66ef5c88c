/-
JSON values. An object keeps its fields in order and may hold a name twice, so that a reader can
refuse the repetition. A well-formed text may hold tokens without a value: a number beyond the
double range, or a string with half a surrogate pair; they are `unreadable`, and may stand where
nobody looks at them.
-/

namespace PixelJava

/-- A JSON value. -/
inductive Json where
  | null
  | bool (b : Bool)
  /-- An integer of 64 bits, signed or unsigned. -/
  | int (n : Int)
  /-- Any other number, as written. -/
  | real (text : String)
  | str (s : String)
  | arr (items : List Json)
  | obj (fields : List (String × Json))
  /-- A well-formed token without a value. -/
  | unreadable

namespace Json

mutual

/-- How deep the brackets of a value nest. -/
def depth : Json → Nat
  | .arr items => depthItems items + 1
  | .obj fields => depthFields fields + 1
  | _ => 0

def depthItems : List Json → Nat
  | [] => 0
  | item :: rest => max item.depth (depthItems rest)

def depthFields : List (String × Json) → Nat
  | [] => 0
  | (_, value) :: rest => max value.depth (depthFields rest)

end

mutual

/-- Whether every token of a value has a value. -/
def isReadable : Json → Bool
  | .arr items => areReadable items
  | .obj fields => fieldsReadable fields
  | .unreadable => false
  | _ => true

def areReadable : List Json → Bool
  | [] => true
  | item :: rest => item.isReadable && areReadable rest

def fieldsReadable : List (String × Json) → Bool
  | [] => true
  | (_, value) :: rest => value.isReadable && fieldsReadable rest

end

def string? : Json → Option String
  | .str s => some s
  | _ => none

def bool? : Json → Option Bool
  | .bool b => some b
  | _ => none

/-- The value as a natural number of at most `bits` bits. -/
def nat? (bits : Nat) : Json → Option Nat
  | .int (.ofNat n) => if n < 1 <<< bits then some n else none
  | _ => none

def items? : Json → Option (List Json)
  | .arr items => some items
  | _ => none

end Json

end PixelJava
