/-
JSON values from their text. The brackets that are still open are kept as a stack, so a text may
nest as deep as it likes.
-/
import PixelJava.Json.Token

namespace PixelJava.Json

/-- An open bracket with what has been read inside it, last first. -/
inductive Open where
  | arr (items : List Json)
  | obj (fields : List (String × Json))
  /-- An object that waits for the value of a field. -/
  | field (fields : List (String × Json)) (name : String)
  /-- An object with an unreadable field name, which has no value itself. -/
  | lost
  /-- Such an object that waits for the value of a field. -/
  | lostField

/-- What may come next. -/
inductive Expect where
  | value
  /-- A value or the end of an array that has just been opened. -/
  | valueOrEnd
  /-- A field name or the end of an object that has just been opened. -/
  | nameOrEnd
  | name
  | colon
  /-- A comma or the end of the innermost bracket. -/
  | separator
  /-- Nothing: the value is complete. -/
  | nothing (value : Json)

/-- What is known between two tokens. -/
structure ParseState where
  expect : Expect
  opened : List Open

namespace ParseState

/-- Puts a complete value where it belongs. -/
def put (value : Json) : List Open → Option ParseState
  | [] => some ⟨.nothing value, []⟩
  | .arr items :: rest => some ⟨.separator, .arr (value :: items) :: rest⟩
  | .field fields name :: rest => some ⟨.separator, .obj ((name, value) :: fields) :: rest⟩
  | .lostField :: rest => some ⟨.separator, .lost :: rest⟩
  | _ => none

/-- Ends the innermost bracket with the given token. -/
def close (token : Token) : List Open → Option ParseState
  | .arr items :: rest =>
    match token with
    | .closeArray => put (.arr items.reverse) rest
    | _ => none
  | .obj fields :: rest =>
    match token with
    | .closeObject => put (.obj fields.reverse) rest
    | _ => none
  | .lost :: rest =>
    match token with
    | .closeObject => put .unreadable rest
    | _ => none
  | _ => none

/-- Starts a value with the given token. -/
def start (token : Token) (opened : List Open) : Option ParseState :=
  match token with
  | .atom value => put value opened
  | .openArray => some ⟨.valueOrEnd, .arr [] :: opened⟩
  | .openObject => some ⟨.nameOrEnd, .obj [] :: opened⟩
  | _ => none

/-- Takes a field name for the innermost object. -/
def setName (token : Token) (opened : List Open) : Option ParseState :=
  match token, opened with
  | .atom (.str name), .obj fields :: rest => some ⟨.colon, .field fields name :: rest⟩
  | .atom .unreadable, .obj _ :: rest => some ⟨.colon, .lostField :: rest⟩
  | .atom (.str _), .lost :: rest => some ⟨.colon, .lostField :: rest⟩
  | .atom .unreadable, .lost :: rest => some ⟨.colon, .lostField :: rest⟩
  | _, _ => none

/-- What follows a comma in the innermost bracket. -/
def afterComma (opened : List Open) : Option ParseState :=
  match opened with
  | .arr _ :: _ => some ⟨.value, opened⟩
  | .obj _ :: _ | .lost :: _ => some ⟨.name, opened⟩
  | _ => none

def step (s : ParseState) (token : Token) : Option ParseState :=
  match s.expect with
  | .value => start token s.opened
  | .valueOrEnd =>
    match token with
    | .closeArray => close token s.opened
    | _ => start token s.opened
  | .nameOrEnd =>
    match token with
    | .closeObject => close token s.opened
    | _ => setName token s.opened
  | .name => setName token s.opened
  | .colon =>
    match token with
    | .colon => some ⟨.value, s.opened⟩
    | _ => none
  | .separator =>
    match token with
    | .comma => afterComma s.opened
    | _ => close token s.opened
  | .nothing _ => none

end ParseState

/-- The value that a list of tokens stands for. -/
def ofTokens? (tokens : List Token) : Option Json := do
  let last ← tokens.foldlM ParseState.step ⟨.value, []⟩
  match last.expect with
  | .nothing value => some value
  | _ => none

/-- The value that a text stands for. -/
def parse? (text : String) : Option Json := do
  ofTokens? (← Token.ofText? text.toList)

end PixelJava.Json
