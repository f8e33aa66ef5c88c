/-
Values and tables of TOML. A table remembers how it came about, since that decides what may still
be added to it: a header may fill in a table that was only implied by a longer header, a dotted key
may extend a table made by dotted keys, and nothing may be defined twice.
-/

namespace PixelJava.Toml

/-- How a table came about. -/
inductive TableKind where
  /-- By a header of its own. -/
  | header
  /-- On the way to a longer header. -/
  | implied
  /-- By a dotted key. -/
  | dotted
  /-- In braces; such a table is complete. -/
  | inline
  deriving DecidableEq

/-- A TOML value. A float is kept as the digits and the power of ten that it is written with, a
date as written. -/
inductive Value where
  | string (s : String)
  | integer (n : Int)
  | boolean (b : Bool)
  | float (text : String)
  | date (text : String)
  | array (items : List Value)
  | table (kind : TableKind) (entries : List (String × Value))
  /-- An array of tables made by headers, oldest first. -/
  | tables (elements : List (List (String × Value)))

/-- What a table holds, oldest first. -/
abbrev Entries := List (String × Value)

namespace Entries

def find? (entries : Entries) (key : String) : Option Value :=
  entries.lookup key

/-- Replaces the value of a key that is there. -/
def replace (entries : Entries) (key : String) (value : Value) : Entries :=
  entries.map fun (k, old) => if k == key then (k, value) else (k, old)

/-- Adds `key = value` in the table that a dotted key leads to. The table has to be made by dotted
keys, which `extensible` says of the table at hand, and must not have the key. -/
def put (extensible : Bool) (path : List String) (key : String) (value : Value)
    (entries : Entries) : Option Entries :=
  match path with
  | [] =>
    if extensible && (entries.find? key).isNone then some (entries ++ [(key, value)]) else none
  | part :: rest =>
    match entries.find? part with
    | none => do return entries ++ [(part, .table .dotted (← put true rest key value []))]
    | some (.table .dotted inner) => do
      return entries.replace part (.table .dotted (← put true rest key value inner))
    | some (.table .implied inner) => do
      return entries.replace part (.table .implied (← put false rest key value inner))
    | some (.tables elements) => do
      let inner ← put false rest key value (← elements.getLast?)
      return entries.replace part (.tables (elements.dropLast ++ [inner]))
    | some _ => none

/-- Changes the table that a header's path leads to; tables missing on the way are implied. An
array of tables stands for its last element. -/
def change (path : List String) (f : Entries → Option Entries) (entries : Entries) :
    Option Entries :=
  match path with
  | [] => f entries
  | part :: rest =>
    match entries.find? part with
    | none => do return entries ++ [(part, .table .implied (← change rest f []))]
    | some (.table .inline _) => none
    | some (.table kind inner) => do
      return entries.replace part (.table kind (← change rest f inner))
    | some (.tables elements) => do
      let inner ← change rest f (← elements.getLast?)
      return entries.replace part (.tables (elements.dropLast ++ [inner]))
    | some _ => none

/-- Defines the table `key` by a header. -/
def define (key : String) (entries : Entries) : Option Entries :=
  match entries.find? key with
  | none => some (entries ++ [(key, .table .header [])])
  | some (.table .implied inner) => some (entries.replace key (.table .header inner))
  | some _ => none

/-- Adds an element to the array of tables `key` by a header. -/
def extend (key : String) (entries : Entries) : Option Entries :=
  match entries.find? key with
  | none => some (entries ++ [(key, .tables [[]])])
  | some (.tables elements) => some (entries.replace key (.tables (elements ++ [[]])))
  | some _ => none

end Entries

end PixelJava.Toml
