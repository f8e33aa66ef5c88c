/-
Options as JSON. A field that is left out keeps its default.
-/
import PixelJava.Json.Record
import PixelJava.Options.Basic

namespace PixelJava.Options

open Json

def toJson (o : Options) : Json :=
  .obj [("package", match o.package with
      | some package => .str package
      | none => .null),
    ("runtime_package", .str o.libraryPackage), ("entry_point", .str o.entryPoint),
    ("max_nesting_depth", .int o.maxDepth.toNat), ("pretty", .bool o.pretty)]

def schema : Schema :=
  [defaulted "package", defaulted "runtime_package", defaulted "entry_point",
    defaulted "max_nesting_depth", defaulted "pretty"]

/-- A package clause: a name, or `null` for none. -/
def packageOfJson? : Json → Option (Option String)
  | .null => some none
  | .str package => some (some package)
  | _ => none

def ofJson? (value : Json) : Option Options := do
  let [package, libraryPackage, entryPoint, maxDepth, pretty] ← schema.read value | none
  return {
    package := ← withDefault? default.package packageOfJson? package
    libraryPackage := ← withDefault? default.libraryPackage Json.string? libraryPackage
    entryPoint := ← withDefault? default.entryPoint Json.string? entryPoint
    maxDepth := ← withDefault? default.maxDepth (fun v => Nat.toUInt64 <$> v.nat? 64) maxDepth
    pretty := ← withDefault? default.pretty Json.bool? pretty }

end PixelJava.Options
