/-
The declaration table as JSON.
-/
import PixelJava.Scope
import PixelJava.Tree.Encode

namespace PixelJava

def Declared.toJson (d : Declared) : Json :=
  .obj [("source_name", .str d.sourceName), ("host_name", .str d.javaName),
    ("type", d.type.toJson), ("span", d.span.toJson), ("depth", .int d.depth)]

def tableToJson (table : List Declared) : Json :=
  .arr (table.map Declared.toJson)

end PixelJava
