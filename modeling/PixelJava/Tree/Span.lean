/-
Places in the source text. Positions only serve to report faults; a tree built by hand has the
zero span everywhere.
-/

namespace PixelJava

/-- A place in the source text. -/
structure Position where
  line : UInt32
  column : UInt32
  deriving DecidableEq

/-- The stretch of source text that a node stands for. -/
structure Span where
  start : Position
  stop : Position
  deriving DecidableEq

def Position.zero : Position :=
  ⟨0, 0⟩

def Span.zero : Span :=
  ⟨.zero, .zero⟩

/-- A position as `line:column`. -/
def Position.text (p : Position) : String :=
  toString p.line.toNat ++ ":" ++ toString p.column.toNat

end PixelJava
