/-
The predefined constants: the greatest channel value and the named colors. A color is the word
`0xFFrrggbb` read as a signed 32-bit number, so it is negative.
-/
import PixelJava.Tree.Ty

namespace PixelJava

/-- The opaque color with these components, packed into a signed word. -/
def packColor (red green blue : UInt8) : Int :=
  (red.toNat * 65536 + green.toNat * 256 + blue.toNat : Nat) - 16777216

/-- A predefined name with its value. -/
structure Constant where
  name : String
  value : Int
  type : Ty
  deriving DecidableEq

namespace Constant

def color (name : String) (red green blue : UInt8) : Constant :=
  ⟨name, packColor red green blue, .pixel⟩

/-- All constants, by name. -/
def all : List Constant := [
  color "BLACK" 0 0 0,
  color "BLUE" 0 0 255,
  color "CYAN" 0 255 255,
  color "DARK_GRAY" 64 64 64,
  color "GRAY" 128 128 128,
  color "GREEN" 0 255 0,
  color "LIGHT_GRAY" 192 192 192,
  color "MAGENTA" 255 0 255,
  color "ORANGE" 255 200 0,
  color "PINK" 255 175 175,
  color "RED" 255 0 0,
  color "WHITE" 255 255 255,
  color "YELLOW" 255 255 0,
  ⟨"Z", 255, .int⟩]

def find? (name : String) : Option Constant :=
  all.find? (·.name == name)

end Constant

end PixelJava
