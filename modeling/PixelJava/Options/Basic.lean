/-
What can be chosen about the emitted class. Every name among the options has to be one that Java
takes at its place.
-/
import PixelJava.Fault
import PixelJava.Java.Name

namespace PixelJava

structure Options where
  /-- The package of the emitted class; `none` leaves out the package clause. -/
  package : Option String
  /-- The package that library classes are imported from. -/
  libraryPackage : String
  /-- The name of the static method that holds the program. -/
  entryPoint : String
  /-- How deep blocks and expressions may nest. -/
  maxDepth : UInt64
  /-- Whether the emitted text is laid out. -/
  pretty : Bool
  deriving DecidableEq

namespace Options

def default : Options where
  package := some "edu.ufl.cise.cop4020fa23"
  libraryPackage := "edu.ufl.cise.cop4020fa23.runtime"
  entryPoint := "apply"
  maxDepth := 256
  pretty := true

/-- The first name that Java would not take. -/
def invalidName? (o : Options) : Option String :=
  match o.package.filter (!Java.isPackage ·) with
  | some package => some package
  | none =>
    if !Java.isPackage o.libraryPackage then some o.libraryPackage
    else if !Java.isName o.entryPoint then some o.entryPoint
    else none

/-- Reports the first invalid name; options have no position. -/
def validate (o : Options) : Except Fault Unit :=
  match o.invalidName? with
  | some name => .error ⟨.invalidName name, .zero⟩
  | none => .ok ()

end Options

end PixelJava
