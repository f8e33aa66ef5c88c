/-
The library classes that emitted code calls by their simple names, the paths they are imported
from, and their methods.
-/
import PixelJava.Tree.Operator

namespace PixelJava.Java

/-- A class that emitted code may use. -/
inductive Library where
  /-- Output to the console. -/
  | console
  /-- Packing and unpacking of pixels. -/
  | pixels
  /-- Operators on images. -/
  | images
  /-- Images read from a file or an address. -/
  | files
  /-- The type that images are held as. -/
  | raster
  deriving DecidableEq

namespace Library

/-- All classes, in the order of their imports. -/
def all : List Library :=
  [.console, .pixels, .images, .files, .raster]

def name : Library → String
  | .console => "ConsoleIO"
  | .pixels => "PixelOps"
  | .images => "ImageOps"
  | .files => "FileURLIO"
  | .raster => "BufferedImage"

/-- The full name of a class; `home` is the package of those that are not Java's own. -/
def path (home : String) (lib : Library) : String :=
  match lib with
  | .raster => "java.awt.image.BufferedImage"
  | _ => home ++ "." ++ lib.name

end Library

/-- A method of a library class. -/
inductive Method where
  | write
  | writePixel
  /-- The value of a channel of a pixel. -/
  | channel (c : Channel)
  /-- A pixel with another value in a channel. -/
  | setChannel (c : Channel)
  /-- A pixel from its channels. -/
  | pack
  /-- A channel of a whole image. -/
  | extract (c : Channel)
  /-- The pixel of an image at a place. -/
  | getPixel
  /-- Changes the pixel of an image at a place. -/
  | setPixel
  /-- Writes an image into another. -/
  | copyInto
  /-- A copy of an image in another size. -/
  | copyAndResize
  | makeImage
  | readImage
  deriving DecidableEq

namespace Method

/-- The class that has the method. -/
def owner : Method → Library
  | .write | .writePixel => .console
  | .channel _ | .setChannel _ | .pack => .pixels
  | .extract _ | .getPixel | .setPixel | .copyInto | .copyAndResize | .makeImage => .images
  | .readImage => .files

def name : Method → String
  | .write => "write"
  | .writePixel => "writePixel"
  | .channel c => c.word
  | .setChannel c => "set" ++ c.title
  | .pack => "pack"
  | .extract c => "extract" ++ c.title
  | .getPixel => "getRGB"
  | .setPixel => "setRGB"
  | .copyInto => "copyInto"
  | .copyAndResize => "copyAndResize"
  | .makeImage => "makeImage"
  | .readImage => "readImage"

end Method

end PixelJava.Java
