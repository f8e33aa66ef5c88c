/-
The command's surroundings: a disk, a standard input, and what has been printed. How paths lead to
places, and which places may be read and written, is up to the disk; files hold bytes, which need
not be text.
-/
import PixelJava.Command.Run

namespace PixelJava.Command

/-- A disk. A run changes nothing but contents: it makes no directories and no links, and it leaves
permissions alone. -/
structure Disk (Place : Type) where
  /-- Where a path leads, absolute or not, and whether or not a file is there. -/
  lead : String → Option Place
  /-- Whether the file at a place may be read. -/
  readable : Place → Bool
  /-- Whether a file may be written at a place, over another one or as a new one. -/
  writable : Place → Bool
  /-- The bytes of the file at a place, if there is one. -/
  contents : Place → Option ByteArray

namespace Disk

variable {Place : Type}

/-- The text of the file that a path leads to. -/
def read? (d : Disk Place) (path : String) : Option String := do
  let place ← d.lead path
  if d.readable place then String.fromUTF8? (← d.contents place) else none

/-- The place that is written to under a path. -/
def target? (d : Disk Place) (path : String) : Option Place :=
  (d.lead path).filter d.writable

/-- The disk with a text in the file at a place. -/
def put [DecidableEq Place] (d : Disk Place) (place : Place) (text : String) : Disk Place :=
  { d with contents := fun other => if other = place then some text.toUTF8 else d.contents other }

/-- The disk after writing a text under a path, if that is possible. -/
def write? [DecidableEq Place] (d : Disk Place) (path text : String) : Option (Disk Place) := do
  return d.put (← d.target? path) text

end Disk

/-- The surroundings of a run. -/
structure World (Place : Type) where
  files : Disk Place
  /-- The bytes of the standard input, if it can be read. -/
  input : Option ByteArray
  /-- What has been printed. -/
  printed : String

namespace World

variable {Place : Type} [DecidableEq Place]

/-- Reading, writing and printing. -/
def access : Access (StateM (World Place)) where
  readFile path := do return (← get).files.read? path
  readInput := do return (← get).input.bind String.fromUTF8?
  writeFile path text := do
    match (← get).files.write? path text with
    | some files =>
      modify ({ · with files := files })
      return true
    | none => return false
  print text := modify fun w => { w with printed := w.printed ++ text }

/-- How a run of the command ends, and what it leaves. -/
def run (w : World Place) (arguments : List String) : Outcome × World Place :=
  (Command.run access arguments).run w

end World

end PixelJava.Command
