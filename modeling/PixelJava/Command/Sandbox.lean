/-
Surroundings with all files under one directory, and the directories around them. A path leads from
directory to directory by the parts between its slashes; one that leaves the outermost directory
leads nowhere. Every file can be read, and a file can be written in any directory that exists, where
no directory has its name.
-/
import PixelJava.Command.World

namespace PixelJava.Command

/-- Files with the paths they were given, and their texts. -/
abbrev Files := List (String × String)

namespace Files

/-- Where a file or a directory stands: its name, then those of the directories around it. -/
abbrev Place := List (List Char)

/-- Follows the parts of a path from `here`, which has to be a directory if anything follows. -/
def follow (isDirectory : Place → Bool) (here : Place) : List (List Char) → Option Place
  | [] => some here
  | part :: rest =>
    if !isDirectory here then none
    else if part = [] || part = ['.'] then follow isDirectory here rest
    else if part = ['.', '.'] then
      match here with
      | [] => none
      | _ :: outer => follow isDirectory outer rest
    else follow isDirectory (part :: here) rest

/-- Where a relative path leads. -/
def placeOf? (isDirectory : Place → Bool) (path : String) : Option Place :=
  let parts := path.toList.splitOn '/'
  if parts.head? == some [] then none else follow isDirectory [] parts

/-- Where a file's own path leads; the directories on it are there. -/
def ownPlace? (path : String) : Option Place :=
  placeOf? (fun _ => true) path

/-- Whether a directory stands at a place: the outermost one, or one around a file. -/
def isDirectory (files : Files) (place : Place) : Bool :=
  place.isEmpty || files.any fun (path, _) =>
    match ownPlace? path with
    | some (_ :: around) => place.isSuffixOf around
    | _ => false

/-- The disk with these files. -/
def disk (files : Files) : Disk Place where
  lead := placeOf? files.isDirectory
  readable _ := true
  writable place := !files.isDirectory place
  contents place :=
    (files.find? fun (own, _) => ownPlace? own == some place).map fun (_, text) => text.toUTF8

end Files

/-- Surroundings in one directory. -/
structure Sandbox where
  files : Files
  /-- The standard input, unless it is no text. -/
  input : Option String
  /-- What has been printed. -/
  printed : String

namespace Sandbox

def world (s : Sandbox) : World Files.Place :=
  ⟨s.files.disk, s.input.map String.toUTF8, s.printed⟩

/-- How a run of the command in the directory ends, and what it leaves. -/
def run (s : Sandbox) (arguments : List String) : Outcome × World Files.Place :=
  s.world.run arguments

end Sandbox

end PixelJava.Command
