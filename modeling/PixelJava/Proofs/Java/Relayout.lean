/-
Layout as a normal form. It looks at the trimmed lines of a text and at nothing else, and the text
it gives has the same trimmed lines; so two texts are laid out alike just if they have the same
trimmed lines, and a text that is laid out stays as it is. Nothing is asked of the text: its braces
need not match, its literals need not end, and it may hold any line ends and blanks.
-/
import PixelJava.Proofs.Java.Header

namespace PixelJava.Java

open Text

/-- The lines of a text without the blanks at their ends. -/
def trimmedLines (source : String) : List (List Char) :=
  (lines source.toList).map trim

theorem trim_trim (line : List Char) : trim (trim line) = trim line :=
  trim_eq_self (head?_trim line) (getLast?_trim line)

/-- The indentation of a line is trimmed from it again. -/
theorem trim_indent (n : Nat) (line : List Char) :
    trim (List.replicate n ' ' ++ line) = trim line := by
  rw [trim, List.dropWhile_append_of_pos fun _ => isBlank_of_mem_indent, trim]

theorem map_trim_layoutLines (depth : Nat) (ls : List (List Char)) :
    (layoutLines depth (ls.map trim)).map trim = ls.map trim := by
  induction ls generalizing depth with
  | nil => rfl
  | cons line rest ih =>
    rw [List.map_cons, layoutLines]
    split
    · rename_i hempty
      rw [List.map_cons, ih, List.isEmpty_iff.1 hempty]
      rfl
    · rw [List.map_cons, ih, trim_indent, trim_trim]

/-- Layout keeps the trimmed lines of a text. -/
theorem trimmedLines_layout (source : String) :
    trimmedLines (layout source) = trimmedLines source := by
  rw [trimmedLines, lines_layout]
  exact map_trim_layoutLines 0 (lines source.toList)

/-- Texts are laid out alike just if their lines differ in nothing but blanks at their ends. -/
theorem layout_eq_layout_iff {source source' : String} :
    layout source = layout source' ↔ trimmedLines source = trimmedLines source' := by
  constructor
  · intro h
    rw [← trimmedLines_layout source, h, trimmedLines_layout]
  · intro h
    have hlaid : layoutLines 0 (trimmedLines source) = layoutLines 0 (trimmedLines source') := by
      rw [h]
    exact congrArg (fun laid => String.join (laid.map fun line => String.ofList line ++ "\n")) hlaid

/-- Laying out a text that is laid out changes nothing, whatever the text was. -/
theorem layout_idempotent (source : String) : layout (layout source) = layout source :=
  layout_eq_layout_iff.2 (trimmedLines_layout source)

/-- A literal that is left open ends with its line; a carriage return inside a line stays. -/
example : layout "\x7d\x7b \x7b\"\x7d\r\n\tx\ry \r\n \n\x7d\x7d\x7d" =
    "\x7d\x7b \x7b\"\x7d\n    x\ry\n\n\x7d\x7d\x7d\n" := by
  decide +kernel

end PixelJava.Java
