/-
Lines and trimmed lines: lines that are written one after the other are read back, and trimming
takes nothing but blanks from the ends of a line.
-/
import PixelJava.Text.Lines
import Mathlib.Data.List.TakeWhile

namespace PixelJava.Text

/-! ## Lines -/

/-- Lines written one after the other. -/
def unlines (lines : List (List Char)) : List Char :=
  lines.flatMap (· ++ ['\n'])

theorem unlines_cons (line : List Char) (lines : List (List Char)) :
    unlines (line :: lines) = line ++ '\n' :: unlines lines := by
  simp [unlines]

theorem unlines_append (lines lines' : List (List Char)) :
    unlines (lines ++ lines') = unlines lines ++ unlines lines' :=
  List.flatMap_append

theorem linesFrom_append {line : List Char} (h : '\n' ∉ line) (seen rest : List Char) :
    linesFrom seen (line ++ rest) = linesFrom (line.reverse ++ seen) rest := by
  induction line generalizing seen with
  | nil => rfl
  | cons c line ih =>
    have hc : c ≠ '\n' := fun heq => h (heq ▸ List.mem_cons_self)
    have hline : '\n' ∉ line := fun hmem => h (List.mem_cons_of_mem c hmem)
    rw [List.cons_append, linesFrom, if_neg hc, ih hline, List.reverse_cons, List.append_assoc,
      List.singleton_append]

/-- Whether a text can be a line: it has no line feed, and no carriage return at its end that would
belong to the ending. -/
def IsLine (line : List Char) : Prop :=
  '\n' ∉ line ∧ line.getLast? ≠ some '\r'

theorem dropReturn_reverse {line : List Char} (h : line.getLast? ≠ some '\r') :
    dropReturn line.reverse = line.reverse := by
  unfold dropReturn
  split
  · rename_i rest hreverse
    have hline : line = rest.reverse ++ ['\r'] := by
      rw [← List.reverse_reverse line, hreverse, List.reverse_cons]
    rw [hline, List.getLast?_concat] at h
    exact absurd rfl h
  · rfl

/-- A line at the front of a text is its first. -/
theorem lines_cons {line : List Char} (h : IsLine line) (rest : List Char) :
    lines (line ++ '\n' :: rest) = line :: lines rest := by
  unfold lines
  rw [linesFrom_append h.1, List.append_nil, linesFrom, if_pos rfl, dropReturn_reverse h.2,
    List.reverse_reverse]

/-- Lines that are written are read back, and what stands behind them is read on its own. -/
theorem lines_unlines_append {ls : List (List Char)} (h : ∀ line ∈ ls, IsLine line)
    (rest : List Char) : lines (unlines ls ++ rest) = ls ++ lines rest := by
  induction ls with
  | nil => rfl
  | cons line ls ih =>
    have hline := h line List.mem_cons_self
    rw [unlines_cons, List.append_assoc, List.cons_append, lines_cons hline]
    exact congrArg (line :: ·) (ih fun l hl => h l (List.mem_cons_of_mem line hl))

/-- The first line feed of a text divides it in one way. -/
theorem eq_of_append_newline {line line' rest rest' : List Char} (hline : '\n' ∉ line)
    (hline' : '\n' ∉ line') (h : line ++ '\n' :: rest = line' ++ '\n' :: rest') :
    line = line' ∧ rest = rest' := by
  induction line generalizing line' with
  | nil =>
    cases line' with
    | nil => exact ⟨rfl, (List.cons.inj h).2⟩
    | cons c line' => exact absurd ((List.cons.inj h).1 ▸ List.mem_cons_self) hline'
  | cons c line ih =>
    cases line' with
    | nil => exact absurd ((List.cons.inj h).1 ▸ List.mem_cons_self) hline
    | cons c' line' =>
      obtain ⟨rfl, htail⟩ := List.cons.inj h
      obtain ⟨rfl, hrest⟩ := ih (fun hmem => hline (List.mem_cons_of_mem c hmem))
        (fun hmem => hline' (List.mem_cons_of_mem c hmem)) htail
      exact ⟨rfl, hrest⟩

/-- The text has the line behind `before`: it stands between line ends or the ends of the text. -/
def LineAt (text before line : List Char) : Prop :=
  (before = [] ∨ before.getLast? = some '\n') ∧ '\n' ∉ line ∧
    ∃ after, text = before ++ (line ++ after) ∧ (after = [] ∨ after.head? = some '\n')

/-- A line of a text that is not empty is one of the lines that the text is written of. -/
theorem exists_of_lineAt {ls : List (List Char)} (h : ∀ line ∈ ls, '\n' ∉ line)
    {before line : List Char} (hline : LineAt (unlines ls) before line) (hne : line ≠ []) :
    ∃ front back, ls = front ++ line :: back ∧ before = unlines front := by
  obtain ⟨hbefore, hline, after, htext, hafter⟩ := hline
  induction ls generalizing before with
  | nil => simp [unlines, hne] at htext
  | cons first rest ih =>
    rw [List.forall_mem_cons] at h
    rw [unlines_cons] at htext
    rcases hbefore with rfl | hlast
    · -- the line is the first one, which ends with the first line feed
      have hend : ∃ after', after = '\n' :: after' := by
        cases after with
        | nil =>
          rw [List.nil_append, List.append_nil] at htext
          exact absurd (htext ▸ List.mem_append_right first List.mem_cons_self) hline
        | cons c after' =>
          rcases hafter with hnil | hc
          · cases hnil
          · exact ⟨after', by rw [Option.some.inj hc]⟩
      obtain ⟨after', rfl⟩ := hend
      obtain ⟨rfl, -⟩ := eq_of_append_newline h.1 hline htext
      exact ⟨[], rest, rfl, rfl⟩
    · -- the first line is the part before the line up to a line feed
      obtain ⟨line', before', rfl, hline'⟩ :=
        List.eq_append_cons_of_mem (List.mem_of_getLast? hlast)
      rw [List.append_assoc, List.cons_append] at htext
      obtain ⟨rfl, hrest⟩ := eq_of_append_newline h.1 hline' htext
      have hbefore' : before' = [] ∨ before'.getLast? = some '\n' := by
        cases before' with
        | nil => exact .inl rfl
        | cons c before' =>
          exact .inr (by simpa [List.getLast?_append, List.getLast?_cons] using hlast)
      obtain ⟨front, back, rfl, rfl⟩ := ih h.2 hbefore' hrest
      exact ⟨first :: front, back, rfl, (unlines_cons first front).symm⟩

theorem newline_notMem_linesFrom {seen : List Char} (hseen : '\n' ∉ seen) (text : List Char) :
    ∀ line ∈ linesFrom seen text, '\n' ∉ line := by
  induction text generalizing seen with
  | nil =>
    intro line hline
    unfold linesFrom at hline
    split at hline
    · cases hline
    · rw [List.mem_singleton.1 hline]
      simpa using hseen
  | cons c rest ih =>
    intro line hline
    unfold linesFrom at hline
    split at hline
    · rcases List.mem_cons.1 hline with rfl | hline
      · intro hmem
        refine hseen ?_
        unfold dropReturn at hmem
        split at hmem
        · exact List.mem_cons_of_mem _ (List.mem_reverse.1 hmem)
        · exact List.mem_reverse.1 hmem
      · exact ih List.not_mem_nil line hline
    · rename_i hc
      refine ih (fun hmem => ?_) line hline
      rcases List.mem_cons.1 hmem with hnew | hmem
      · exact hc hnew.symm
      · exact hseen hmem

/-- No line has a newline in it. -/
theorem newline_notMem_lines (text : List Char) : ∀ line ∈ lines text, '\n' ∉ line :=
  newline_notMem_linesFrom List.not_mem_nil text

/-! ## Trimmed lines -/

/-- Behind the blanks at its front a line has the trimmed line and the blanks at its end. -/
theorem dropWhile_eq_trim_append (line : List Char) :
    line.dropWhile isBlank =
      trim line ++ ((line.dropWhile isBlank).reverse.takeWhile isBlank).reverse := by
  have hback := List.takeWhile_append_dropWhile (p := isBlank) (l := (line.dropWhile isBlank).reverse)
  rw [trim, ← List.reverse_append, hback, List.reverse_reverse]

/-- What is trimmed from a line are blanks at its ends. -/
theorem exists_trim (line : List Char) :
    ∃ before after, line = before ++ (trim line ++ after) ∧
      (∀ c ∈ before, isBlank c = true) ∧ ∀ c ∈ after, isBlank c = true := by
  refine ⟨line.takeWhile isBlank, ((line.dropWhile isBlank).reverse.takeWhile isBlank).reverse,
    ?_, fun c hc => ?_, fun c hc => ?_⟩
  · rw [← dropWhile_eq_trim_append, List.takeWhile_append_dropWhile]
  · exact List.mem_takeWhile_imp hc
  · exact List.mem_takeWhile_imp (List.mem_reverse.1 hc)

theorem head?_trim (line : List Char) (c : Char) (h : (trim line).head? = some c) :
    isBlank c = false := by
  have hhead := List.head?_dropWhile_not isBlank line
  rw [dropWhile_eq_trim_append, List.head?_append, h] at hhead
  simpa using hhead

theorem getLast?_trim (line : List Char) (c : Char) (h : (trim line).getLast? = some c) :
    isBlank c = false := by
  unfold trim at h
  rw [List.getLast?_reverse] at h
  have hhead := List.head?_dropWhile_not isBlank (line.dropWhile isBlank).reverse
  rw [h] at hhead
  simpa using hhead

theorem isBlank_of_mem_indent {n : Nat} {c : Char} (h : c ∈ List.replicate n ' ') :
    isBlank c = true := by
  rw [List.eq_of_mem_replicate h]
  decide

theorem dropWhile_isBlank {text : List Char} (h : ∀ c, text.head? = some c → isBlank c = false) :
    text.dropWhile isBlank = text := by
  cases text with
  | nil => rfl
  | cons c rest => rw [List.dropWhile_cons_of_neg (by simp [h c rfl])]

/-- Trimming takes nothing from a line without blanks at its ends. -/
theorem trim_eq_self {line : List Char} (hhead : ∀ c, line.head? = some c → isBlank c = false)
    (hlast : ∀ c, line.getLast? = some c → isBlank c = false) : trim line = line := by
  have hback : ∀ c, line.reverse.head? = some c → isBlank c = false := by
    simpa only [List.head?_reverse] using hlast
  unfold trim
  rw [dropWhile_isBlank hhead, dropWhile_isBlank hback, List.reverse_reverse]

end PixelJava.Text
