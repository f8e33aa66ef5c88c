/-
Identifiers in Java text: the longest rows of characters of names that stand outside literals. They
are kept apart by every other character, so those of texts put together are those of the parts as
long as a character that belongs to no name stands at the seam. A text is read line by line here;
blanks at the ends of lines play no part, not even in a literal that goes over several lines, so
laying out a text keeps its identifiers.
-/
import PixelJava.Java.Layout
import PixelJava.Proofs.Java.Literal
import PixelJava.Proofs.Scope.Name
import PixelJava.Proofs.Text.Lines
import Mathlib.Data.List.Forall2

namespace PixelJava.Java

/-! ## Words -/

/-- Whether a character may stand in a name. -/
def isNameChar (c : Char) : Bool :=
  isWordChar c || c = '$'

/-- The longest rows of characters of names in a text. -/
def words (text : List Char) : List (List Char) :=
  (text.splitOnP (!isNameChar ·)).filter (· ≠ [])

/-- A character that is no part of a name divides the words around it. -/
theorem words_append_break {c : Char} (hc : isNameChar c = false) (text text' : List Char) :
    words (text ++ c :: text') = words text ++ words text' := by
  unfold words
  rw [List.splitOnP_append_cons text text' (by simp [hc]), List.filter_append]

@[simp] theorem words_nil : words [] = [] := by
  simp [words, List.splitOnP_nil]

theorem words_cons_break {c : Char} (hc : isNameChar c = false) (text : List Char) :
    words (c :: text) = words text := by
  simpa using words_append_break hc [] text

theorem words_breaks_append {before : List Char} (h : ∀ c ∈ before, isNameChar c = false)
    (text : List Char) : words (before ++ text) = words text := by
  induction before with
  | nil => rfl
  | cons c rest ih =>
    rw [List.cons_append, words_cons_break (h c List.mem_cons_self),
      ih fun d hd => h d (List.mem_cons_of_mem c hd)]

theorem words_append_breaks {after : List Char} (h : ∀ c ∈ after, isNameChar c = false)
    (text : List Char) : words (text ++ after) = words text := by
  cases after with
  | nil => rw [List.append_nil]
  | cons c rest =>
    have hrest := words_breaks_append (fun d hd => h d (List.mem_cons_of_mem c hd)) []
    rw [List.append_nil, words_nil] at hrest
    rw [words_append_break (h c List.mem_cons_self), hrest, List.append_nil]

theorem words_of_nameChars {text : List Char} (hne : text ≠ [])
    (h : ∀ c ∈ text, isNameChar c = true) : words text = [text] := by
  unfold words
  rw [List.splitOnP_eq_singleton fun c hc => by simp [h c hc]]
  simp [hne]

/-- Whether the text has no character of a name at its front. -/
def startsBroken (text : List Char) : Bool :=
  text.head?.all (!isNameChar ·)

/-- Whether the text has no character of a name at its end. -/
def endsBroken (text : List Char) : Bool :=
  text.getLast?.all (!isNameChar ·)

/-- Words do not run on over a seam where one side breaks. -/
theorem words_append {text text' : List Char}
    (h : endsBroken text = true ∨ startsBroken text' = true) :
    words (text ++ text') = words text ++ words text' := by
  rcases h with h | h
  · rcases List.eq_nil_or_concat text with rfl | ⟨before, c, rfl⟩
    · rfl
    · have hc : isNameChar c = false := by simpa [endsBroken] using h
      rw [List.concat_eq_append, List.append_assoc, List.singleton_append,
        words_append_break hc, words_append_break hc, words_nil, List.append_nil]
  · cases text' with
    | nil => simp
    | cons c rest =>
      have hc : isNameChar c = false := by simpa [startsBroken] using h
      rw [words_append_break hc, words_cons_break hc]

theorem subset_of_mem_splitOnP {p : Char → Bool} {text part : List Char}
    (h : part ∈ text.splitOnP p) : part ⊆ text := by
  induction text generalizing part with
  | nil =>
    rw [List.splitOnP_nil, List.mem_singleton] at h
    rw [h]
    exact List.Subset.refl _
  | cons c rest ih =>
    rw [List.splitOnP_cons_eq_if_modifyHead] at h
    split at h
    · rcases List.mem_cons.1 h with rfl | h
      · exact List.nil_subset _
      · exact List.Subset.trans (ih h) (List.subset_cons_self c rest)
    · obtain ⟨first, others, hsplit⟩ := List.exists_cons_of_ne_nil (List.splitOnP_ne_nil p rest)
      rw [hsplit, List.modifyHead_cons] at h
      rcases List.mem_cons.1 h with rfl | h
      · exact List.cons_subset_cons c (ih (hsplit ▸ List.mem_cons_self))
      · exact List.Subset.trans (ih (hsplit ▸ List.mem_cons_of_mem first h))
          (List.subset_cons_self c rest)

/-- The characters of a word are those of the text. -/
theorem subset_of_mem_words {text word : List Char} (h : word ∈ words text) : word ⊆ text :=
  subset_of_mem_splitOnP (List.mem_filter.1 h).1

/-! ## Lines -/

/-- The identifiers outside literals in lines of a text. -/
def identifiers (lines : List (List Char)) : List (List Char) :=
  words (mask .code (Text.unlines lines))

/-- The words outside literals in lines that a reader comes to in the given mode. -/
def lineWords : Mode → List (List Char) → List (List Char)
  | _, [] => []
  | mode, line :: rest => words (mask mode line) ++ lineWords (mode.after (line ++ ['\n'])) rest

/-- The end of a line is an end of words, also in a literal. -/
theorem words_mask_line (mode : Mode) (line rest : List Char) :
    words (mask mode (line ++ '\n' :: rest)) =
      words (mask mode line) ++ words (mask (mode.after (line ++ ['\n'])) rest) := by
  have hbreak : isNameChar (if mode.after line = .code then '\n' else '"') = false := by
    split <;> decide
  rw [mask_append, mask, words_append_break hbreak, Mode.after_append]
  rfl

theorem identifiers_eq_lineWords (lines : List (List Char)) :
    identifiers lines = lineWords .code lines := by
  unfold identifiers
  generalize Mode.code = mode
  induction lines generalizing mode with
  | nil => rfl
  | cons line rest ih =>
    rw [Text.unlines, List.flatMap_cons, List.append_assoc, List.singleton_append,
      words_mask_line, lineWords]
    exact congrArg (words (mask mode line) ++ ·) (ih _)

/-- At the front of a line no character is escaped. -/
theorem after_newline (mode : Mode) (line : List Char) :
    mode.after (line ++ ['\n']) ≠ .escape := by
  rw [Mode.after_append]
  cases mode.after line <;> decide

/-- A reader finds the same words in both lines, and goes on alike behind them. -/
def SameLine (line line' : List Char) : Prop :=
  ∀ mode : Mode, mode ≠ .escape → words (mask mode line) = words (mask mode line') ∧
    mode.after (line ++ ['\n']) = mode.after (line' ++ ['\n'])

theorem SameLine.refl (line : List Char) : SameLine line line :=
  fun _ _ => ⟨rfl, rfl⟩

theorem SameLine.symm {line line' : List Char} (h : SameLine line line') : SameLine line' line :=
  fun mode hmode => ⟨(h mode hmode).1.symm, (h mode hmode).2.symm⟩

theorem lineWords_congr {lines lines' : List (List Char)} (h : List.Forall₂ SameLine lines lines')
    {mode : Mode} (hmode : mode ≠ .escape) : lineWords mode lines = lineWords mode lines' := by
  induction h generalizing mode with
  | nil => rfl
  | cons hline _ ih =>
    obtain ⟨hwords, hafter⟩ := hline mode hmode
    rw [lineWords, lineWords, hwords, hafter, ih (after_newline _ _)]

/-! ## Blanks -/

theorem isNameChar_of_isBlank {c : Char} (h : Text.isBlank c = true) : isNameChar c = false := by
  have hnat : c.toNat ≤ 32 ∨ 133 ≤ c.toNat := by
    simp only [Text.isBlank, Bool.or_eq_true, Bool.and_eq_true, decide_eq_true_eq, beq_iff_eq] at h
    omega
  cases hname : isNameChar c with
  | false => rfl
  | true =>
    -- the characters of names lie between `$` and `z`
    have hrange : 36 ≤ c.toNat ∧ c.toNat ≤ 122 := by
      simp only [isNameChar, isWordChar, isWordStart, Bool.or_eq_true, Bool.and_eq_true,
        decide_eq_true_eq, Char.le_def, UInt32.le_iff_toNat_le] at hname
      rcases hname with (((hword | hword) | rfl) | hword) | rfl
      · exact ⟨Nat.le_trans (by decide) hword.1, Nat.le_trans hword.2 (by decide)⟩
      · exact ⟨Nat.le_trans (by decide) hword.1, Nat.le_trans hword.2 (by decide)⟩
      · decide
      · exact ⟨Nat.le_trans (by decide) hword.1, Nat.le_trans hword.2 (by decide)⟩
      · decide
    omega

theorem next_blank {mode : Mode} {c : Char} (h : Text.isBlank c = true) (hmode : mode ≠ .escape) :
    mode.next c = mode := by
  have hquote : c ≠ '"' := by rintro rfl; cases h
  have hback : c ≠ '\\' := by rintro rfl; cases h
  cases mode with
  | code => exact if_neg hquote
  | literal => rw [Mode.next, if_neg hback, if_neg hquote]
  | escape => exact absurd rfl hmode

theorem after_blanks {blanks : List Char} (h : ∀ c ∈ blanks, Text.isBlank c = true) {mode : Mode}
    (hmode : mode ≠ .escape) : mode.after blanks = mode := by
  induction blanks with
  | nil => rfl
  | cons c rest ih =>
    rw [Mode.after_cons, next_blank (h c List.mem_cons_self) hmode]
    exact ih fun d hd => h d (List.mem_cons_of_mem c hd)

/-- Before the end of a line blanks play no part, also where the first of them would be escaped. -/
theorem after_blanks_newline {blanks : List Char} (h : ∀ c ∈ blanks, Text.isBlank c = true)
    (mode : Mode) : mode.after (blanks ++ ['\n']) = mode.after ['\n'] := by
  cases mode with
  | code | literal => rw [Mode.after_append, after_blanks h (by decide)]
  | escape =>
    cases blanks with
    | nil => rfl
    | cons c rest =>
      have hrest : ∀ d ∈ rest, Text.isBlank d = true := fun d hd => h d (List.mem_cons_of_mem c hd)
      have hnext : Mode.escape.next c = .literal := rfl
      rw [List.cons_append, Mode.after_cons, hnext, Mode.after_append, after_blanks hrest (by decide)]
      rfl

theorem isNameChar_of_mem_mask {blanks : List Char} (h : ∀ c ∈ blanks, Text.isBlank c = true)
    (mode : Mode) : ∀ c ∈ mask mode blanks, isNameChar c = false := by
  intro c hc
  rcases mem_mask hc with rfl | hc
  · decide
  · exact isNameChar_of_isBlank (h c hc)

/-- Blanks at the ends of a line play no part. -/
theorem sameLine_blanks {before after : List Char} (line : List Char)
    (hbefore : ∀ c ∈ before, Text.isBlank c = true) (hafter : ∀ c ∈ after, Text.isBlank c = true) :
    SameLine (before ++ (line ++ after)) line := by
  intro mode hmode
  constructor
  · rw [mask_append, words_breaks_append (isNameChar_of_mem_mask hbefore mode),
      after_blanks hbefore hmode, mask_append, words_append_breaks (isNameChar_of_mem_mask hafter _)]
  · rw [List.append_assoc, Mode.after_append, after_blanks hbefore hmode, List.append_assoc,
      Mode.after_append, after_blanks_newline hafter, Mode.after_append]

/-- Blanks at the ends of a line hold no words. -/
theorem sameLine_trim (line : List Char) : SameLine (Text.trim line) line := by
  obtain ⟨before, after, hline, hbefore, hafter⟩ := Text.exists_trim line
  have h := sameLine_blanks (Text.trim line) hbefore hafter
  rw [← hline] at h
  exact h.symm

theorem sameLine_dropReturn (seen : List Char) :
    SameLine seen.reverse (Text.dropReturn seen).reverse := by
  unfold Text.dropReturn
  split
  · rename_i rest
    have hreturn : ∀ c ∈ ['\r'], Text.isBlank c = true := List.forall_mem_singleton.2 (by decide)
    rw [List.reverse_cons]
    exact sameLine_blanks rest.reverse (List.forall_mem_nil _) hreturn
  · exact .refl _

/-! ## Texts -/

/-- Read line by line, a text has the words that it has as a whole; the carriage returns before line
feeds, which belong to no line, play no part. -/
theorem words_mask_linesFrom {mode : Mode} (hmode : mode ≠ .escape) (seen text : List Char) :
    words (mask mode (seen.reverse ++ text)) = lineWords mode (Text.linesFrom seen text) := by
  induction text generalizing mode seen with
  | nil =>
    unfold Text.linesFrom
    split
    · rename_i hseen
      rw [List.isEmpty_iff.1 hseen]
      rfl
    · rw [lineWords, lineWords, List.append_nil, List.append_nil]
  | cons c rest ih =>
    unfold Text.linesFrom
    split
    · rename_i hc
      obtain ⟨hwords, hafter⟩ := sameLine_dropReturn seen mode hmode
      rw [hc, words_mask_line, lineWords, hwords, hafter]
      exact congrArg _ (ih (after_newline _ _) [])
    · rw [← ih hmode, List.reverse_cons, List.append_assoc, List.singleton_append]

/-- The words of a masked text are the identifiers of its lines. -/
theorem words_mask_lines (text : List Char) :
    words (mask .code text) = identifiers (Text.lines text) := by
  rw [identifiers_eq_lineWords]
  exact words_mask_linesFrom (by decide) [] text

/-- Layout changes the words of no line. -/
theorem sameLine_layoutLines (depth : Nat) (lines : List (List Char)) :
    List.Forall₂ SameLine (layoutLines depth lines) lines := by
  induction lines generalizing depth with
  | nil => exact .nil
  | cons line rest ih =>
    unfold layoutLines
    split
    · rename_i hline
      rw [List.isEmpty_iff.1 hline]
      exact .cons (.refl []) (ih depth)
    · have h (n : Nat) := sameLine_blanks line (fun _ => Text.isBlank_of_mem_indent (n := n))
        (List.forall_mem_nil _)
      simp only [List.append_nil] at h
      exact .cons (h _) (ih _)

/-- Laying out trimmed lines keeps the identifiers of the lines. -/
theorem identifiers_layoutLines (depth : Nat) (lines : List (List Char)) :
    identifiers (layoutLines depth (lines.map Text.trim)) = identifiers lines := by
  have htrim : List.Forall₂ SameLine (lines.map Text.trim) lines :=
    List.forall₂_map_left_iff.2 (List.forall₂_same.2 fun line _ => sameLine_trim line)
  rw [identifiers_eq_lineWords, identifiers_eq_lineWords,
    lineWords_congr (sameLine_layoutLines depth _) (by decide), lineWords_congr htrim (by decide)]

end PixelJava.Java
