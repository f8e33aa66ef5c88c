/-
The grammar of names. A word is a letter or an underscore, followed by letters, digits and
underscores; a Java name may also hold dollar signs; a package is words with single dots between
them. The checks of names accept the texts of these patterns, reserved words apart, and no others.
-/
import PixelJava.Proofs.Scope.Name
import Mathlib.Computability.Language
import Mathlib.Data.Char
import Mathlib.Order.Interval.Set.Basic

namespace PixelJava.Java

open scoped Computability

/-! ## Patterns -/

def letters : Set Char :=
  Set.Icc 'A' 'Z' ∪ Set.Icc 'a' 'z'

def digits : Set Char :=
  Set.Icc '0' '9'

/-- The texts of one character of a class. -/
def oneOf (chars : Set Char) : Language Char :=
  {text | ∃ c ∈ chars, text = [c]}

/-- The texts of a character of one class and then any number of characters of another. -/
def startedBy (first others : Set Char) : Language Char :=
  oneOf first * (oneOf others)∗

def wordPattern : Language Char :=
  startedBy (letters ∪ {'_'}) (letters ∪ digits ∪ {'_'})

def namePattern : Language Char :=
  startedBy (letters ∪ {'_', '$'}) (letters ∪ digits ∪ {'_', '$'})

def packagePattern : Language Char :=
  wordPattern * (oneOf {'.'} * wordPattern)∗

/-- The star of a class of characters has the texts of those characters. -/
theorem mem_kstar_oneOf {chars : Set Char} {text : List Char} :
    text ∈ (oneOf chars)∗ ↔ ∀ c ∈ text, c ∈ chars := by
  rw [Language.mem_kstar]
  constructor
  · rintro ⟨parts, rfl, hparts⟩ c hc
    obtain ⟨part, hpart, hmem⟩ := List.mem_flatten.1 hc
    obtain ⟨d, hd, rfl⟩ := hparts part hpart
    rwa [List.mem_singleton.1 hmem]
  · intro h
    refine ⟨text.map fun c => [c], ?_, fun part hpart => ?_⟩
    · rw [← List.flatMap_def, List.flatMap_singleton']
    · obtain ⟨c, hc, rfl⟩ := List.mem_map.1 hpart
      exact ⟨c, h c hc, rfl⟩

section StartedBy

variable {first others : Set Char}

theorem nil_notMem_startedBy : [] ∉ startedBy first others := by
  rintro ⟨front, ⟨c, -, rfl⟩, rest, -, hnil⟩
  cases hnil

theorem cons_mem_startedBy {c : Char} {rest : List Char} :
    c :: rest ∈ startedBy first others ↔ c ∈ first ∧ ∀ d ∈ rest, d ∈ others := by
  rw [startedBy, Language.mem_mul]
  constructor
  · rintro ⟨front, ⟨d, hd, rfl⟩, back, hback, htext⟩
    obtain ⟨rfl, rfl⟩ := List.cons.inj htext
    exact ⟨hd, mem_kstar_oneOf.1 hback⟩
  · rintro ⟨hc, hrest⟩
    exact ⟨[c], ⟨c, hc, rfl⟩, rest, mem_kstar_oneOf.2 hrest, rfl⟩

theorem exists_of_mem_startedBy {text : List Char} (h : text ∈ startedBy first others) :
    ∃ c rest, text = c :: rest ∧ c ∈ first ∧ ∀ d ∈ rest, d ∈ others := by
  cases text with
  | nil => exact absurd h nil_notMem_startedBy
  | cons c rest => exact ⟨c, rest, rfl, cons_mem_startedBy.1 h⟩

end StartedBy

/-! ## Words and names -/

theorem isWordStart_iff {c : Char} : isWordStart c = true ↔ c ∈ letters ∪ {'_'} := by
  simp only [isWordStart, letters, Bool.or_eq_true, Bool.and_eq_true, decide_eq_true_eq,
    Set.mem_union, Set.mem_Icc, Set.mem_singleton_iff]

theorem isWordChar_iff {c : Char} : isWordChar c = true ↔ c ∈ letters ∪ digits ∪ {'_'} := by
  simp only [isWordChar, Bool.or_eq_true, isWordStart_iff, Set.mem_union, digits, Set.mem_Icc,
    Bool.and_eq_true, decide_eq_true_eq]
  tauto

/-- The check of a word decides the pattern. -/
theorem isWord_iff {text : List Char} : isWord text = true ↔ text ∈ wordPattern := by
  cases text with
  | nil => simp [isWord, wordPattern, nil_notMem_startedBy]
  | cons c rest =>
    rw [isWord, Bool.and_eq_true, List.all_eq_true, wordPattern, cons_mem_startedBy, isWordStart_iff]
    simp only [isWordChar_iff]

/-- A name is what matches the pattern and is no reserved word. -/
theorem isName_iff {name : String} :
    isName name = true ↔ name.toList ∈ namePattern ∧ isReserved name = false := by
  have hstart (c : Char) : (isWordStart c || decide (c = '$')) = true ↔ c ∈ letters ∪ {'_', '$'} := by
    rw [Bool.or_eq_true, isWordStart_iff, decide_eq_true_eq]
    simp only [Set.mem_union, Set.mem_insert_iff, Set.mem_singleton_iff, or_assoc]
  have hchar (c : Char) : (isWordChar c || decide (c = '$')) = true ↔
      c ∈ letters ∪ digits ∪ {'_', '$'} := by
    rw [Bool.or_eq_true, isWordChar_iff, decide_eq_true_eq]
    simp only [Set.mem_union, Set.mem_insert_iff, Set.mem_singleton_iff, or_assoc]
  rw [isName, Bool.and_eq_true, Bool.not_eq_true', namePattern]
  refine and_congr_left' ?_
  split
  · rename_i hnil
    simp [hnil, nil_notMem_startedBy]
  · rename_i c rest htext
    rw [htext, Bool.and_eq_true, List.all_eq_true, hstart, cons_mem_startedBy]
    simp only [hchar]

theorem mem_namePattern_of_mem_wordPattern {text : List Char} (h : text ∈ wordPattern) :
    text ∈ namePattern := by
  obtain ⟨c, rest, rfl, hc, hrest⟩ := exists_of_mem_startedBy h
  refine cons_mem_startedBy.2 ⟨?_, fun d hd => ?_⟩
  · exact hc.imp_right fun h => .inl h
  · exact (hrest d hd).imp_right fun h => .inl h

/-- A name that does no harm in a line of Java: it is made of the characters of names, does not begin
with a digit, and holds neither a mark that ends a name or a line nor a character beyond ASCII. -/
structure Harmless (name : String) : Prop where
  chars : ∀ c ∈ name.toList, c ∈ letters ∪ digits ∪ {'_', '$'}
  head : ∀ c, name.toList.head? = some c → c ∉ digits
  marks : ∀ mark ∈ "\n\r.; ".toList, mark ∉ name.toList
  ascii : ∀ c ∈ name.toList, c.toNat < 128

/-- No name starts with a digit. -/
theorem not_digit_of_start {c : Char} (h : c ∈ letters ∪ {'_', '$'}) : c ∉ digits := by
  simp only [letters, digits, Set.mem_union, Set.mem_Icc, Set.mem_insert_iff, Set.mem_singleton_iff]
    at h ⊢
  rintro ⟨hlow, hhigh⟩
  rcases h with (⟨h, -⟩ | ⟨h, -⟩) | rfl | rfl
  · exact absurd (h.trans hhigh) (by decide)
  · exact absurd (h.trans hhigh) (by decide)
  · exact absurd hhigh (by decide)
  · exact absurd hlow (by decide)

theorem ascii_of_nameChar {c : Char} (h : c ∈ letters ∪ digits ∪ {'_', '$'}) : c.toNat < 128 := by
  have hle {d : Char} (hd : c ≤ d) (hlast : d.toNat < 128) : c.toNat < 128 :=
    Nat.lt_of_le_of_lt hd hlast
  rcases h with ((⟨-, h⟩ | ⟨-, h⟩) | ⟨-, h⟩) | rfl | rfl
  · exact hle h (by decide)
  · exact hle h (by decide)
  · exact hle h (by decide)
  · decide
  · decide

theorem notMem_marks_of_nameChar {c : Char} (h : c ∈ letters ∪ digits ∪ {'_', '$'}) :
    c ∉ "\n\r.; ".toList := by
  have hmarks : "\n\r.; ".toList.all (fun mark => !(isWordChar mark || mark = '$')) = true := by
    decide
  intro hmem
  have hmark : ¬(isWordChar c = true ∨ c = '$') := by simpa using List.all_eq_true.1 hmarks c hmem
  rw [isWordChar_iff] at hmark
  rcases h with h | h | h
  · exact hmark (.inl (.inl h))
  · exact hmark (.inl (.inr h))
  · exact hmark (.inr h)

/-- What matches the pattern can do no harm in a text. -/
theorem harmless_of_mem_namePattern {name : String} (h : name.toList ∈ namePattern) :
    Harmless name := by
  obtain ⟨c, rest, htext, hc, hrest⟩ := exists_of_mem_startedBy h
  have hchars : ∀ d ∈ name.toList, d ∈ letters ∪ digits ∪ {'_', '$'} := by
    rw [htext, List.forall_mem_cons]
    exact ⟨hc.imp_left .inl, hrest⟩
  refine ⟨hchars, fun d hd => ?_, fun mark hmark hmem => ?_, fun d hd => ?_⟩
  · rw [htext, List.head?_cons, Option.some.injEq] at hd
    exact hd ▸ not_digit_of_start hc
  · exact notMem_marks_of_nameChar (hchars mark hmem) hmark
  · exact ascii_of_nameChar (hchars d hd)

/-! ## Packages -/

/-- What holds of all parts of a dotted text, where parts with dots are out of the question, holds of
parts that make up the text with single dots between them. -/
theorem forall_splitOn_iff {P : List Char → Prop} (hdot : ∀ part, P part → '.' ∉ part)
    {text : List Char} : (∀ part ∈ text.splitOn '.', P part) ↔
      ∃ parts, parts ≠ [] ∧ text = ['.'].intercalate parts ∧ ∀ part ∈ parts, P part := by
  constructor
  · intro h
    exact ⟨text.splitOn '.', List.splitOn_ne_nil '.' text, (List.intercalate_splitOn '.').symm, h⟩
  · rintro ⟨parts, hne, rfl, hparts⟩
    rwa [List.splitOn_intercalate '.' (fun part hpart => hdot part (hparts part hpart)) hne]

theorem dot_notMem_of_mem_wordPattern {text : List Char} (h : text ∈ wordPattern) : '.' ∉ text := by
  have hname : (String.ofList text).toList ∈ namePattern := by
    rw [String.toList_ofList]
    exact mem_namePattern_of_mem_wordPattern h
  have hdot := (harmless_of_mem_namePattern hname).marks '.' (by decide)
  rwa [String.toList_ofList] at hdot

/-- Joined texts are the first one, and then each of the others behind its separator. -/
theorem intercalate_cons_eq_append (separator first : List Char) (rest : List (List Char)) :
    separator.intercalate (first :: rest) = first ++ rest.flatMap (separator ++ ·) := by
  induction rest generalizing first with
  | nil => simp
  | cons next rest ih =>
    rw [List.intercalate_cons_cons, ih, List.flatMap_cons, List.append_assoc, List.append_assoc]

/-- The repetition of the pattern, dot by dot, gives the texts whose parts are words. -/
theorem mem_packagePattern {text : List Char} :
    text ∈ packagePattern ↔ ∀ part ∈ text.splitOn '.', part ∈ wordPattern := by
  rw [forall_splitOn_iff fun _ => dot_notMem_of_mem_wordPattern, packagePattern, Language.mem_mul]
  constructor
  · rintro ⟨first, hfirst, tail, htail, rfl⟩
    obtain ⟨chunks, rfl, hchunks⟩ := Language.mem_kstar.1 htail
    -- each repetition is a dot and a word
    have hrest : ∃ rest : List (List Char), chunks.flatten = rest.flatMap (['.'] ++ ·) ∧
        ∀ part ∈ rest, part ∈ wordPattern := by
      clear htail
      induction chunks with
      | nil => exact ⟨[], rfl, fun _ h => (by cases h)⟩
      | cons chunk chunks ih =>
        rw [List.forall_mem_cons] at hchunks
        obtain ⟨rest, hflatten, hrest⟩ := ih hchunks.2
        obtain ⟨dot, ⟨c, rfl, rfl⟩, part, hpart, rfl⟩ := Language.mem_mul.1 hchunks.1
        refine ⟨part :: rest, ?_, List.forall_mem_cons.2 ⟨hpart, hrest⟩⟩
        rw [List.flatten_cons, hflatten, List.flatMap_cons]
    obtain ⟨rest, hflatten, hrest⟩ := hrest
    refine ⟨first :: rest, List.cons_ne_nil _ _, ?_, List.forall_mem_cons.2 ⟨hfirst, hrest⟩⟩
    rw [intercalate_cons_eq_append, hflatten]
  · rintro ⟨parts, hne, rfl, hparts⟩
    cases parts with
    | nil => exact absurd rfl hne
    | cons first rest =>
      rw [List.forall_mem_cons] at hparts
      refine ⟨first, hparts.1, rest.flatMap (['.'] ++ ·), Language.mem_kstar.2 ?_,
        (intercalate_cons_eq_append _ _ _).symm⟩
      refine ⟨rest.map (['.'] ++ ·), List.flatMap_def, fun chunk hchunk => ?_⟩
      obtain ⟨part, hpart, rfl⟩ := List.mem_map.1 hchunk
      exact Language.append_mem_mul ⟨'.', rfl, rfl⟩ (hparts.2 part hpart)

theorem isPackage_iff_pattern {name : String} :
    isPackage name = true ↔ name.toList ∈ packagePattern ∧
      ∀ part ∈ name.toList.splitOn '.', isReserved (String.ofList part) = false := by
  rw [mem_packagePattern, isPackage, List.all_eq_true]
  simp only [Bool.and_eq_true, Bool.not_eq_true', isWord_iff]
  exact ⟨fun h => ⟨fun part hpart => (h part hpart).1, fun part hpart => (h part hpart).2⟩,
    fun h part hpart => ⟨h.1 part hpart, h.2 part hpart⟩⟩

theorem isPackage_iff_parts {name : String} :
    isPackage name = true ↔ ∃ parts : List String, parts ≠ [] ∧ name = ".".intercalate parts ∧
      ∀ part ∈ parts, isSourceName part = true ∧ isReserved part = false := by
  have hdot : ∀ part : List Char,
      isWord part = true ∧ isReserved (String.ofList part) = false → '.' ∉ part :=
    fun part h => dot_notMem_of_mem_wordPattern (isWord_iff.1 h.1)
  have hparts := @forall_splitOn_iff _ hdot name.toList
  rw [isPackage, List.all_eq_true]
  simp only [Bool.and_eq_true, Bool.not_eq_true']
  rw [hparts]
  constructor
  · rintro ⟨parts, hne, htext, hwords⟩
    refine ⟨parts.map String.ofList, by simpa using hne, ?_, fun part hpart => ?_⟩
    · rw [← String.toList_inj, String.toList_intercalate, htext]
      simp [Function.comp_def]
    · obtain ⟨word, hword, rfl⟩ := List.mem_map.1 hpart
      simpa [isSourceName] using hwords word hword
  · rintro ⟨parts, hne, rfl, hwords⟩
    refine ⟨parts.map String.toList, by simpa using hne, String.toList_intercalate, fun word hword => ?_⟩
    obtain ⟨part, hpart, rfl⟩ := List.mem_map.1 hword
    simpa [isSourceName] using hwords part hpart

/-- The checks of names accept just what the grammar says. A package is source names with single dots
between them, none of them reserved; in terms of patterns, the text as a whole follows the pattern of
packages, and none of its parts is reserved. Names that are accepted do no harm where they stand. -/
theorem names_follow_grammar (name : String) :
    (isPackage name = true ↔ ∃ parts : List String, parts ≠ [] ∧ name = ".".intercalate parts ∧
        ∀ part ∈ parts, isSourceName part = true ∧ isReserved part = false) ∧
      (isPackage name = true ↔ name.toList ∈ packagePattern ∧
        ∀ part ∈ name.toList.splitOn '.', isReserved (String.ofList part) = false) ∧
      (isSourceName name = true ↔ name.toList ∈ wordPattern) ∧
      (isName name = true ↔ name.toList ∈ namePattern ∧ isReserved name = false) ∧
      (isSourceName name = true ∨ isName name = true → Harmless name) := by
  refine ⟨isPackage_iff_parts, isPackage_iff_pattern, isWord_iff, isName_iff, ?_⟩
  rintro (hsource | hname)
  · exact harmless_of_mem_namePattern (mem_namePattern_of_mem_wordPattern (isWord_iff.1 hsource))
  · exact harmless_of_mem_namePattern (isName_iff.1 hname).1

theorem dollar_follows_grammar : isName "a$1_" = true ∧ Harmless "a$1_" :=
  ⟨by decide, (names_follow_grammar "a$1_").2.2.2.2 (.inr (by decide))⟩

/-- A package does not begin or end with a dot, nor has it two in a row, or a line end behind it. -/
example : ["a.b", "", ".a", "a.", "a..b", "a.b\n", "a.new.b", "a.1b", "a.ｂ"].map isPackage =
    [true, false, false, false, false, false, false, false, false] := by
  decide

end PixelJava.Java
