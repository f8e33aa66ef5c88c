/-
The Java names that declarations get. A source name holds no dollar sign, so it can be read off
every Java name made from it: names made from different source names differ, and those made from
one differ by their numbers. All of them can be written in Java as they are.
-/
import PixelJava.Scope

namespace PixelJava

open Java

/-! ## Characters of names -/

theorem isWordChar_dollar : isWordChar '$' = false := by decide

theorem isWordChar_of_isWordStart {c : Char} (h : isWordStart c = true) : isWordChar c = true := by
  simp [isWordChar, h]

theorem isWordChar_of_isDigit {c : Char} (h : c.isDigit = true) : isWordChar c = true := by
  have h : '0' ≤ c ∧ c ≤ '9' := by simpa [Char.isDigit, Char.le_def] using h
  simp [isWordChar, h]

theorem isSourceName_chars {name : String} (h : isSourceName name = true) :
    ∃ c rest, name.toList = c :: rest ∧ isWordStart c = true ∧
      ∀ d ∈ rest, isWordChar d = true := by
  cases hl : name.toList with
  | nil => simp [isSourceName, hl, isWord] at h
  | cons c rest => exact ⟨c, rest, rfl, by simpa [isSourceName, hl, isWord] using h⟩

/-- No name of a source has the mark that numbers are set off with. -/
theorem dollar_notMem_of_isSourceName {name : String} (h : isSourceName name = true) :
    '$' ∉ name.toList := by
  obtain ⟨c, rest, hl, hc, hrest⟩ := isSourceName_chars h
  intro hd
  have : isWordChar '$' = true := by
    rcases List.mem_cons.1 (hl ▸ hd) with rfl | hd
    · exact isWordChar_of_isWordStart hc
    · exact hrest _ hd
  rw [isWordChar_dollar] at this; cases this

/-- No reserved word holds a dollar sign. -/
theorem not_isReserved_of_dollar {name : String} (h : '$' ∈ name.toList) :
    isReserved name = false := by
  have hno : ∀ word ∈ reserved, '$' ∉ word.toList := by decide
  cases hr : isReserved name with
  | false => rfl
  | true => exact absurd h (hno name (by simpa [isReserved] using hr))

theorem isName_of_chars {name : String} {c : Char} {rest : List Char} (hl : name.toList = c :: rest)
    (hc : isWordStart c = true) (hrest : ∀ d ∈ rest, isWordChar d = true ∨ d = '$')
    (hr : isReserved name = false) : isName name = true := by
  simp [isName, hl, hc, hr]
  exact hrest

/-- A name of a source can be extended with the mark: no reserved word has it. -/
theorem isName_append_of_dollar {name suffix : String} (h : isSourceName name = true)
    (hd : '$' ∈ suffix.toList) (hs : ∀ d ∈ suffix.toList, isWordChar d = true ∨ d = '$') :
    isName (name ++ suffix) = true := by
  obtain ⟨c, rest, hl, hc, hrest⟩ := isSourceName_chars h
  have hl' : (name ++ suffix).toList = c :: (rest ++ suffix.toList) := by simp [hl]
  refine isName_of_chars hl' hc ?_ (not_isReserved_of_dollar (by simp [hd]))
  intro d hd'
  rcases List.mem_append.1 hd' with hd' | hd'
  · exact .inl (hrest d hd')
  · exact hs d hd'

theorem isName_of_isSourceName {name : String} (h : isSourceName name = true)
    (hr : isReserved name = false) : isName name = true := by
  obtain ⟨c, rest, hl, hc, hrest⟩ := isSourceName_chars h
  exact isName_of_chars hl hc (fun d hd => .inl (hrest d hd)) hr

/-- The characters that a name can have. -/
theorem chars_of_isName {name : String} (h : isName name = true) :
    name.toList ≠ [] ∧ ∀ d ∈ name.toList, isWordChar d = true ∨ d = '$' := by
  unfold isName at h
  split at h
  · cases h
  · rename_i c rest hl
    simp only [Bool.and_eq_true, Bool.or_eq_true, List.all_eq_true, decide_eq_true_eq] at h
    rw [hl]
    refine ⟨List.cons_ne_nil c rest, fun d hd => ?_⟩
    rcases List.mem_cons.1 hd with rfl | hd
    · exact h.1.1.imp_left isWordChar_of_isWordStart
    · exact h.1.2 d hd

/-! ## Plain and numbered names -/

namespace Scopes

/-- What stands before the first dollar sign of a Java name. -/
def stem (javaName : String) : List Char :=
  javaName.toList.takeWhile (· ≠ '$')

theorem toList_freshName (name : String) (n : Nat) :
    (freshName name n).toList = name.toList ++ '$' :: Nat.toDigits 10 n := by
  simp [freshName]

/-- The stem of a name that goes on with a dollar sign, or ends, where a source name ends. -/
theorem stem_of_toList {name javaName : String} {rest : List Char} (h : isSourceName name = true)
    (hl : javaName.toList = name.toList ++ rest) (hrest : rest.takeWhile (· ≠ '$') = []) :
    stem javaName = name.toList := by
  have hd : ∀ c ∈ name.toList, decide (c ≠ '$') = true := by
    intro c hc
    have : c ≠ '$' := by rintro rfl; exact dollar_notMem_of_isSourceName h hc
    simpa using this
  unfold stem
  rw [hl, List.takeWhile_append_of_pos hd, hrest, List.append_nil]

theorem stem_plainName {name : String} (h : isSourceName name = true) :
    stem (plainName name) = name.toList := by
  unfold plainName
  split
  · exact stem_of_toList h String.toList_append (by decide)
  · exact stem_of_toList h (List.append_nil _).symm rfl

/-- The name of a source is found before the number. -/
theorem stem_freshName {name : String} (n : Nat) (h : isSourceName name = true) :
    stem (freshName name n) = name.toList :=
  stem_of_toList h (toList_freshName name n) (by simp)

/-- Names with different numbers are different. -/
theorem freshName_inj {name : String} {m n : Nat} (h : freshName name m = freshName name n) :
    m = n := by
  have hl := congrArg String.toList h
  rw [toList_freshName, toList_freshName] at hl
  have hdigits : Nat.toDigits 10 m = Nat.toDigits 10 n := by simpa using hl
  rw [← Nat.ofDigitChars_ten_toDigits (n := m), hdigits, Nat.ofDigitChars_ten_toDigits]

/-- A name without a number is none with one, even where it is a reserved word and was marked. -/
theorem plainName_ne_freshName {name : String} (n : Nat) :
    plainName name ≠ freshName name n := by
  intro h
  have hlen := congrArg (fun s => s.toList.length) h
  simp only [toList_freshName, List.length_append, List.length_cons] at hlen
  unfold plainName at hlen
  split at hlen
  · simp at hlen
  · simp at hlen

/-- Every name of a source can be emitted, a reserved word too. -/
theorem isName_plainName {name : String} (h : isSourceName name = true) :
    isName (plainName name) = true := by
  unfold plainName
  split
  · exact isName_append_of_dollar h (by decide) fun d hd => .inr (by simpa using hd)
  · rename_i hr
    exact isName_of_isSourceName h (by simpa using hr)

theorem isName_freshName {name : String} (n : Nat) (h : isSourceName name = true) :
    isName (freshName name n) = true := by
  have hs : ("$" ++ toString n).toList = '$' :: Nat.toDigits 10 n := by simp
  unfold freshName
  rw [String.append_assoc]
  refine isName_append_of_dollar h (by simp) ?_
  intro d hd
  rw [hs] at hd
  rcases List.mem_cons.1 hd with rfl | hd
  · exact .inr rfl
  · exact .inl (isWordChar_of_isDigit (Nat.isDigit_of_mem_toDigits (by decide) (by decide) hd))

end Scopes

end PixelJava
