/-
Texts that can stand anywhere in an expression. Outside parentheses and literals such a text shows
nothing that binds to what is around it, it closes just the parentheses that it opens, and it holds
nothing that ends a statement. Every shape keeps this from its operands, which stand at whatever
level; so it is enough that names and literals have it.
-/
import PixelJava.Proofs.Java.Literal
import PixelJava.Proofs.Scope.Name

namespace PixelJava.Java

/-- Whether a character may stand outside parentheses: a part of a name, a number or a selection. -/
def isExposable (c : Char) : Bool :=
  isWordChar c || c = '$' || c = '.'

/-- The characters that end or group statements. -/
def isStatementMark (c : Char) : Bool :=
  c = '\x7b' || c = '\x7d' || c = ';'

/-- The text can be put in the place of an operand wherever there is one. What is said of parentheses
and other marks is said of the text with its literals masked, so a quote stands for a character of a
literal. -/
structure Spliceable (text : String) : Prop where
  nonempty : text ≠ ""
  /-- A reader is outside literals at the end. -/
  closed : Closed text.toList
  balanced : (mask .code text.toList).count '(' = (mask .code text.toList).count ')'
  /-- No parenthesis is closed before it is opened. -/
  opened : ∀ before, before <+: mask .code text.toList → before.count ')' ≤ before.count '('
  unmarked : ∀ c ∈ mask .code text.toList, isStatementMark c = false
  exposed : ∀ before c, before ++ [c] <+: mask .code text.toList →
    before.count '(' = before.count ')' → c = '(' ∨ c = '"' ∨ isExposable c = true

/-! ## Levels of parentheses -/

/-- The number of open parentheses after a masked text, where `level` are open before it; none if
the text shows what it must not. -/
def level? (level : Nat) : List Char → Option Nat
  | [] => some level
  | c :: rest =>
    if c = '(' then level? (level + 1) rest
    else if c = ')' then if level = 0 then none else level? (level - 1) rest
    else if isStatementMark c then none
    else if level = 0 && !(c = '"' || isExposable c) then none
    else level? level rest

/-- What a text that has a level does with its first character. -/
theorem level?_cons {level level' : Nat} {c : Char} {rest : List Char}
    (h : level? level (c :: rest) = some level') :
    (c = '(' ∧ level? (level + 1) rest = some level') ∨
      (c = ')' ∧ 0 < level ∧ level? (level - 1) rest = some level') ∨
      (c ≠ '(' ∧ c ≠ ')' ∧ isStatementMark c = false ∧
        (level = 0 → c = '"' ∨ isExposable c = true) ∧ level? level rest = some level') := by
  unfold level? at h
  split at h
  · rename_i hc
    exact .inl ⟨hc, h⟩
  split at h
  · rename_i hc
    split at h
    · cases h
    · exact .inr (.inl ⟨hc, by omega, h⟩)
  split at h
  · cases h
  split at h
  · cases h
  rename_i ho hc hmark hexposed
  refine .inr (.inr ⟨ho, hc, by simpa using hmark, fun hzero => ?_, h⟩)
  by_cases hquote : c = '"'
  · exact .inl hquote
  · exact .inr (by simpa [hzero, hquote] using hexposed)

theorem level?_append (level : Nat) (text text' : List Char) :
    level? level (text ++ text') = (level? level text).bind (level? · text') := by
  induction text generalizing level with
  | nil => rfl
  | cons c rest ih =>
    simp only [List.cons_append, level?, ih]
    repeat' split
    all_goals rfl

/-- A text that has a level has it inside more parentheses as well. -/
theorem level?_add {level level' : Nat} (more : Nat) {text : List Char}
    (h : level? level text = some level') :
    level? (level + more) text = some (level' + more) := by
  induction text generalizing level with
  | nil => cases h; rfl
  | cons c rest ih =>
    rcases level?_cons h with ⟨rfl, hrest⟩ | ⟨rfl, hpos, hrest⟩ | ⟨ho, hc, hmark, hexposed, hrest⟩
    · have := ih hrest
      rw [Nat.add_right_comm] at this
      simpa [level?] using this
    · have := ih hrest
      rw [show level - 1 + more = level + more - 1 by omega] at this
      rw [level?, if_neg (by decide), if_pos rfl, if_neg (by omega)]
      exact this
    · have hshown : (decide (level + more = 0) && !(decide (c = '"') || isExposable c)) = false := by
        by_cases hzero : level = 0
        · rcases hexposed hzero with hq | hq <;> simp [hq]
        · simp [hzero]
      rw [level?, if_neg ho, if_neg hc, if_neg (by simp [hmark]), hshown]
      exact ih hrest

/-- The level is what the parentheses amount to. -/
theorem count_of_level? {level level' : Nat} {text : List Char}
    (h : level? level text = some level') :
    level + text.count '(' = level' + text.count ')' := by
  induction text generalizing level with
  | nil => cases h; rfl
  | cons c rest ih =>
    rcases level?_cons h with ⟨rfl, hrest⟩ | ⟨rfl, hpos, hrest⟩ | ⟨ho, hc, hmark, hexposed, hrest⟩
    · have := ih hrest
      simp
      omega
    · have := ih hrest
      simp
      omega
    · have := ih hrest
      rwa [List.count_cons_of_ne ho, List.count_cons_of_ne hc]

theorem unmarked_of_level? {level level' : Nat} {text : List Char}
    (h : level? level text = some level') : ∀ c ∈ text, isStatementMark c = false := by
  induction text generalizing level with
  | nil => exact fun c hc => (by cases hc)
  | cons c rest ih =>
    rcases level?_cons h with ⟨rfl, hrest⟩ | ⟨rfl, hpos, hrest⟩ | ⟨ho, hc, hmark, hexposed, hrest⟩ <;>
      refine List.forall_mem_cons.2 ⟨?_, ih hrest⟩
    · decide
    · decide
    · exact hmark

/-- Every part of a text that has a level, from its front, has one as well. -/
theorem level?_of_prefix {level level' : Nat} {before text : List Char} (hp : before <+: text)
    (h : level? level text = some level') :
    ∃ middle rest, text = before ++ rest ∧ level? level before = some middle ∧
      level? middle rest = some level' := by
  obtain ⟨rest, rfl⟩ := hp
  rw [level?_append, Option.bind_eq_some_iff] at h
  obtain ⟨middle, hbefore, hrest⟩ := h
  exact ⟨middle, rest, rfl, hbefore, hrest⟩

/-- The text is not empty, leaves no literal open and stays on its level. -/
structure Level (text : List Char) : Prop where
  nonempty : text ≠ []
  closed : Closed text
  level : level? 0 (mask .code text) = some 0

theorem Level.spliceable {text : String} (h : Level text.toList) : Spliceable text := by
  refine ⟨?_, h.closed, ?_, ?_, unmarked_of_level? h.level, ?_⟩
  · rintro rfl
    exact h.nonempty rfl
  · have := count_of_level? h.level
    omega
  · intro before hp
    obtain ⟨middle, rest, -, hbefore, -⟩ := level?_of_prefix hp h.level
    have := count_of_level? hbefore
    omega
  · intro before c hp heq
    obtain ⟨middle, rest, htext, hbefore, hrest⟩ :=
      level?_of_prefix ((List.prefix_append before [c]).trans hp) h.level
    have hmiddle : middle = 0 := by
      have := count_of_level? hbefore
      omega
    subst hmiddle
    -- the next character is `c`, which must not close anything at level 0
    obtain ⟨after, hafter⟩ := hp
    have hrest' : rest = c :: after := by
      rw [← hafter, List.append_assoc] at htext
      exact (List.append_cancel_left htext).symm
    rw [hrest'] at hrest
    rcases level?_cons hrest with ⟨hc, -⟩ | ⟨-, hpos, -⟩ | ⟨-, -, -, hexposed, -⟩
    · exact .inl hc
    · omega
    · exact .inr (hexposed rfl)

/-! ## Expressions -/

namespace Shape

/-- With its operands left out a shape keeps to its level, and is not empty. -/
theorem level?_marks : ∀ shape ∈ all,
    level? 0 (shape.opening ++ shape.slots.flatMap (·.2)) = some 0 ∧
      shape.opening ++ shape.slots.flatMap (·.2) ≠ [] := by
  decide +kernel

/-- Operands that stay on their level do not change that of the text around them. -/
theorem level?_slots (level : Nat) {operands : List (List Char)} {slots : List (Nat × List Char)}
    (h : ∀ slot ∈ slots, level? 0 (operands.getD slot.1 []) = some 0) :
    level? level (slots.flatMap fun slot => operands.getD slot.1 [] ++ slot.2) =
      level? level (slots.flatMap (·.2)) := by
  induction slots generalizing level with
  | nil => rfl
  | cons slot rest ih =>
    have hslot : level? level (operands.getD slot.1 []) = some level := by
      simpa using level?_add level (h slot List.mem_cons_self)
    have hrest (n : Nat) := ih n fun s hs => h s (List.mem_cons_of_mem _ hs)
    simp only [List.flatMap_cons, List.append_assoc, level?_append, hslot, Option.bind_some, hrest]

theorem level_fill {shape : Shape} (hshape : shape ∈ all) {operands : List (List Char)}
    (hlength : operands.length = shape.arity) (h : ∀ x ∈ operands, Level x) :
    Level (shape.fill operands) := by
  obtain ⟨hlevel, hne⟩ := level?_marks shape hshape
  obtain ⟨hclosed, hmask⟩ := mask_fill hshape hlength fun x hx => (h x hx).closed
  refine ⟨?_, hclosed, ?_⟩
  · intro hempty
    unfold fill at hempty
    simp only [List.append_eq_nil_iff, List.flatMap_eq_nil_iff] at hempty
    exact hne (List.append_eq_nil_iff.2 ⟨hempty.1,
      List.flatMap_eq_nil_iff.2 fun slot hslot => (hempty.2 slot hslot).2⟩)
  · rw [hmask, fill, level?_append, ← hlevel, level?_append]
    congr 1
    funext level
    refine level?_slots level fun slot hslot => ?_
    have hlength' : (operands.map (mask .code)).length = shape.arity := by
      rw [List.length_map, hlength]
    obtain ⟨x, hx, hx'⟩ := List.mem_map.1 (operand_mem hshape hlength' hslot)
    rw [← hx']
    exact (h x hx).level

end Shape

/-- An expression keeps to its level if its names and literals do. -/
theorem Expr.level_text {e : Expr} (h : ∀ leaf ∈ e.leaves, Level leaf.toList) :
    Level e.text.toList := by
  induction e using induction_on_shape with
  | leaf e hshape =>
    rw [leaves_of_leaf hshape] at h
    exact h _ List.mem_cons_self
  | node e shape hshape ih =>
    rw [text_eq_fill hshape]
    refine Shape.level_fill (shape_mem_all hshape) ?_ fun x hx => ?_
    · rw [List.length_map, length_operands hshape]
    · obtain ⟨operand, hoperand, rfl⟩ := List.mem_map.1 hx
      exact ih operand hoperand fun leaf hleaf => h leaf (leaves_of_operand hoperand hleaf)

/-! ## Names and literals -/

/-- Characters that may be exposed stay on their level. -/
theorem level_of_exposable {text : List Char} (hne : text ≠ [])
    (h : ∀ c ∈ text, isExposable c = true) : Level text := by
  have hquote : '"' ∉ text := fun hq => absurd (h _ hq) (by decide)
  refine ⟨hne, closed_of_no_quote hquote, ?_⟩
  rw [mask_of_no_quote hquote]
  clear hne hquote
  induction text with
  | nil => rfl
  | cons c rest ih =>
    have hc := h c List.mem_cons_self
    have hparen : c ≠ '(' ∧ c ≠ ')' ∧ isStatementMark c = false := by
      refine ⟨?_, ?_, ?_⟩
      · rintro rfl; exact absurd hc (by decide)
      · rintro rfl; exact absurd hc (by decide)
      · cases hmark : isStatementMark c with
        | false => rfl
        | true =>
          simp only [isStatementMark, Bool.or_eq_true, decide_eq_true_eq] at hmark
          rcases hmark with (rfl | rfl) | rfl <;> exact absurd hc (by decide)
    have hrest := ih fun d hd => h d (List.mem_cons_of_mem _ hd)
    simp [level?, hparen, hc, hrest]

theorem isExposable_of_isDigit {c : Char} (h : c.isDigit = true) : isExposable c = true := by
  simp [isExposable, isWordChar_of_isDigit h]

theorem isExposable_of_isNumeral {text : String} (h : isNumeral text = true) :
    ∀ c ∈ text.toList, isExposable c = true := by
  simp only [isNumeral, Bool.and_eq_true, List.all_eq_true] at h
  exact fun c hc => isExposable_of_isDigit (h.2 c hc)

theorem isExposable_of_isName {name : String} (h : isName name = true) :
    ∀ c ∈ name.toList, isExposable c = true := by
  intro c hc
  rcases (chars_of_isName h).2 c hc with hword | rfl
  · simp [isExposable, hword]
  · decide

theorem isExposable_toDigits (n : Nat) : ∀ c ∈ Nat.toDigits 10 n, isExposable c = true :=
  fun _ hc => isExposable_of_isDigit (Nat.isDigit_of_mem_toDigits (by decide) (by decide) hc)

theorem level_of_isNumeral {text : String} (h : isNumeral text = true) : Level text.toList := by
  refine level_of_exposable (fun he => ?_) (isExposable_of_isNumeral h)
  rw [String.toList_eq_nil_iff.1 he] at h
  cases h

theorem level_of_isStringLiteral {text : String} (h : isStringLiteral text = true) :
    Level text.toList := by
  obtain ⟨hclosed, hmask⟩ := closed_of_isStringLiteral h
  refine ⟨?_, hclosed, ?_⟩
  · intro he
    simp [isStringLiteral, he] at h
  · generalize mask .code text.toList = masked at hmask
    induction masked with
    | nil => rfl
    | cons c rest ih =>
      obtain rfl := hmask c List.mem_cons_self
      exact ih fun d hd => hmask d (List.mem_cons_of_mem _ hd)

theorem level_of_isName {name : String} (h : isName name = true) : Level name.toList :=
  level_of_exposable (chars_of_isName h).1 (isExposable_of_isName h)

theorem level_digits (n : Nat) : Level (Nat.toDigits 10 n) :=
  level_of_exposable Nat.toDigits_ne_nil (isExposable_toDigits n)

/-- A sign would be exposed; so a negative integer stands in parentheses. -/
theorem level_integerText (n : Int) : Level (integerText n).toList := by
  cases n with
  | ofNat n =>
    rw [toList_integerText_ofNat]
    exact level_digits n
  | negSucc n =>
    obtain ⟨hne, hclosed, hlevel⟩ := level_digits (n + 1)
    have hopen : Closed ("(-".toList ++ Nat.toDigits 10 (n + 1)) :=
      (closed_of_no_quote (by decide)).append hclosed
    rw [toList_integerText_negSucc]
    refine ⟨by simp, hopen.append (closed_of_no_quote (by decide)), ?_⟩
    have hsign : level? 0 (mask .code "(-".toList) = some 1 := by decide
    have hdigits : level? 1 (mask .code (Nat.toDigits 10 (n + 1))) = some 1 := level?_add 1 hlevel
    rw [hopen.mask_append, (closed_of_no_quote (by decide)).mask_append, level?_append,
      level?_append, hsign, Option.bind_some, hdigits]
    rfl

end PixelJava.Java
