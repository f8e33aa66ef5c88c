/-
Signs that run together. A sign right behind the same sign is read with it as one operator, a
decrement or an increment. The marks of a shape have no two such signs, and they keep the signs of
operands apart, with one exception: a unary sign stands right before its operand. So two signs meet
just where the text of such an operand begins with the sign that stands before it.
-/
import PixelJava.Proofs.Java.Splice

namespace PixelJava.Java

/-! ## Doubled signs -/

/-- The signs that make another operator when they are doubled. -/
def signs : List Char :=
  ['+', '-']

theorem forall_signs {P : Char → Prop} : (∀ sign ∈ signs, P sign) ↔ P '+' ∧ P '-' := by
  simp [signs]

/-- Somewhere in the text `sign` stands right behind `sign`. -/
def Doubled (sign : Char) (text : List Char) : Prop :=
  [sign, sign] <:+: text

instance (sign : Char) (text : List Char) : Decidable (Doubled sign text) :=
  inferInstanceAs (Decidable ([sign, sign] <:+: text))

section Texts

variable {sign : Char} {text text' : List Char}

theorem doubled_cons {c : Char} :
    Doubled sign (c :: text) ↔ (c = sign ∧ text.head? = some sign) ∨ Doubled sign text := by
  unfold Doubled
  rw [List.infix_cons_iff, List.cons_prefix_cons, eq_comm]
  cases text with
  | nil => simp
  | cons d rest => simp [eq_comm]

/-- Two signs of a text put together stand in one of the parts or meet at the seam. -/
theorem doubled_append :
    Doubled sign (text ++ text') ↔ Doubled sign text ∨ Doubled sign text' ∨
      (text.getLast? = some sign ∧ text'.head? = some sign) := by
  induction text with
  | nil => simp [Doubled]
  | cons c rest ih =>
    rw [List.cons_append, doubled_cons, doubled_cons, ih]
    cases rest with
    | nil => simp [Doubled, or_comm]
    | cons d rest => simp [or_assoc]

/-- A sign that occurs once cannot be doubled. -/
theorem not_doubled_of_count (h : text.count sign ≤ 1) : ¬Doubled sign text := by
  intro hd
  have htwo : [sign, sign].count sign ≤ text.count sign := hd.count_le sign
  simp at htwo
  omega

theorem head?_mask (text : List Char) : (mask .code text).head? = text.head? := by
  cases text <;> rfl

/-- Whether a mark has no doubled sign and keeps the signs before and behind it apart. -/
def isDivider (sign : Char) (mark : List Char) : Bool :=
  mark.head?.any (· ≠ sign) && mark.getLast? ≠ some sign && !decide (Doubled sign mark)

/-- No sign is doubled across a mark that divides. -/
theorem doubled_divider {mark : List Char} (h : isDivider sign mark = true) :
    Doubled sign (text ++ (mark ++ text')) ↔ Doubled sign text ∨ Doubled sign text' := by
  simp only [isDivider, Bool.and_eq_true, Option.any_eq_true, decide_eq_true_eq, Bool.not_eq_true',
    decide_eq_false_iff_not] at h
  obtain ⟨⟨⟨c, hhead, hc⟩, hlast⟩, hmark⟩ := h
  simp [doubled_append, List.head?_append, hhead, hc, hlast, hmark]

end Texts

/-- The text leaves no literal open, and outside its literals no sign is doubled. -/
def SignsApart (text : List Char) : Prop :=
  Closed text ∧ ∀ sign ∈ signs, ¬Doubled sign (mask .code text)

/-! ## Shapes -/

namespace Shape

/-- The sign that stands right before the operand. -/
def sign? : Shape → Option Char
  | .unary .plus => some '+'
  | .unary .minus => some '-'
  | _ => none

/-- Whether nothing stands before the first operand. -/
def startsBare : Shape → Bool
  | .binary .stringEquals _ => true
  | _ => false

theorem opening_eq_nil_iff : ∀ shape ∈ all, shape.opening = [] ↔ shape.startsBare = true := by
  decide +kernel

/-- Every mark behind an operand keeps signs apart. What stands before the first operand has no
doubled sign, does not begin with a sign, and ends with one just if the shape is a unary sign. -/
theorem signs_marks : ∀ shape ∈ all, ∀ sign ∈ signs,
    (∀ slot ∈ shape.slots, isDivider sign slot.2 = true) ∧ ¬Doubled sign shape.opening ∧
      shape.opening.head? ≠ some sign ∧
      (shape.opening.getLast? = some sign ↔ shape.sign? = some sign) := by
  simp only [forall_signs]
  decide +kernel

theorem head?_slots : ∀ shape ∈ all, shape.slots.head?.map Prod.fst = some 0 := by
  decide +kernel

variable {shape : Shape} {sign : Char} {operands : List (List Char)}

/-- Where all marks divide, a sign is doubled in a slot or not at all. -/
theorem doubled_slots {slots : List (Nat × List Char)}
    (h : ∀ slot ∈ slots, isDivider sign slot.2 = true) :
    Doubled sign (slots.flatMap fun slot => operands.getD slot.1 [] ++ slot.2) ↔
      ∃ slot ∈ slots, Doubled sign (operands.getD slot.1 []) := by
  induction slots with
  | nil => simp [Doubled]
  | cons slot rest ih =>
    rw [List.flatMap_cons, List.append_assoc, doubled_divider (h slot List.mem_cons_self),
      ih fun s hs => h s (List.mem_cons_of_mem _ hs)]
    simp

/-- Behind the opening, the text begins with a sign just if the first operand does. -/
theorem head?_places (hshape : shape ∈ all) (hsign : sign ∈ signs) :
    (shape.slots.flatMap fun slot => operands.getD slot.1 [] ++ slot.2).head? = some sign ↔
      (operands.getD 0 []).head? = some sign := by
  have hfirst := head?_slots shape hshape
  have hmarks := (signs_marks shape hshape sign hsign).1
  cases hslots : shape.slots with
  | nil =>
    rw [hslots] at hfirst
    cases hfirst
  | cons slot rest =>
    rw [hslots] at hfirst hmarks
    have hzero : slot.1 = 0 := by simpa using hfirst
    obtain ⟨c, hc, hne⟩ : ∃ c, slot.2.head? = some c ∧ c ≠ sign := by
      have := hmarks slot List.mem_cons_self
      simp only [isDivider, Bool.and_eq_true, Option.any_eq_true, decide_eq_true_eq] at this
      exact this.1.1
    rw [List.flatMap_cons, hzero, List.append_assoc, List.head?_append, List.head?_append, hc]
    cases operands.getD 0 [] with
    | nil => simpa using hne
    | cons d more => simp

/-- Only a shape that starts with its first operand can start with a sign. -/
theorem head?_fill (hshape : shape ∈ all) (hsign : sign ∈ signs) :
    (shape.fill operands).head? = some sign ↔
      shape.startsBare = true ∧ (operands.getD 0 []).head? = some sign := by
  have hopening := (signs_marks shape hshape sign hsign).2.2.1
  rw [fill, List.head?_append, ← opening_eq_nil_iff shape hshape]
  cases h : shape.opening with
  | nil => simpa using head?_places hshape hsign
  | cons c rest =>
    rw [h] at hopening
    simpa using hopening

/-- Two signs in a shape with its operands stand in an operand, or the first is that of the shape
and the operand begins with the second. -/
theorem doubled_fill (hshape : shape ∈ all) (hsign : sign ∈ signs)
    (hlength : operands.length = shape.arity) :
    Doubled sign (shape.fill operands) ↔ (∃ x ∈ operands, Doubled sign x) ∨
      (shape.sign? = some sign ∧ (operands.getD 0 []).head? = some sign) := by
  obtain ⟨hmarks, hopening, -, hlast⟩ := signs_marks shape hshape sign hsign
  have hoperands : (∃ slot ∈ shape.slots, Doubled sign (operands.getD slot.1 [])) ↔
      ∃ x ∈ operands, Doubled sign x := by
    constructor
    · rintro ⟨slot, hslot, hd⟩
      exact ⟨_, operand_mem hshape hlength hslot, hd⟩
    · rintro ⟨x, hx, hd⟩
      obtain ⟨i, hi, rfl⟩ := List.mem_iff_getElem.1 hx
      obtain ⟨slot, hslot, rfl⟩ := (slots_arity shape hshape).2 i (hlength ▸ hi)
      refine ⟨slot, hslot, ?_⟩
      rwa [List.getD_eq_getElem?_getD, List.getElem?_eq_getElem hi]
  rw [fill, doubled_append, doubled_slots hmarks, hoperands, hlast, head?_places hshape hsign]
  exact or_iff_right hopening

end Shape

/-! ## Expressions -/

namespace Expr

/-- Somewhere in the expression a sign stands right before an operand whose text begins with it. -/
def joins (sign : Char) : Expr → Prop
  | .name _ | .literal _ | .integer _ => False
  | .cond guard whenTrue whenFalse =>
    guard.joins sign ∨ whenTrue.joins sign ∨ whenFalse.joins sign
  | .unary op operand =>
    operand.joins sign ∨
      ((Shape.unary op).sign? = some sign ∧ operand.text.toList.head? = some sign)
  | .binary _ _ left right => left.joins sign ∨ right.joins sign
  | .call1 _ a => a.joins sign
  | .call2 _ a b => a.joins sign ∨ b.joins sign
  | .call3 _ a b c => a.joins sign ∨ b.joins sign ∨ c.joins sign

variable {e : Expr} {shape : Shape} {sign : Char}

/-- Two signs join in an operand, or where the sign of the shape meets that of its first operand. -/
theorem joins_iff (h : e.shape? = some shape) :
    e.joins sign ↔ (∃ x ∈ e.operands, x.joins sign) ∨
      (shape.sign? = some sign ∧
        ((e.operands.map fun x => x.text.toList).getD 0 []).head? = some sign) := by
  cases e with
  | name | literal | integer => cases h
  | unary op operand => cases h; simp [joins, operands]
  | cond | binary | call1 | call2 | call3 => cases h; simp [joins, operands, Shape.sign?]

theorem head?_text (h : e.shape? = some shape) (hsign : sign ∈ signs) :
    e.text.toList.head? = some sign ↔ shape.startsBare = true ∧
      ((e.operands.map fun x => x.text.toList).getD 0 []).head? = some sign := by
  rw [text_eq_fill h, Shape.head?_fill (shape_mem_all h) hsign]

theorem head?_ne_sign (h : e.shape? = some shape) (hbare : shape.startsBare = false)
    (hsign : sign ∈ signs) : e.text.toList.head? ≠ some sign := by
  rw [Ne, head?_text h hsign, hbare]
  exact fun hhead => absurd hhead.1 (by decide)

/-- Of the operations only the comparison of strings begins with its first operand. -/
theorem head?_binary {how : Operation} {op : BinaryOp} {left right : Expr} (hsign : sign ∈ signs) :
    (Expr.binary how op left right).text.toList.head? = some sign ↔
      how = .stringEquals ∧ left.text.toList.head? = some sign := by
  have hbare : (Shape.binary how op).startsBare = true ↔ how = .stringEquals := by
    cases how <;> simp [Shape.startsBare]
  have hshape : (Expr.binary how op left right).shape? = some (.binary how op) := rfl
  rw [head?_text hshape hsign, hbare]
  simp [operands]

/-- If no name and no literal has two signs, outside strings, the expression has them just where a
unary sign meets that of its operand. -/
theorem doubled_text (hsign : sign ∈ signs) (h : ∀ leaf ∈ e.leaves, SignsApart leaf.toList) :
    Closed e.text.toList ∧ (Doubled sign (mask .code e.text.toList) ↔ e.joins sign) := by
  induction e using induction_on_shape with
  | leaf e hshape =>
    rw [leaves_of_leaf hshape] at h
    obtain ⟨hclosed, hapart⟩ := h _ List.mem_cons_self
    refine ⟨hclosed, iff_of_false (hapart sign hsign) ?_⟩
    cases e with
    | name | literal | integer => exact id
    | cond | unary | binary | call1 | call2 | call3 => cases hshape
  | node e shape hshape ih =>
    have hoperand (x : Expr) (hx : x ∈ e.operands) :=
      ih x hx fun leaf hleaf => h leaf (leaves_of_operand hx hleaf)
    have hlength : (e.operands.map fun x => x.text.toList).length = shape.arity := by
      rw [List.length_map, length_operands hshape]
    obtain ⟨hclosed, hmask⟩ := Shape.mask_fill (shape_mem_all hshape) hlength
      (by simpa using fun x hx => (hoperand x hx).1)
    rw [text_eq_fill hshape]
    refine ⟨hclosed, ?_⟩
    rw [hmask, Shape.doubled_fill (shape_mem_all hshape) hsign (by simpa using hlength),
      joins_iff hshape]
    refine or_congr ?_ (and_congr_right fun _ => ?_)
    · rw [List.map_map]
      constructor
      · rintro ⟨text, hmem, hd⟩
        obtain ⟨x, hx, rfl⟩ := List.mem_map.1 hmem
        exact ⟨x, hx, (hoperand x hx).2.1 hd⟩
      · rintro ⟨x, hx, hj⟩
        exact ⟨_, List.mem_map_of_mem hx, (hoperand x hx).2.2 hj⟩
    · -- masking leaves the first character of the operand
      cases e.operands <;> simp [head?_mask]

end Expr

/-! ## Names and literals -/

/-- Whether the text is a row of digits, with or without a minus before it. -/
def isSignedNumeral (text : String) : Bool :=
  match text.toList with
  | '-' :: digits => isNumeral (String.ofList digits)
  | _ => isNumeral text

theorem signsApart_of_count {text : List Char} (hquote : '"' ∉ text)
    (h : ∀ sign ∈ signs, text.count sign ≤ 1) : SignsApart text := by
  refine ⟨closed_of_no_quote hquote, fun sign hsign => ?_⟩
  rw [mask_of_no_quote hquote]
  exact not_doubled_of_count (h sign hsign)

/-- Characters that may be exposed are neither quotes nor signs. -/
theorem notMem_of_exposable {text : List Char} (h : ∀ c ∈ text, isExposable c = true) :
    '"' ∉ text ∧ ∀ sign ∈ signs, sign ∉ text := by
  have habsent {c : Char} (hc : isExposable c = false) : c ∉ text :=
    fun hmem => absurd (h c hmem) (by simp [hc])
  exact ⟨habsent (by decide), forall_signs.2 ⟨habsent (by decide), habsent (by decide)⟩⟩

theorem isSignedNumeral_cases {text : String} (h : isSignedNumeral text = true) :
    ∃ digits, (text.toList = digits ∨ text.toList = '-' :: digits) ∧
      ∀ c ∈ digits, isExposable c = true := by
  unfold isSignedNumeral at h
  split at h
  · rename_i digits htext
    exact ⟨digits, .inr htext, by simpa using isExposable_of_isNumeral h⟩
  · exact ⟨text.toList, .inl rfl, isExposable_of_isNumeral h⟩

theorem isNumeral_of_toDigits {text : String} {n : Nat} (h : text.toList = Nat.toDigits 10 n) :
    isNumeral text = true := by
  simp only [isNumeral, Bool.and_eq_true, Bool.not_eq_true', String.isEmpty_eq_false_iff,
    List.all_eq_true]
  refine ⟨?_, fun c hc => Nat.isDigit_of_mem_toDigits (by decide) (by decide) (h ▸ hc)⟩
  rintro rfl
  exact Nat.toDigits_ne_nil h.symm

/-- The decimal text of every integer is a row of digits, with a minus before it if need be. -/
theorem isSignedNumeral_toString (n : Int) : isSignedNumeral (toString n) = true := by
  cases n with
  | ofNat n =>
    have htext : (toString (Int.ofNat n)).toList = Nat.toDigits 10 n := Nat.toList_repr
    unfold isSignedNumeral
    split
    · rename_i digits hminus
      have hmem : '-' ∈ Nat.toDigits 10 n := by rw [← htext, hminus]; exact List.mem_cons_self
      exact absurd (Nat.isDigit_of_mem_toDigits (by decide) (by decide) hmem) (by decide)
    · exact isNumeral_of_toDigits htext
  | negSucc n =>
    have htext : (toString (Int.negSucc n)).toList = '-' :: Nat.toDigits 10 (n + 1) := by
      have hminus : toString (Int.negSucc n) = "-" ++ (n + 1).repr := rfl
      simp [hminus]
    rw [isSignedNumeral, htext]
    exact isNumeral_of_toDigits (String.toList_ofList)

theorem signsApart_of_exposable {text : List Char} (h : ∀ c ∈ text, isExposable c = true) :
    SignsApart text := by
  obtain ⟨hquote, hsigns⟩ := notMem_of_exposable h
  refine signsApart_of_count hquote fun sign hsign => ?_
  rw [List.count_eq_zero.2 (hsigns sign hsign)]
  decide

theorem signsApart_of_isSignedNumeral {text : String} (h : isSignedNumeral text = true) :
    SignsApart text.toList := by
  obtain ⟨digits, htext | htext, hdigits⟩ := isSignedNumeral_cases h
  · rw [htext]
    exact signsApart_of_exposable hdigits
  · obtain ⟨hquote, hsigns⟩ := notMem_of_exposable hdigits
    rw [htext]
    refine signsApart_of_count (by simp [hquote]) fun sign hsign => ?_
    rw [List.count_cons, List.count_eq_zero.2 (hsigns sign hsign)]
    split <;> decide

theorem signsApart_of_isStringLiteral {text : String} (h : isStringLiteral text = true) :
    SignsApart text.toList := by
  obtain ⟨hclosed, hmask⟩ := closed_of_isStringLiteral h
  refine ⟨hclosed, fun sign hsign hd => ?_⟩
  -- a sign would be one of the quotes that the literal is masked by
  have hquote := hmask sign (hd.subset List.mem_cons_self)
  exact (by decide : '"' ∉ signs) (hquote ▸ hsign)

theorem signsApart_parens {text : List Char} (h : SignsApart text) :
    SignsApart (['('] ++ (text ++ [')'])) := by
  have hopen : Closed ['('] := rfl
  refine ⟨hopen.append (h.1.append rfl), fun sign hsign => ?_⟩
  have hdivider : isDivider sign ['('] = true ∧ isDivider sign [')'] = true := by
    revert sign
    exact forall_signs.2 (by decide)
  have hmask : mask .code (['('] ++ (text ++ [')'])) =
      [] ++ (['('] ++ (mask .code text ++ ([')'] ++ []))) := by
    rw [hopen.mask_append, h.1.mask_append]
    rfl
  rw [hmask, doubled_divider hdivider.1, doubled_divider hdivider.2]
  simpa [Doubled] using h.2 sign hsign

/-- A negative integer stands in parentheses, so that its sign joins no other. -/
theorem signsApart_integerText (n : Int) : SignsApart (integerText n).toList := by
  have htext := signsApart_of_isSignedNumeral (isSignedNumeral_toString n)
  unfold integerText
  split
  · simpa using signsApart_parens htext
  · exact htext

/-! ## First characters of names and literals -/

section Heads

variable {sign : Char}

theorem head?_of_exposable (hsign : sign ∈ signs) {text : List Char}
    (h : ∀ c ∈ text, isExposable c = true) : text.head? ≠ some sign :=
  fun hhead => (notMem_of_exposable h).2 sign hsign (List.mem_of_head? hhead)

/-- The only sign that a numeral starts with is the minus. -/
theorem head?_of_isSignedNumeral (hsign : sign ∈ signs) {text : String}
    (h : isSignedNumeral text = true) (hhead : text.toList.head? = some sign) : sign = '-' := by
  obtain ⟨digits, htext | htext, hdigits⟩ := isSignedNumeral_cases h
  · rw [htext] at hhead
    exact absurd hhead (head?_of_exposable hsign hdigits)
  · rw [htext] at hhead
    exact (Option.some.inj hhead).symm

theorem head?_of_isStringLiteral (hsign : sign ∈ signs) {text : String}
    (h : isStringLiteral text = true) : text.toList.head? ≠ some sign := by
  unfold isStringLiteral at h
  split at h
  · rename_i rest htext
    rw [htext]
    rintro ⟨⟩
    exact absurd hsign (by decide)
  · cases h

/-- A negative integer begins with a parenthesis. -/
theorem head?_integerText (hsign : sign ∈ signs) (n : Int) :
    (integerText n).toList.head? ≠ some sign := by
  cases n with
  | ofNat n =>
    rw [toList_integerText_ofNat]
    exact head?_of_exposable hsign (isExposable_toDigits n)
  | negSucc n =>
    rw [toList_integerText_negSucc]
    rintro ⟨⟩
    exact absurd hsign (by decide)

end Heads

end PixelJava.Java
