/-
String literals in Java text. A reader that goes over a text from front to back is in code or in a
literal; a backslash in a literal takes the meaning from the next character. Masking a text replaces
every character of its literals by a quote and leaves the code, so that what is said of a text outside
its literals is said of the masked text.
-/
import PixelJava.Proofs.Java.Shape

namespace PixelJava.Java

/-! ## Reading -/

/-- Where a reader of a text stands. -/
inductive Mode where
  | code
  | literal
  /-- In a literal, behind a backslash. -/
  | escape
  deriving DecidableEq

namespace Mode

def next (mode : Mode) (c : Char) : Mode :=
  match mode with
  | .code => if c = '"' then .literal else .code
  | .literal => if c = '\\' then .escape else if c = '"' then .code else .literal
  | .escape => .literal

/-- Where a reader stands behind `text`. -/
def after (mode : Mode) (text : List Char) : Mode :=
  text.foldl next mode

@[simp] theorem after_nil (mode : Mode) : mode.after [] = mode := rfl

@[simp] theorem after_cons (mode : Mode) (c : Char) (text : List Char) :
    mode.after (c :: text) = (mode.next c).after text := rfl

/-- The mode behind two texts is reached through the mode between them. -/
theorem after_append (mode : Mode) (text text' : List Char) :
    mode.after (text ++ text') = (mode.after text).after text' :=
  List.foldl_append

end Mode

/-- Replaces the characters of literals, with their quotes, by quotes. -/
def mask : Mode → List Char → List Char
  | _, [] => []
  | mode, c :: rest => (if mode = .code then c else '"') :: mask (mode.next c) rest

/-- Masking goes on behind a text in the mode that the text ends in. -/
theorem mask_append (mode : Mode) (text text' : List Char) :
    mask mode (text ++ text') = mask mode text ++ mask (mode.after text) text' := by
  induction text generalizing mode with
  | nil => rfl
  | cons c rest ih => simp [mask, ih]

/-- Masking brings in no character but the quote. -/
theorem mem_mask {mode : Mode} {text : List Char} {c : Char} (h : c ∈ mask mode text) :
    c = '"' ∨ c ∈ text := by
  induction text generalizing mode with
  | nil => cases h
  | cons d rest ih =>
    rcases List.mem_cons.1 h with h | h
    · split at h
      · exact .inr (h ▸ List.mem_cons_self)
      · exact .inl h
    · exact (ih h).imp_right (List.mem_cons_of_mem d)

/-- The text has no literal that is left open. -/
def Closed (text : List Char) : Prop :=
  Mode.code.after text = .code

theorem Closed.append {text text' : List Char} (h : Closed text) (h' : Closed text') :
    Closed (text ++ text') := by
  unfold Closed at *
  rw [Mode.after_append, h, h']

/-- Behind a closed text masking starts anew. -/
theorem Closed.mask_append {text : List Char} (h : Closed text) (text' : List Char) :
    mask .code (text ++ text') = mask .code text ++ mask .code text' := by
  rw [Java.mask_append, h]

theorem closed_of_no_quote {text : List Char} (h : '"' ∉ text) : Closed text := by
  induction text with
  | nil => rfl
  | cons c rest ih =>
    obtain ⟨hc, hrest⟩ := not_or.1 (fun hor => h (List.mem_cons.2 hor))
    have hnext : Mode.code.next c = .code := if_neg (Ne.symm hc)
    unfold Closed
    rw [Mode.after_cons, hnext]
    exact ih hrest

theorem mask_of_no_quote {text : List Char} (h : '"' ∉ text) : mask .code text = text := by
  induction text with
  | nil => rfl
  | cons c rest ih =>
    obtain ⟨hc, hrest⟩ := not_or.1 (fun hor => h (List.mem_cons.2 hor))
    have hnext : Mode.code.next c = .code := if_neg (Ne.symm hc)
    rw [mask, hnext, ih hrest, if_pos rfl]

/-! ## Literals -/

/-- Whether the literal that a reader is in ends with the text, and not before. -/
def closes : Mode → List Char → Bool
  | .code, rest => rest.isEmpty
  | _, [] => false
  | mode, c :: rest => closes (mode.next c) rest

/-- Whether the text is a string in double quotes: a quote, characters among which every quote is
escaped, and a quote that is not. -/
def isStringLiteral (text : String) : Bool :=
  match text.toList with
  | '"' :: rest => closes .literal rest
  | _ => false

/-- Whether the text is a non-empty row of digits. -/
def isNumeral (text : String) : Bool :=
  !text.isEmpty && text.toList.all Char.isDigit

/-- What a reader has passed when the literal it is in ends is all masked. -/
theorem after_of_closes {mode : Mode} {text : List Char} (h : closes mode text = true) :
    mode.after text = .code ∧ ∀ c ∈ mask mode text, c = '"' := by
  induction text generalizing mode with
  | nil =>
    cases mode with
    | code => exact ⟨rfl, fun c hc => (by cases hc)⟩
    | literal | escape => cases h
  | cons c rest ih =>
    cases mode with
    | code => cases h
    | literal | escape =>
      obtain ⟨hafter, hmask⟩ := ih h
      refine ⟨hafter, fun d hd => ?_⟩
      rcases List.mem_cons.1 hd with rfl | hd
      · rfl
      · exact hmask d hd

/-- A string literal is closed, and all of it is masked. -/
theorem closed_of_isStringLiteral {text : String} (h : isStringLiteral text = true) :
    Closed text.toList ∧ ∀ c ∈ mask .code text.toList, c = '"' := by
  unfold isStringLiteral at h
  split at h
  · rename_i rest htext
    obtain ⟨hafter, hmask⟩ := after_of_closes h
    rw [htext]
    refine ⟨hafter, fun c hc => ?_⟩
    rcases List.mem_cons.1 hc with rfl | hc
    · rfl
    · exact hmask c hc
  · cases h

/-! ## Integers -/

theorem toList_integerText_ofNat (n : Nat) :
    (integerText (Int.ofNat n)).toList = Nat.toDigits 10 n := by
  have hneg : ¬Int.ofNat n < 0 := Int.not_lt.2 (Int.natCast_nonneg n)
  have htext : integerText (Int.ofNat n) = n.repr := by
    rw [integerText, if_neg hneg]
    rfl
  rw [htext, Nat.toList_repr]

theorem toList_integerText_negSucc (n : Nat) :
    (integerText (Int.negSucc n)).toList = "(-".toList ++ Nat.toDigits 10 (n + 1) ++ [')'] := by
  have htext : integerText (Int.negSucc n) = "(" ++ ("-" ++ (n + 1).repr) ++ ")" := by
    rw [integerText, if_pos (Int.negSucc_lt_zero n)]
    rfl
  simp [htext]

theorem mem_integerText {n : Int} {c : Char} (h : c ∈ (integerText n).toList) :
    c.isDigit = true ∨ c ∈ "(-)".toList := by
  have hdigits {k : Nat} (hc : c ∈ Nat.toDigits 10 k) : c.isDigit = true :=
    Nat.isDigit_of_mem_toDigits (by decide) (by decide) hc
  cases n with
  | ofNat n =>
    rw [toList_integerText_ofNat] at h
    exact .inl (hdigits h)
  | negSucc n =>
    rw [toList_integerText_negSucc, List.mem_append, List.mem_append] at h
    rcases h with (h | h) | h
    · exact .inr (List.mem_append_left [')'] h)
    · exact .inl (hdigits h)
    · exact .inr (List.mem_append_right "(-".toList h)

/-! ## Shapes with operands in their places -/

namespace Shape

/-- The slots of a shape hold its operands. -/
theorem operand_mem {shape : Shape} (hshape : shape ∈ all) {operands : List (List Char)}
    (hlength : operands.length = shape.arity) {slot : Nat × List Char}
    (hslot : slot ∈ shape.slots) : operands.getD slot.1 [] ∈ operands := by
  have hlt : slot.1 < operands.length := hlength ▸ (slots_arity shape hshape).1 slot hslot
  rw [List.getD_eq_getElem?_getD, List.getElem?_eq_getElem hlt]
  exact List.getElem_mem hlt

/-- What stands around operands holds no literals. -/
theorem no_quote : ∀ shape ∈ all,
    '"' ∉ shape.opening ∧ ∀ slot ∈ shape.slots, '"' ∉ slot.2 := by
  decide +kernel

/-- Masking goes through to the operands. -/
theorem mask_fill {shape : Shape} (hshape : shape ∈ all) {operands : List (List Char)}
    (hlength : operands.length = shape.arity) (hclosed : ∀ x ∈ operands, Closed x) :
    Closed (shape.fill operands) ∧
      mask .code (shape.fill operands) = shape.fill (operands.map (mask .code)) := by
  obtain ⟨hopening, hslots⟩ := no_quote shape hshape
  have hoperand : ∀ slot ∈ shape.slots, Closed (operands.getD slot.1 []) :=
    fun slot hslot => hclosed _ (operand_mem hshape hlength hslot)
  have hmap (i : Nat) : (operands.map (mask .code)).getD i [] = mask .code (operands.getD i []) := by
    rw [List.getD_eq_getElem?_getD, List.getD_eq_getElem?_getD, List.getElem?_map]
    cases operands[i]? <;> rfl
  unfold fill
  rw [(closed_of_no_quote hopening).mask_append, mask_of_no_quote hopening]
  simp only [hmap]
  generalize shape.slots = slots at hslots hoperand
  suffices h : Closed (slots.flatMap fun slot => operands.getD slot.1 [] ++ slot.2) ∧
      mask .code (slots.flatMap fun slot => operands.getD slot.1 [] ++ slot.2) =
        slots.flatMap fun slot => mask .code (operands.getD slot.1 []) ++ slot.2 from
    ⟨(closed_of_no_quote hopening).append h.1, congrArg _ h.2⟩
  induction slots with
  | nil => exact ⟨rfl, rfl⟩
  | cons slot rest ih =>
    obtain ⟨hrest, hmask⟩ := ih (fun s hs => hslots s (List.mem_cons_of_mem _ hs))
      (fun s hs => hoperand s (List.mem_cons_of_mem _ hs))
    have hslot := hoperand slot List.mem_cons_self
    have hplain := hslots slot List.mem_cons_self
    have hhead := hslot.append (closed_of_no_quote hplain)
    simp only [List.flatMap_cons]
    refine ⟨hhead.append hrest, ?_⟩
    rw [hhead.mask_append, hslot.mask_append, mask_of_no_quote hplain, hmask]

end Shape

end PixelJava.Java
