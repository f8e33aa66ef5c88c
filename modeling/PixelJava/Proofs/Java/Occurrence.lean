/-
How often a pattern stands in a text. The occurrences in two texts put together are those in the
parts unless one lies across the seam; it would take a proper part of the pattern, from its front,
for the end of the first text, and the rest of it for the front of the second. The marks of a shape
rule this out at every seam with an operand, whatever the operands are. So the calls of a method in
the text of an expression are counted operand by operand, as often as the shape writes them.
-/
import PixelJava.Proofs.Java.Shape
import Mathlib.Algebra.GroupWithZero.Nat

namespace PixelJava.Java

/-! ## Occurrences -/

/-- The number of places in a text where `pattern` starts. -/
def occurrences (pattern : List Char) : List Char → Nat
  | [] => 0
  | c :: rest => (if pattern.isPrefixOf (c :: rest) then 1 else 0) + occurrences pattern rest

section Seams

variable {pattern : List Char}

/-- Without an occurrence across the seam, the occurrences add up. -/
theorem occurrences_append {text text' : List Char}
    (h : ∀ part rest, part <:+ text → part ≠ [] → rest ≠ [] → pattern = part ++ rest →
      ¬rest <+: text') :
    occurrences pattern (text ++ text') = occurrences pattern text + occurrences pattern text' := by
  induction text with
  | nil => simp [occurrences]
  | cons c rest ih =>
    have hfront : pattern.isPrefixOf (c :: rest ++ text') = pattern.isPrefixOf (c :: rest) := by
      rw [Bool.eq_iff_iff, List.isPrefixOf_iff_prefix, List.isPrefixOf_iff_prefix]
      refine ⟨fun hp => ?_, fun hp => hp.trans (List.prefix_append _ _)⟩
      obtain ⟨after, hafter⟩ := hp
      rcases List.append_eq_append_iff.1 hafter with ⟨more, hwhole, -⟩ | ⟨more, hpattern, htext'⟩
      · exact ⟨more, hwhole.symm⟩
      · by_cases hmore : more = []
        · have hself : pattern = c :: rest := by rw [hpattern, hmore, List.append_nil]
          exact hself ▸ List.prefix_refl _
        · exact absurd ⟨after, htext'.symm⟩
            (h (c :: rest) more (List.suffix_refl _) (List.cons_ne_nil c rest) hmore hpattern)
    have hrest := ih fun part rest' hs => h part rest' (hs.trans (List.suffix_cons c rest))
    rw [List.cons_append, occurrences, ← List.cons_append, hfront, hrest, occurrences]
    omega

/-- Whether no occurrence can begin before `text` and reach into it, whatever stands behind. -/
def startsApart (pattern text : List Char) : Bool :=
  (List.range pattern.length).all fun i =>
    i = 0 || !((pattern.drop i).isPrefixOf text || text.isPrefixOf (pattern.drop i))

/-- Whether no occurrence can begin in `text` and reach beyond it. -/
def endsApart (pattern text : List Char) : Bool :=
  text.getLast?.all fun c => !pattern.dropLast.contains c

/-- No occurrence reaches into a text from before it, if none can begin there. -/
theorem occurrences_of_startsApart {text : List Char} (h : startsApart pattern text = true)
    (before after : List Char) :
    occurrences pattern (before ++ (text ++ after)) =
      occurrences pattern before + occurrences pattern (text ++ after) := by
  refine occurrences_append fun part rest _ hpart hrest hpattern hp => ?_
  have hdrop : pattern.drop part.length = rest := by rw [hpattern, List.drop_left]
  have hlt : part.length < pattern.length := by
    rw [hpattern, List.length_append]
    have := List.length_pos_iff.2 hrest
    omega
  have hne : part.length ≠ 0 := fun hzero => hpart (List.length_eq_zero_iff.1 hzero)
  have happart := List.all_eq_true.1 h part.length (List.mem_range.2 hlt)
  simp only [hdrop, hne, decide_false, Bool.false_or, Bool.not_eq_true', Bool.or_eq_false_iff]
    at happart
  -- of two texts with one front, the shorter is the front of the other
  rcases List.prefix_or_prefix_of_prefix hp (List.prefix_append text after) with hle | hle
  · exact absurd (List.isPrefixOf_iff_prefix.2 hle) (by simp [happart.1])
  · exact absurd (List.isPrefixOf_iff_prefix.2 hle) (by simp [happart.2])

/-- No occurrence reaches out of a text, if none can begin there. -/
theorem occurrences_of_endsApart {text : List Char} (h : endsApart pattern text = true)
    (after : List Char) :
    occurrences pattern (text ++ after) =
      occurrences pattern text + occurrences pattern after := by
  refine occurrences_append fun part rest hs hpart hrest hpattern _ => ?_
  -- the last character of the text would be one of the pattern, and not its last
  obtain ⟨before, rfl⟩ := hs
  have hlast : (before ++ part).getLast? = some (part.getLast hpart) := by
    rw [List.getLast?_append, List.getLast?_eq_some_getLast hpart]
    rfl
  have hmem : part.getLast hpart ∈ pattern.dropLast := by
    rw [hpattern, List.dropLast_append_of_ne_nil hrest]
    exact List.mem_append_left _ (List.getLast_mem hpart)
  rw [endsApart, hlast] at h
  simp [hmem] at h

/-- A pattern occurs no time in the texts that it is no part of. -/
theorem occurrences_eq_zero_iff (hne : pattern ≠ []) {text : List Char} :
    occurrences pattern text = 0 ↔ ¬pattern <:+: text := by
  induction text with
  | nil => simpa [occurrences] using hne
  | cons c rest ih =>
    rw [occurrences, List.infix_cons_iff, ← List.isPrefixOf_iff_prefix, not_or, ← ih]
    cases pattern.isPrefixOf (c :: rest) <;> simp

/-- A text that lacks a part of the pattern lacks the pattern. -/
theorem occurrences_eq_zero_of_infix {part text : List Char} (hne : part ≠ [])
    (hp : part <:+: pattern) (h : occurrences part text = 0) : occurrences pattern text = 0 := by
  have hpattern : pattern ≠ [] := by
    rintro rfl
    exact hne (List.infix_nil.1 hp)
  rw [occurrences_eq_zero_iff hne] at h
  rw [occurrences_eq_zero_iff hpattern]
  exact fun hi => h (hp.trans hi)

theorem occurrences_eq_zero_of_notMem {c : Char} (hc : c ∈ pattern) {text : List Char}
    (h : c ∉ text) : occurrences pattern text = 0 := by
  rw [occurrences_eq_zero_iff (List.ne_nil_of_mem hc)]
  exact fun hi => h (hi.subset hc)

end Seams

/-! ## Calls that write into an image -/

/-- What a call that writes an image into another starts with. -/
def copyOpening : List Char :=
  "ImageOps.copyInto(".toList

/-- The number of calls in a text that write an image into another. -/
def copyCalls (text : List Char) : Nat :=
  occurrences copyOpening text

/-- Whether a mark keeps the calls before and behind it apart, and holds none. -/
def isSeam (mark : List Char) : Bool :=
  startsApart copyOpening mark && endsApart copyOpening mark && copyCalls mark = 0

/-- The copies around a seam are counted on either side. -/
theorem copyCalls_seam {mark : List Char} (h : isSeam mark = true) (before after : List Char) :
    copyCalls (before ++ (mark ++ after)) = copyCalls before + copyCalls after := by
  simp only [isSeam, Bool.and_eq_true, decide_eq_true_eq] at h
  unfold copyCalls at h ⊢
  rw [occurrences_of_startsApart h.1.1, occurrences_of_endsApart h.1.2, h.2, Nat.zero_add]

namespace Shape

/-- Whether the shape is a call that writes an image into another. -/
def isCopy : Shape → Bool
  | .call .copyInto _ => true
  | _ => false

/-- The marks of a shape divide its operands, and only one shape opens with the call of a copy. -/
theorem isSeam_marks : ∀ shape ∈ all,
    endsApart copyOpening shape.opening = true ∧
      copyCalls shape.opening = (if shape.isCopy then 1 else 0) ∧
      ∀ slot ∈ shape.slots, isSeam slot.2 = true := by
  decide +kernel

/-- An operand counts as often as it is repeated. -/
theorem copyCalls_slots {operands : List (List Char)} {slots : List (Nat × List Char)}
    (h : ∀ slot ∈ slots, isSeam slot.2 = true) :
    copyCalls (slots.flatMap fun slot => operands.getD slot.1 [] ++ slot.2) =
      (slots.map fun slot => copyCalls (operands.getD slot.1 [])).sum := by
  induction slots with
  | nil => rfl
  | cons slot rest ih =>
    rw [List.flatMap_cons, List.append_assoc, copyCalls_seam (h slot List.mem_cons_self),
      ih fun s hs => h s (List.mem_cons_of_mem _ hs), List.map_cons, List.sum_cons]

/-- The calls in a filled shape: its own, and those of each operand as often as it has a place. -/
theorem copyCalls_fill {shape : Shape} (hshape : shape ∈ all) (operands : List (List Char)) :
    copyCalls (shape.fill operands) = (if shape.isCopy then 1 else 0) +
      (shape.slots.map fun slot => copyCalls (operands.getD slot.1 [])).sum := by
  obtain ⟨hends, hopening, hslots⟩ := isSeam_marks shape hshape
  rw [← hopening, ← copyCalls_slots hslots]
  exact occurrences_of_endsApart hends _

end Shape

/-- How often an operation writes its operands: once for each channel, or once. -/
def Operation.times : Operation → Nat
  | .pixelDivide | .pixelScale | .pixelNumber => 3
  | _ => 1

namespace Expr

/-- The copies in an expression are its own and those in its slots. -/
theorem copyCalls_text {e : Expr} {shape : Shape} (h : e.shape? = some shape) :
    copyCalls e.text.toList = (if shape.isCopy then 1 else 0) + (shape.slots.map fun slot =>
      copyCalls ((e.operands.map fun x => x.text.toList).getD slot.1 [])).sum := by
  rw [text_eq_fill h, Shape.copyCalls_fill (shape_mem_all h)]

variable (a b c : Expr)

theorem copyCalls_cond : copyCalls (cond a b c).text.toList =
    copyCalls a.text.toList + (copyCalls b.text.toList + copyCalls c.text.toList) := by
  simp [copyCalls_text (e := cond a b c) rfl, Shape.isCopy, Shape.slots, operands]

theorem copyCalls_unary (op : UnaryOp) :
    copyCalls (unary op a).text.toList = copyCalls a.text.toList := by
  cases op <;> simp [copyCalls_text (e := unary _ a) rfl, Shape.isCopy, Shape.slots, operands]

theorem copyCalls_binary (how : Operation) (op : BinaryOp) :
    copyCalls (binary how op a b).text.toList =
      how.times * (copyCalls a.text.toList + copyCalls b.text.toList) := by
  rw [copyCalls_text (e := binary how op a b) rfl]
  cases how <;>
    simp [Shape.isCopy, Shape.slots, Operation.slots, operands, Operation.times] <;> omega

theorem copyCalls_call1 {method : Method} (h : method ≠ .copyInto) :
    copyCalls (call1 method a).text.toList = copyCalls a.text.toList := by
  simp [copyCalls_text (e := call1 method a) rfl, Shape.isCopy, Shape.slots, operands, h]

theorem copyCalls_call2 (method : Method) : copyCalls (call2 method a b).text.toList =
    (if method = .copyInto then 1 else 0) +
      (copyCalls a.text.toList + copyCalls b.text.toList) := by
  rw [copyCalls_text (e := call2 method a b) rfl]
  cases method <;> simp [Shape.isCopy, Shape.slots, operands]

theorem copyCalls_call3 {method : Method} (h : method ≠ .copyInto) :
    copyCalls (call3 method a b c).text.toList =
      copyCalls a.text.toList + (copyCalls b.text.toList + copyCalls c.text.toList) := by
  simp [copyCalls_text (e := call3 method a b c) rfl, Shape.isCopy, Shape.slots, operands, h]

end Expr

/-! ## Assignments -/

theorem isSeam_statement : isSeam ";\n".toList = true ∧ isSeam " = ".toList = true ∧
    isSeam ", ".toList = true ∧ isSeam ");\n".toList = true ∧
    isSeam Method.setPixel.opening = true := by
  decide +kernel

theorem copyCalls_perform (value : Expr) :
    copyCalls (Stmt.perform value).text.toList = copyCalls value.text.toList := by
  have htext : (Stmt.perform value).text.toList = value.text.toList ++ (";\n".toList ++ []) := by
    simp only [Stmt.text, String.toList_append, List.append_nil]
  rw [htext, copyCalls_seam isSeam_statement.1]
  rfl

theorem copyCalls_assign (name : String) (value : Expr) :
    copyCalls (Stmt.assign name value).text.toList =
      copyCalls name.toList + copyCalls value.text.toList := by
  obtain ⟨hend, hassign, -⟩ := isSeam_statement
  have htext : (Stmt.assign name value).text.toList =
      name.toList ++ (" = ".toList ++ (value.text.toList ++ (";\n".toList ++ []))) := by
    simp only [Stmt.text, String.toList_append, List.append_assoc, List.append_nil]
  rw [htext, copyCalls_seam hassign, copyCalls_seam hend]
  rfl

theorem copyCalls_setPixel (image : String) (x y value : Expr) :
    copyCalls (Stmt.setPixel image x y value).text.toList =
      copyCalls image.toList + (copyCalls x.text.toList + (copyCalls y.text.toList +
        copyCalls value.text.toList)) := by
  obtain ⟨-, -, hcomma, hend, hopening⟩ := isSeam_statement
  have htext : (Stmt.setPixel image x y value).text.toList =
      [] ++ (Method.setPixel.opening ++ (image.toList ++ (", ".toList ++ (x.text.toList ++
        (", ".toList ++ (y.text.toList ++ (", ".toList ++ (value.text.toList ++
          (");\n".toList ++ []))))))))) := by
    simp [Stmt.text, Method.call, Method.opening, commas]
  rw [htext, copyCalls_seam hopening, copyCalls_seam hcomma, copyCalls_seam hcomma,
    copyCalls_seam hcomma, copyCalls_seam hend]
  exact Nat.zero_add _

end PixelJava.Java
