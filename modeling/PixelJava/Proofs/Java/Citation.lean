/-
The library classes that Java text cites: those whose names are identifiers outside its literals. A
text that is put together cites what its parts cite, as long as no name runs over a seam. Names of
variables and literals cite nothing, and a shape cites the class that carries it out.
-/
import PixelJava.Proofs.Java.Identifier

namespace PixelJava.Java

/-- The text leaves no literal open, and the classes that it cites are `libs`. -/
structure Cites (text : List Char) (libs : List Library) : Prop where
  closed : Closed text
  cited : ∀ lib, lib.name.toList ∈ words (mask .code text) ↔ lib ∈ libs

theorem Library.mem_all (lib : Library) : lib ∈ all := by
  cases lib <;> decide

/-- The classes whose names are words of a text. -/
def citedIn (text : List Char) : List Library :=
  Library.all.filter fun lib => (words text).contains lib.name.toList

/-! ## Putting texts together -/

theorem endsBroken_mask {mode : Mode} {text : List Char} (h : endsBroken text = true) :
    endsBroken (mask mode text) = true := by
  rcases List.eq_nil_or_concat text with rfl | ⟨before, c, rfl⟩
  · rfl
  · rw [List.concat_eq_append] at h ⊢
    rw [mask_append, mask, mask, endsBroken, List.getLast?_concat]
    split
    · simpa [endsBroken] using h
    · decide

theorem startsBroken_mask {text : List Char} (h : startsBroken text = true) :
    startsBroken (mask .code text) = true := by
  cases text with
  | nil => rfl
  | cons c rest => exact h

theorem endsBroken_append {text text' : List Char} (h : endsBroken text' = true)
    (hne : text' ≠ []) : endsBroken (text ++ text') = true := by
  unfold endsBroken at h ⊢
  rwa [List.getLast?_append_of_ne_nil _ hne]

theorem startsBroken_append {text : List Char} (text' : List Char) (h : startsBroken text = true)
    (hne : text ≠ []) : startsBroken (text ++ text') = true := by
  cases text with
  | nil => exact absurd rfl hne
  | cons c rest => exact h

namespace Cites

variable {text text' : List Char} {libs libs' : List Library}

theorem congr (h : Cites text libs) (heq : ∀ lib, lib ∈ libs ↔ lib ∈ libs') : Cites text libs' :=
  ⟨h.closed, fun lib => (h.cited lib).trans (heq lib)⟩

/-- Identifiers are those of the two parts, unless one runs on over the seam. -/
theorem append (h : Cites text libs) (h' : Cites text' libs')
    (hseam : endsBroken text = true ∨ startsBroken text' = true) :
    Cites (text ++ text') (libs ++ libs') := by
  refine ⟨h.closed.append h'.closed, fun lib => ?_⟩
  rw [h.closed.mask_append, words_append (hseam.imp endsBroken_mask startsBroken_mask),
    List.mem_append, List.mem_append, h.cited, h'.cited]

/-- A text without literals cites the classes whose names are among its words. -/
theorem of_no_quote (h : '"' ∉ text) : Cites text (citedIn text) := by
  refine ⟨closed_of_no_quote h, fun lib => ?_⟩
  rw [mask_of_no_quote h, citedIn, List.mem_filter, List.contains_iff_mem]
  exact (and_iff_right lib.mem_all).symm

/-- A text cites nothing if each class name has a character that is not one of the text. -/
theorem none_of_chars (hclosed : Closed text)
    (h : ∀ lib : Library, ∃ c ∈ lib.name.toList, c ∉ mask .code text) : Cites text [] := by
  refine ⟨hclosed, fun lib => ?_⟩
  obtain ⟨c, hc, hno⟩ := h lib
  simp only [List.not_mem_nil, iff_false]
  exact fun hmem => hno (subset_of_mem_words hmem hc)

end Cites

/-! ## Marks -/

/-- Whether a mark holds no literals and cites nothing. -/
def isMark (mark : String) : Bool :=
  !mark.toList.contains '"' && (citedIn mark.toList).isEmpty

/-- Whether a mark can stand before any text. -/
def isOpening (mark : String) : Bool :=
  isMark mark && endsBroken mark.toList

/-- Whether a mark can stand behind any text and keep it apart from what follows. -/
def isClosing (mark : String) : Bool :=
  isMark mark && startsBroken mark.toList && !mark.toList.isEmpty

namespace Cites

variable {text text' : String} {libs libs' : List Library}

/-- Marks cite nothing. -/
theorem of_isMark {mark : String} (h : isMark mark = true) : Cites mark.toList [] := by
  simp only [isMark, Bool.and_eq_true, Bool.not_eq_true', List.isEmpty_iff] at h
  have hquote : '"' ∉ mark.toList := by simpa using h.1
  have hmark := of_no_quote hquote
  rwa [h.2] at hmark

theorem after (mark : String) (hmark : isOpening mark = true) (h : Cites text.toList libs) :
    Cites (mark ++ text).toList libs := by
  simp only [isOpening, Bool.and_eq_true] at hmark
  rw [String.toList_append]
  exact (of_isMark hmark.1).append h (.inl hmark.2)

theorem before (mark : String) (hmark : isClosing mark = true) (h : Cites text.toList libs) :
    Cites (text ++ mark).toList libs := by
  simp only [isClosing, Bool.and_eq_true] at hmark
  have htext := h.append (of_isMark hmark.1.1) (.inr hmark.1.2)
  rwa [List.append_nil, ← String.toList_append] at htext

/-- A mark that begins and ends outside names keeps the texts before and behind it apart. -/
theorem between (mark : String) (hmark : (isClosing mark && isOpening mark) = true)
    (h : Cites text.toList libs) (h' : Cites text'.toList libs') :
    Cites (text ++ mark ++ text').toList (libs ++ libs') := by
  obtain ⟨hclosing, hopening⟩ := Bool.and_eq_true_iff.1 hmark
  have hbehind := h'.after mark hopening
  simp only [isClosing, Bool.and_eq_true, Bool.not_eq_true', List.isEmpty_eq_false_iff] at hclosing
  rw [String.append_assoc, String.toList_append]
  refine h.append hbehind (.inr ?_)
  rw [String.toList_append]
  exact startsBroken_append text'.toList hclosing.1.2 hclosing.2

end Cites

/-! ## Shapes -/

namespace Shape

/-- The class that carries out what the shape stands for. -/
def libs : Shape → List Library
  | .cond | .unary _ => []
  | .binary how _ => how.owner?.toList
  | .call method _ => [method.owner]

/-- The classes that stand in the marks of a shape are those that the shape uses, and no mark runs
into an operand. -/
theorem cited_marks : ∀ shape ∈ all,
    endsBroken shape.opening = true ∧ citedIn shape.opening = shape.libs ∧
      ∀ slot ∈ shape.slots, slot.2 ≠ [] ∧ startsBroken slot.2 = true ∧ endsBroken slot.2 = true ∧
        ∀ lib ∈ citedIn slot.2, lib ∈ shape.libs := by
  decide +kernel

/-- The operands of a shape cite their classes wherever they are repeated. -/
theorem cites_slots {operands : List (List Char)} {libs : Nat → List Library}
    {slots : List (Nat × List Char)}
    (hmarks : ∀ slot ∈ slots, '"' ∉ slot.2 ∧ slot.2 ≠ [] ∧ startsBroken slot.2 = true ∧
      endsBroken slot.2 = true)
    (hoperands : ∀ slot ∈ slots, Cites (operands.getD slot.1 []) (libs slot.1)) :
    Cites (slots.flatMap fun slot => operands.getD slot.1 [] ++ slot.2)
      (slots.flatMap fun slot => libs slot.1 ++ citedIn slot.2) := by
  induction slots with
  | nil => exact Cites.of_no_quote List.not_mem_nil
  | cons slot rest ih =>
    obtain ⟨hquote, hne, hstarts, hends⟩ := hmarks slot List.mem_cons_self
    have hslot := (hoperands slot List.mem_cons_self).append (.of_no_quote hquote) (.inr hstarts)
    have hrest := ih (fun s hs => hmarks s (List.mem_cons_of_mem slot hs))
      (fun s hs => hoperands s (List.mem_cons_of_mem slot hs))
    rw [List.flatMap_cons, List.flatMap_cons]
    exact hslot.append hrest (.inl (endsBroken_append hends hne))

/-- A filled shape cites the class of the shape and what its operands cite. -/
theorem cites_fill {shape : Shape} (hshape : shape ∈ all) {operands : List (List Char)}
    (libs : Nat → List Library)
    (h : ∀ slot ∈ shape.slots, Cites (operands.getD slot.1 []) (libs slot.1)) :
    Cites (shape.fill operands) (shape.libs ++ shape.slots.flatMap fun slot => libs slot.1) := by
  obtain ⟨hquote, hquotes⟩ := no_quote shape hshape
  obtain ⟨hends, hopening, hmarks⟩ := cited_marks shape hshape
  have hslots := cites_slots (fun slot hslot =>
    ⟨hquotes slot hslot, (hmarks slot hslot).1, (hmarks slot hslot).2.1,
      (hmarks slot hslot).2.2.1⟩) h
  refine ((Cites.of_no_quote hquote).append hslots (.inl hends)).congr fun lib => ?_
  -- the marks behind operands cite no other class than the one before them
  have hmark : ∀ slot ∈ shape.slots, lib ∈ citedIn slot.2 → lib ∈ shape.libs :=
    fun slot hslot => (hmarks slot hslot).2.2.2 lib
  simp only [hopening, List.mem_append, List.mem_flatMap]
  constructor
  · rintro (hown | ⟨slot, hslot, hoperand | hcited⟩)
    · exact .inl hown
    · exact .inr ⟨slot, hslot, hoperand⟩
    · exact .inl (hmark slot hslot hcited)
  · rintro (hown | ⟨slot, hslot, hoperand⟩)
    · exact .inl hown
    · exact .inr ⟨slot, hslot, .inl hoperand⟩

end Shape

/-! ## Expressions -/

namespace Expr

/-- The classes that carry out an expression. -/
def libs : Expr → List Library
  | .name _ | .literal _ | .integer _ => []
  | .cond guard whenTrue whenFalse => guard.libs ++ (whenTrue.libs ++ whenFalse.libs)
  | .unary _ operand => operand.libs
  | .binary how _ left right => how.owner?.toList ++ (left.libs ++ right.libs)
  | .call1 method a => method.owner :: a.libs
  | .call2 method a b => method.owner :: (a.libs ++ b.libs)
  | .call3 method a b c => method.owner :: (a.libs ++ (b.libs ++ c.libs))

theorem mem_libs {e : Expr} {shape : Shape} (h : e.shape? = some shape) {lib : Library} :
    lib ∈ e.libs ↔ lib ∈ shape.libs ∨ ∃ x ∈ e.operands, lib ∈ x.libs := by
  cases e <;> cases h <;> simp [libs, Shape.libs, operands]

/-- An expression cites just the classes that carry it out, if its names and literals cite none. -/
theorem cites_text {e : Expr} (h : ∀ leaf ∈ e.leaves, Cites leaf.toList []) :
    Cites e.text.toList e.libs := by
  induction e using induction_on_shape with
  | leaf e hshape =>
    rw [leaves_of_leaf hshape] at h
    have hlibs : e.libs = [] := by
      cases e with
      | name | literal | integer => rfl
      | cond | unary | binary | call1 | call2 | call3 => cases hshape
    rw [hlibs]
    exact h _ List.mem_cons_self
  | node e shape hshape ih =>
    have hall := shape_mem_all hshape
    obtain ⟨hlt, hplace⟩ := Shape.slots_arity shape hall
    rw [← length_operands hshape] at hlt hplace
    let texts := e.operands.map fun x => x.text.toList
    let cited (i : Nat) := (e.operands.map libs).getD i []
    have hget (i : Nat) (hi : i < e.operands.length) :
        texts.getD i [] = e.operands[i].text.toList ∧ cited i = e.operands[i].libs := by
      simp [texts, cited, List.getD_eq_getElem?_getD, hi]
    have hslots : ∀ slot ∈ shape.slots, Cites (texts.getD slot.1 []) (cited slot.1) := by
      intro slot hslot
      have hi := hlt slot hslot
      have hmem := List.getElem_mem hi
      rw [(hget _ hi).1, (hget _ hi).2]
      exact ih _ hmem fun leaf hleaf => h leaf (leaves_of_operand hmem hleaf)
    rw [text_eq_fill hshape]
    refine (Shape.cites_fill hall cited hslots).congr fun lib => ?_
    rw [mem_libs hshape, List.mem_append, List.mem_flatMap]
    refine or_congr_right ⟨?_, ?_⟩
    · rintro ⟨slot, hslot, hlib⟩
      have hi := hlt slot hslot
      exact ⟨_, List.getElem_mem hi, (hget _ hi).2 ▸ hlib⟩
    · -- every operand has a place
      rintro ⟨x, hx, hlib⟩
      obtain ⟨i, hi, rfl⟩ := List.mem_iff_getElem.1 hx
      obtain ⟨slot, hslot, rfl⟩ := hplace i hi
      exact ⟨slot, hslot, (hget _ hi).2 ▸ hlib⟩

end Expr

/-! ## Names and literals -/

theorem cites_of_isName {name : String} (h : isName name = true) : Cites name.toList [] := by
  obtain ⟨hne, hchars⟩ := chars_of_isName h
  have hname : ∀ c ∈ name.toList, isNameChar c = true := by
    intro c hc
    simpa [isNameChar] using hchars c hc
  have hquote : '"' ∉ name.toList := fun hq => absurd (hname _ hq) (by decide)
  refine ⟨closed_of_no_quote hquote, fun lib => ?_⟩
  rw [mask_of_no_quote hquote, words_of_nameChars hne hname]
  simp only [List.mem_singleton, List.not_mem_nil, iff_false]
  -- the names of classes are reserved
  intro heq
  have hreserved : isReserved lib.name = true := by cases lib <;> decide
  rw [String.toList_injective heq] at hreserved
  simp [isName, hreserved] at h

/-- Every class name has a letter. -/
theorem Library.exists_letter (lib : Library) :
    ∃ c ∈ lib.name.toList, c.isDigit = false ∧ c ∉ "(-)\"".toList := by
  have hletter : 'e' ∈ lib.name.toList := by cases lib <;> decide
  exact ⟨'e', hletter, by decide, by decide⟩

/-- What stands in a string literal is no identifier. -/
theorem cites_of_isStringLiteral {text : String} (h : isStringLiteral text = true) :
    Cites text.toList [] := by
  obtain ⟨hclosed, hmask⟩ := closed_of_isStringLiteral h
  refine .none_of_chars hclosed fun lib => ?_
  obtain ⟨c, hc, -, hmark⟩ := lib.exists_letter
  exact ⟨c, hc, fun hmem => hmark (hmask c hmem ▸ by decide)⟩

/-- A text of digits and the marks of negative numbers cites nothing. -/
theorem cites_of_digits {text : List Char}
    (h : ∀ c ∈ text, c.isDigit = true ∨ c ∈ "(-)".toList) : Cites text [] := by
  have hquote : '"' ∉ text := fun hq => absurd (h _ hq) (by decide)
  refine .none_of_chars (closed_of_no_quote hquote) fun lib => ?_
  obtain ⟨c, hc, hdigit, hmark⟩ := lib.exists_letter
  rw [mask_of_no_quote hquote]
  refine ⟨c, hc, fun hmem => ?_⟩
  rcases h c hmem with hd | hd
  · rw [hd] at hdigit
    cases hdigit
  · exact hmark (List.mem_append_left ['"'] hd)

/-- The only type that belongs to a class is that of images. -/
theorem cites_type (type : Ty) :
    Cites type.java.toList (if type = .image then [.raster] else []) := by
  have hquote : '"' ∉ type.java.toList := by cases type <;> decide
  have hcited : citedIn type.java.toList = if type = .image then [.raster] else [] := by
    cases type <;> decide
  exact hcited ▸ .of_no_quote hquote

/-! ## Statements -/

/-- No statement ends within an identifier. -/
theorem endsBroken_text (stmt : Stmt) : endsBroken stmt.text.toList = true := by
  have hends (before : String) {mark : String} (h : endsBroken mark.toList = true)
      (hne : mark.toList ≠ []) : endsBroken (before ++ mark).toList = true := by
    rw [String.toList_append]
    exact endsBroken_append h hne
  cases stmt with
  | nothing => rfl
  | declare type name value =>
    cases value <;> rw [Stmt.text] <;> exact hends _ (by decide) (by decide)
  | assign | perform | setPixel | ret | block | choose | loop =>
    rw [Stmt.text]
    exact hends _ (by decide) (by decide)

namespace Cites

variable {name : String} {type : Ty} {value guard x y : Expr} {stmt : Stmt} {body : List Stmt}
  {libs libs' : List Library}

theorem nothing : Cites Stmt.nothing.text.toList [] :=
  .of_no_quote List.not_mem_nil

theorem declare {value : Option Expr} (hname : Cites name.toList [])
    (hvalue : ∀ v, value = some v → Cites v.text.toList v.libs) :
    Cites (Stmt.declare type name value).text.toList
      ((if type = .image then [.raster] else []) ++ value.elim [] Expr.libs) := by
  have hdeclared := between " " (by decide +kernel) (cites_type type) hname
  rw [List.append_nil] at hdeclared
  cases value with
  | none =>
    rw [Option.elim_none, List.append_nil]
    exact hdeclared.before ";\n" (by decide +kernel)
  | some v =>
    exact (between " = " (by decide +kernel) hdeclared (hvalue v rfl)).before ";\n"
      (by decide +kernel)

theorem assign (hname : Cites name.toList []) (hvalue : Cites value.text.toList libs) :
    Cites (Stmt.assign name value).text.toList libs :=
  (between " = " (by decide +kernel) hname hvalue).before ";\n" (by decide +kernel)

theorem perform (hvalue : Cites value.text.toList libs) :
    Cites (Stmt.perform value).text.toList libs :=
  hvalue.before ";\n" (by decide +kernel)

theorem ret (hvalue : Cites value.text.toList libs) : Cites (Stmt.ret value).text.toList libs :=
  (hvalue.after "return " (by decide +kernel)).before ";\n" (by decide +kernel)

theorem setPixel {lx ly : List Library} (hname : Cites name.toList [])
    (hx : Cites x.text.toList lx) (hy : Cites y.text.toList ly)
    (hvalue : Cites value.text.toList libs) :
    Cites (Stmt.setPixel name x y value).text.toList
      (Method.setPixel.owner :: (lx ++ (ly ++ libs))) := by
  have hcomma : (isClosing ", " && isOpening ", ") = true := by decide +kernel
  have hopening : Cites Method.setPixel.opening [Method.setPixel.owner] := by
    have hquote : '"' ∉ Method.setPixel.opening := by decide +kernel
    have hcited : citedIn Method.setPixel.opening = [Method.setPixel.owner] := by decide +kernel
    exact hcited ▸ .of_no_quote hquote
  have harguments := between ", " hcomma hname
    (between ", " hcomma hx (between ", " hcomma hy hvalue))
  have htext : (Stmt.setPixel name x y value).text.toList = Method.setPixel.opening ++
      ((name ++ ", " ++ (x.text ++ ", " ++ (y.text ++ ", " ++ value.text))) ++ ");\n").toList := by
    simp [Stmt.text, Method.call, Method.opening, commas]
  rw [htext]
  exact hopening.append (harguments.before ");\n" (by decide +kernel)) (.inl (by decide +kernel))

theorem braced {text : String} (h : Cites text.toList libs) : Cites (braced text).toList libs :=
  (h.after "\x7b\n" (by decide +kernel)).before "\x7d" (by decide +kernel)

theorem body_cons (hstmt : Cites stmt.text.toList libs) (hbody : Cites (bodyText body).toList libs') :
    Cites (bodyText (stmt :: body)).toList (libs ++ libs') := by
  rw [bodyText, String.toList_append]
  exact hstmt.append hbody (.inl (endsBroken_text stmt))

theorem block (hbody : Cites (bodyText body).toList libs) :
    Cites (Stmt.block body).text.toList libs :=
  hbody.braced.before "\n" (by decide +kernel)

theorem branches_cons {after : String} {branches : List Branch} {lg : List Library}
    (hafter : (isClosing after && isOpening after) = true) (hguard : Cites guard.text.toList lg)
    (hbody : Cites (bodyText body).toList libs)
    (hrest : Cites (branchesText after branches).toList libs') :
    Cites (branchesText after (.mk guard body :: branches)).toList (lg ++ (libs ++ libs')) := by
  have hbranch := between ") " (by decide +kernel) (hguard.after "if (" (by decide +kernel))
    hbody.braced
  rw [← List.append_assoc]
  exact between after hafter hbranch hrest

theorem choose {branches : List Branch} (h : Cites (branchesText " else " branches).toList libs) :
    Cites (Stmt.choose branches).text.toList libs := by
  have hlast : Cites (Java.braced "").toList [] := nothing.braced
  have hchoice := h.append hlast (.inr (by decide +kernel))
  rw [List.append_nil, ← String.toList_append] at hchoice
  exact hchoice.before "\n" (by decide +kernel)

theorem loop {branches : List Branch} (h : Cites (branchesText "\n" branches).toList libs)
    (hguard : Cites guard.text.toList libs') :
    Cites (Stmt.loop branches guard).text.toList (libs ++ libs') :=
  (between " while (" (by decide +kernel) (h.braced.after "do " (by decide +kernel)) hguard).before
    ");\n" (by decide +kernel)

end Cites

end PixelJava.Java
