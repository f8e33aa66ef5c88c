/-
Lines without margins. A line is flush if it neither begins nor ends with a blank; layout puts spaces
before flush lines and does nothing else to them, so deleting these spaces gives back the text. The
lines of code are flush if its names and literals begin with no blank and hold no line end: each of
them ends with a semicolon or a brace.
-/
import PixelJava.Proofs.Java.Indentation

namespace PixelJava.Java

open Text

/-! ## Deleting indentation -/

/-- Deletes the spaces that lines begin with; `atStart` says whether the first character is at the
start of its line, or behind spaces only. -/
def unindentFrom (atStart : Bool) : List Char → List Char
  | [] => []
  | c :: rest =>
    if atStart && c = ' ' then unindentFrom true rest else c :: unindentFrom (c = '\n') rest

/-- The text without the spaces that its lines begin with. -/
def unindent (source : String) : String :=
  String.ofList (unindentFrom true source.toList)

theorem unindentFrom_false_append {line : List Char} (h : '\n' ∉ line) (rest : List Char) :
    unindentFrom false (line ++ '\n' :: rest) = line ++ '\n' :: unindentFrom true rest := by
  induction line with
  | nil => rfl
  | cons c line ih =>
    obtain ⟨hc, hline⟩ := not_or.1 fun hor => h (List.mem_cons.2 hor)
    rw [List.cons_append, unindentFrom, if_neg (by simp), decide_eq_false (Ne.symm hc), ih hline]
    rfl

theorem unindentFrom_true_append {line : List Char} (h : '\n' ∉ line) (rest : List Char) :
    unindentFrom true (line ++ '\n' :: rest) =
      line.dropWhile (· = ' ') ++ '\n' :: unindentFrom true rest := by
  induction line with
  | nil => rfl
  | cons c line ih =>
    obtain ⟨hc, hline⟩ := not_or.1 fun hor => h (List.mem_cons.2 hor)
    rw [List.cons_append, unindentFrom, Bool.true_and, List.dropWhile_cons]
    split
    · exact ih hline
    · rw [decide_eq_false (Ne.symm hc), unindentFrom_false_append hline]
      rfl

/-- Unindenting lines is taking the spaces from the start of each. -/
theorem unindentFrom_unlines {ls : List (List Char)} (h : ∀ line ∈ ls, '\n' ∉ line) :
    unindentFrom true (unlines ls) = unlines (ls.map (List.dropWhile (· = ' '))) := by
  induction ls with
  | nil => rfl
  | cons line ls ih =>
    rw [List.forall_mem_cons] at h
    rw [unlines_cons, unindentFrom_true_append h.1, ih h.2, List.map_cons, unlines_cons]

/-! ## Flush lines -/

/-- A line with no blank at its ends. -/
structure Flush (text : List Char) : Prop extends Trimmed text where
  last : ∀ c, text.getLast? = some c → isBlank c = false

theorem Flush.isLine {text : List Char} (h : Flush text) : IsLine text :=
  ⟨h.line, fun hlast => Bool.false_ne_true ((h.last '\r' hlast).symm.trans (by decide))⟩

theorem Flush.trim_eq {text : List Char} (h : Flush text) : trim text = text :=
  trim_eq_self h.head h.last

/-- The text is made of flush lines. -/
def FlushLines (text : List Char) : Prop :=
  ∃ ls, text = unlines ls ∧ ∀ line ∈ ls, Flush line

namespace FlushLines

theorem nil : FlushLines [] :=
  ⟨[], rfl, fun _ h => (by cases h)⟩

theorem cons {line rest : List Char} (h : Flush line) (hrest : FlushLines rest) :
    FlushLines (line ++ '\n' :: rest) := by
  obtain ⟨ls, rfl, hls⟩ := hrest
  exact ⟨line :: ls, (unlines_cons line ls).symm, List.forall_mem_cons.2 ⟨h, hls⟩⟩

/-- Lines that are flush stay so when others follow. -/
theorem append {text text' : List Char} (h : FlushLines text) (h' : FlushLines text') :
    FlushLines (text ++ text') := by
  obtain ⟨ls, rfl, hls⟩ := h
  obtain ⟨ls', rfl, hls'⟩ := h'
  exact ⟨ls ++ ls', (unlines_append ls ls').symm, List.forall_mem_append.2 ⟨hls, hls'⟩⟩

end FlushLines

/-- A trimmed text is what unindenting leaves of it, however far it is indented. -/
theorem dropWhile_space {text : List Char} (h : Trimmed text) (k : Nat) :
    (List.replicate k ' ' ++ text).dropWhile (· = ' ') = text := by
  rw [List.dropWhile_append_of_pos fun c hc => by simp [List.eq_of_mem_replicate hc]]
  cases text with
  | nil => rfl
  | cons c rest =>
    have hc : c ≠ ' ' := by
      rintro rfl
      exact Bool.false_ne_true ((h.head ' ' rfl).symm.trans (by decide))
    rw [List.dropWhile_cons_of_neg (by simpa using hc)]

/-- Flush lines are found again in their layout. -/
theorem map_dropWhile_layoutLines {ls : List (List Char)} (h : ∀ line ∈ ls, Flush line)
    (depth : Nat) : (layoutLines depth ls).map (List.dropWhile (· = ' ')) = ls := by
  induction ls generalizing depth with
  | nil => rfl
  | cons line ls ih =>
    rw [List.forall_mem_cons] at h
    rw [layoutLines]
    split
    · rename_i hempty
      rw [List.map_cons, ih h.2, List.isEmpty_iff.1 hempty]
      rfl
    · rw [List.map_cons, ih h.2, dropWhile_space h.1.toTrimmed]

/-- Layout of flush lines is undone by deleting the spaces that its lines begin with. -/
theorem unindent_layout {source : String} (h : FlushLines source.toList) :
    unindent (layout source) = source := by
  obtain ⟨ls, hsource, hls⟩ := h
  have hlines : lines source.toList = ls := by
    have hread := lines_unlines_append (fun line hline => (hls line hline).isLine) []
    rw [List.append_nil] at hread
    rw [hsource, hread]
    exact List.append_nil ls
  have htrim : ls.map trim = ls := by
    rw [List.map_congr_left fun line hline => (hls line hline).trim_eq, List.map_id']
  have hlaid := isLine_of_mem_layoutLines 0 (newline_notMem_lines source.toList)
  rw [unindent, toList_layout, unindentFrom_unlines fun line hline => (hlaid line hline).1, hlines,
    htrim, map_dropWhile_layoutLines hls, ← hsource, String.ofList_toList]

/-! ## Pieces of lines -/

/-- Whether a line can begin with the mark. -/
def isMargin (mark : List Char) : Bool :=
  mark.head?.any (!isBlank ·) && !mark.contains '\n'

namespace Trimmed

variable {text text' : List Char}

theorem nil : Trimmed [] :=
  ⟨fun _ h => (by cases h), List.not_mem_nil⟩

theorem of_chars (h : ∀ c ∈ text, isBlank c = false) : Trimmed text :=
  ⟨fun c hc => h c (List.mem_of_head? hc), fun hmem => absurd (h _ hmem) (by decide)⟩

theorem append (h : Trimmed text) (h' : Trimmed text') : Trimmed (text ++ text') := by
  refine ⟨fun c hc => ?_, fun hmem => ?_⟩
  · cases text with
    | nil => exact h'.head c hc
    | cons d rest => exact h.head c hc
  · exact (List.mem_append.1 hmem).elim h.line h'.line

/-- A trimmed text becomes a flush line when it ends in a character that is no blank. -/
theorem flush (h : Trimmed text) {last : Char} (hlast : isBlank last = false) :
    Flush (text ++ [last]) := by
  have hend : Trimmed [last] := by
    refine ⟨fun c hc => by cases hc; exact hlast, fun hmem => ?_⟩
    rw [← List.mem_singleton.1 hmem] at hlast
    exact absurd hlast (by decide)
  refine ⟨h.append hend, fun c hc => ?_⟩
  rw [List.getLast?_concat] at hc
  cases hc
  exact hlast

/-- What a line can begin with is trimmed. -/
theorem of_isMargin (h : isMargin text = true) : Trimmed text := by
  simp only [isMargin, Bool.and_eq_true, Option.any_eq_true, Bool.not_eq_true',
    List.contains_eq_mem, decide_eq_false_iff_not] at h
  obtain ⟨⟨first, hfirst, hblank⟩, hline⟩ := h
  refine ⟨fun c hc => ?_, hline⟩
  rw [hfirst] at hc
  cases hc
  exact hblank

/-- Behind a mark that a line begins with, blanks do not matter. -/
theorem after_margin (h : isMargin text = true) (h' : '\n' ∉ text') : Trimmed (text ++ text') := by
  have hne : text ≠ [] := by
    rintro rfl
    cases h
  refine ⟨fun c hc => (of_isMargin h).head c ?_, fun hmem => ?_⟩
  · rwa [List.head?_append_of_ne_nil _ hne] at hc
  · exact (List.mem_append.1 hmem).elim (of_isMargin h).line h'

end Trimmed

/-! ## Expressions -/

namespace Shape

/-- The text of an expression begins with a mark or, in one case, with its first operand, and then
with the mark behind it. -/
theorem isMargin_opening : ∀ shape ∈ all, isMargin shape.opening = true ∨
    shape.opening = [] ∧ (shape.slots.head?.any fun slot => isMargin slot.2) = true := by
  decide +kernel

/-- Operands on one line are filled in on one line. -/
theorem newline_notMem_slots {shape : Shape} (hshape : shape ∈ all) {operands : List (List Char)}
    (hlength : operands.length = shape.arity) (h : ∀ x ∈ operands, Trimmed x) :
    ∀ slots ⊆ shape.slots, '\n' ∉ slots.flatMap fun slot => operands.getD slot.1 [] ++ slot.2 := by
  intro slots hslots hmem
  obtain ⟨slot, hslot, hc⟩ := List.mem_flatMap.1 hmem
  rcases List.mem_append.1 hc with hc | hc
  · exact (h _ (operand_mem hshape hlength (hslots hslot))).line hc
  · have hmarks := (isPlain_marks shape hshape).2 slot (hslots hslot)
    exact absurd (List.all_eq_true.1 hmarks _ hc) (by decide)

/-- Filling in trimmed operands gives a trimmed text, for the marks around them are. -/
theorem trimmed_fill {shape : Shape} (hshape : shape ∈ all) {operands : List (List Char)}
    (hlength : operands.length = shape.arity) (h : ∀ x ∈ operands, Trimmed x) :
    Trimmed (shape.fill operands) := by
  have hline := newline_notMem_slots hshape hlength h
  unfold fill
  rcases isMargin_opening shape hshape with hopening | ⟨hopening, hslots⟩
  · exact .after_margin hopening (hline _ (List.Subset.refl _))
  · rw [hopening, List.nil_append]
    cases hcases : shape.slots with
    | nil => exact .nil
    | cons slot rest =>
      rw [hcases] at hslots hline
      have hoperand := h _ (operand_mem hshape hlength (hcases ▸ List.mem_cons_self))
      rw [List.flatMap_cons, List.append_assoc]
      exact hoperand.append (.after_margin hslots (hline _ (List.subset_cons_self _ _)))

end Shape

/-- An expression is trimmed if its names and literals are. -/
theorem Expr.trimmed_text {e : Expr} (h : ∀ leaf ∈ e.leaves, Trimmed leaf.toList) :
    Trimmed e.text.toList := by
  induction e using induction_on_shape with
  | leaf e hshape =>
    rw [leaves_of_leaf hshape] at h
    exact h _ List.mem_cons_self
  | node e shape hshape ih =>
    rw [text_eq_fill hshape]
    refine Shape.trimmed_fill (shape_mem_all hshape) ?_ fun x hx => ?_
    · rw [List.length_map, length_operands hshape]
    · obtain ⟨operand, hoperand, rfl⟩ := List.mem_map.1 hx
      exact ih operand hoperand fun leaf hleaf => h leaf (leaves_of_operand hoperand hleaf)

/-! ## Statements -/

theorem isMargin_type (type : Ty) : isMargin type.java.toList = true := by
  cases type <;> decide

theorem newline_notMem_type (type : Ty) : '\n' ∉ type.java.toList := by
  cases type <;> decide

theorem isBlank_of_isNameChar {c : Char} (h : isNameChar c = true) : isBlank c = false := by
  cases hblank : isBlank c with
  | false => rfl
  | true => exact absurd h (by simp [isNameChar_of_isBlank hblank])

theorem isBlank_of_isDigit {c : Char} (h : c.isDigit = true) : isBlank c = false :=
  isBlank_of_isNameChar (by simp [isNameChar, isWordChar_of_isDigit h])

/-- A literal on one line begins with its quote. -/
theorem trimmed_of_isLineLiteral {text : String} (h : isLineLiteral text = true) :
    Trimmed text.toList := by
  simp only [isLineLiteral, isStringLiteral, Bool.and_eq_true, Bool.not_eq_true',
    List.contains_eq_mem, decide_eq_false_iff_not] at h
  obtain ⟨hliteral, hline⟩ := h
  refine ⟨fun c hc => ?_, hline⟩
  split at hliteral
  · rename_i rest htext
    rw [htext] at hc
    cases hc
    decide
  · cases hliteral

theorem isBlank_of_mem_name {name : String} (h : isName name = true) {c : Char}
    (hc : c ∈ name.toList) : isBlank c = false :=
  isBlank_of_isNameChar (by simpa [isNameChar] using (chars_of_isName h).2 c hc)

theorem newline_notMem_name {name : String} (h : isName name = true) : '\n' ∉ name.toList :=
  fun hmem => absurd (isBlank_of_mem_name h hmem) (by decide)

theorem isMargin_name {name : String} (h : isName name = true) : isMargin name.toList = true := by
  obtain ⟨c, rest, htext⟩ := List.exists_cons_of_ne_nil (chars_of_isName h).1
  have hline := newline_notMem_name h
  have hblank := isBlank_of_mem_name h (htext ▸ List.mem_cons_self)
  rw [htext] at hline ⊢
  simp [isMargin, hblank, List.contains_eq_mem, hline]

namespace FlushLines

/-- A statement on one line. -/
theorem statement {text : String} (h : Trimmed text.toList) : FlushLines (text ++ ";\n").toList := by
  have htext : (text ++ ";\n").toList = text.toList ++ [';'] ++ '\n' :: [] := by simp
  rw [htext]
  exact cons (h.flush (by decide)) nil

/-- A statement on one line that begins with a mark. -/
theorem marked {mark rest text : String} (hmark : isMargin mark.toList = true)
    (hrest : '\n' ∉ rest.toList) (htext : text = mark ++ rest ++ ";\n") :
    FlushLines text.toList := by
  rw [htext]
  refine statement ?_
  rw [String.toList_append]
  exact .after_margin hmark hrest

/-- A declaration is one flush line. -/
theorem declare (type : Ty) {name : String} (hname : '\n' ∉ name.toList) {value : Option Expr}
    (hvalue : ∀ e ∈ value, '\n' ∉ e.text.toList) :
    FlushLines (Stmt.declare type name value).text.toList := by
  cases value with
  | none =>
    have hline : '\n' ∉ (" " ++ name).toList := by simpa using hname
    refine marked (isMargin_type type) hline ?_
    simp only [Stmt.text, String.append_assoc]
  | some e =>
    have hline : '\n' ∉ (" " ++ name ++ " = " ++ e.text).toList := by simp [hname, hvalue e rfl]
    refine marked (isMargin_type type) hline ?_
    simp only [Stmt.text, String.append_assoc]

theorem assign {name : String} (hname : isName name = true) {value : Expr}
    (hvalue : '\n' ∉ value.text.toList) : FlushLines (Stmt.assign name value).text.toList := by
  have hline : '\n' ∉ (" = " ++ value.text).toList := by simpa using hvalue
  refine marked (isMargin_name hname) hline ?_
  simp only [Stmt.text, String.append_assoc]

theorem ret {value : Expr} (hvalue : '\n' ∉ value.text.toList) :
    FlushLines (Stmt.ret value).text.toList :=
  marked (show isMargin "return ".toList = true by decide) hvalue rfl

theorem setPixel {image : String} (himage : isName image = true) {x y value : Expr}
    (hx : '\n' ∉ x.text.toList) (hy : '\n' ∉ y.text.toList) (hvalue : '\n' ∉ value.text.toList) :
    FlushLines (Stmt.setPixel image x y value).text.toList := by
  have hline : '\n' ∉ (commas [image, x.text, y.text, value.text] ++ ")").toList := by
    simp [commas, newline_notMem_name himage, hx, hy, hvalue]
  have hmark : isMargin
      (Method.setPixel.owner.name ++ "." ++ Method.setPixel.name ++ "(").toList = true := by
    decide
  refine marked hmark hline ?_
  simp only [Stmt.text, Method.call, String.append_assoc]

/-- Braces around lines, with `front` before them and `back` behind them on their own lines. -/
theorem braced {front body back : String} (hfront : Trimmed front.toList)
    (hbody : FlushLines body.toList) (hback : FlushLines ("\x7d" ++ back).toList) :
    FlushLines (front ++ Java.braced body ++ back).toList := by
  have htext : (front ++ Java.braced body ++ back).toList =
      front.toList ++ ['\x7b'] ++ '\n' :: (body.toList ++ ("\x7d" ++ back).toList) := by
    simp [Java.braced]
  rw [htext]
  exact cons (hfront.flush (by decide)) (hbody.append hback)

theorem closing : FlushLines "\x7d\n".toList :=
  cons (show Flush ['\x7d'] from Trimmed.nil.flush (by decide)) nil

/-- A block has flush lines if its body does: its braces stand at the ends of lines. -/
theorem block {body : List Stmt} (h : FlushLines (bodyText body).toList) :
    FlushLines (Stmt.block body).text.toList := by
  have htext : (Stmt.block body).text = "" ++ Java.braced (bodyText body) ++ "\n" := by
    rw [Stmt.text, String.empty_append]
  rw [htext]
  exact braced .nil h closing

end FlushLines

/-- A branch whose lines are flush. -/
def Branch.IsFlush : Branch → Prop
  | .mk guard body => '\n' ∉ guard.text.toList ∧ FlushLines (bodyText body).toList

theorem trimmed_branch {guard : Expr} (h : '\n' ∉ guard.text.toList) :
    Trimmed ("if (" ++ guard.text ++ ") ").toList := by
  have htext : ("if (" ++ guard.text ++ ") ").toList = "if (".toList ++ (guard.text ++ ") ").toList := by
    simp
  rw [htext]
  exact .after_margin (by decide) (by simpa using h)

namespace FlushLines

/-- Branches of which each but the first begins on the line where the one before it ends; `front`
is what the first line begins with. -/
theorem choices {branches : List Branch} (h : ∀ branch ∈ branches, branch.IsFlush) {front : String}
    (hfront : Trimmed front.toList) :
    FlushLines (front ++ (branchesText " else " branches ++ Java.braced "" ++ "\n")).toList := by
  induction branches generalizing front with
  | nil =>
    have htext : front ++ (branchesText " else " [] ++ Java.braced "" ++ "\n") =
        front ++ Java.braced "" ++ "\n" := by
      simp only [branchesText, String.empty_append, String.append_assoc]
    rw [htext]
    exact braced hfront nil closing
  | cons branch rest ih =>
    obtain ⟨guard, body⟩ := branch
    rw [List.forall_mem_cons] at h
    obtain ⟨⟨hguard, hbody⟩, hrest⟩ := h
    have htext : front ++ (branchesText " else " (.mk guard body :: rest) ++ Java.braced "" ++ "\n") =
        front ++ ("if (" ++ guard.text ++ ") ") ++ Java.braced (bodyText body) ++
          (" else " ++ (branchesText " else " rest ++ Java.braced "" ++ "\n")) := by
      simp only [branchesText, String.append_assoc]
    rw [htext]
    refine braced ?_ hbody ?_
    · rw [String.toList_append]
      exact hfront.append (trimmed_branch hguard)
    · rw [← String.append_assoc]
      exact ih hrest (show Trimmed "\x7d else ".toList from .of_isMargin (by decide))

theorem choose {branches : List Branch} (h : ∀ branch ∈ branches, branch.IsFlush) :
    FlushLines (Stmt.choose branches).text.toList := by
  have hchoices := choices h (show Trimmed "".toList from .nil)
  rwa [String.empty_append] at hchoices

theorem branches {branches : List Branch} (h : ∀ branch ∈ branches, branch.IsFlush) :
    FlushLines (branchesText "\n" branches).toList := by
  induction branches with
  | nil => exact nil
  | cons branch rest ih =>
    obtain ⟨guard, body⟩ := branch
    rw [List.forall_mem_cons] at h
    obtain ⟨⟨hguard, hbody⟩, hrest⟩ := h
    have htext : branchesText "\n" (.mk guard body :: rest) =
        "if (" ++ guard.text ++ ") " ++ Java.braced (bodyText body) ++
          ("\n" ++ branchesText "\n" rest) := by
      simp only [branchesText, String.append_assoc]
    rw [htext]
    refine braced (trimmed_branch hguard) hbody ?_
    rw [← String.append_assoc, String.toList_append]
    exact closing.append (ih hrest)

/-- A loop has flush lines if its branches do. -/
theorem loop {branches : List Branch} (h : ∀ branch ∈ branches, branch.IsFlush) {guard : Expr}
    (hguard : '\n' ∉ guard.text.toList) : FlushLines (Stmt.loop branches guard).text.toList := by
  have htext : (Stmt.loop branches guard).text =
      "do " ++ Java.braced (branchesText "\n" branches) ++ (" while (" ++ guard.text ++ ");\n") := by
    simp only [Stmt.text, String.append_assoc]
  rw [htext]
  refine braced (.of_isMargin (by decide)) (FlushLines.branches h) ?_
  have hline : '\n' ∉ (" while (" ++ guard.text ++ ")").toList := by simpa using hguard
  refine marked (show isMargin "\x7d".toList = true by decide) hline ?_
  simp only [String.append_assoc]
  rfl

end FlushLines

/-! ## Units -/

theorem newline_notMem_commas {texts : List String} (h : ∀ text ∈ texts, '\n' ∉ text.toList) :
    '\n' ∉ (commas texts).toList := by
  unfold commas
  induction texts with
  | nil => exact List.not_mem_nil
  | cons first rest ih =>
    rw [List.forall_mem_cons] at h
    cases rest with
    | nil =>
      rw [String.intercalate_singleton]
      exact h.1
    | cons next rest =>
      rw [String.intercalate_cons_cons]
      simpa [h.1] using ih h.2

theorem HeaderLine.flush {line : List Char} (h : HeaderLine line) : Flush line :=
  ⟨⟨h.head, h.isLine.1⟩, h.last⟩

namespace SourceUnit

/-- The class of a unit has flush lines if the body of its method does. -/
theorem flushLines_classText {u : SourceUnit} (hclass : isName u.className = true)
    (hmethod : isName u.method = true) (hparams : ∀ p ∈ u.params, isName p.name = true)
    (hbody : FlushLines (bodyText u.body).toList) : FlushLines u.classText.toList := by
  have hparam : ∀ text ∈ u.params.map Param.text, '\n' ∉ text.toList := by
    intro text htext
    obtain ⟨p, hp, rfl⟩ := List.mem_map.1 htext
    simp [Param.text, newline_notMem_type p.type, newline_notMem_name (hparams p hp)]
  have hfirst : Trimmed ("public class " ++ (u.className ++ " ")).toList := by
    rw [String.toList_append]
    exact .after_margin (by decide) (by simpa using newline_notMem_name hclass)
  have hhead : Trimmed ("public static " ++ (u.result.java ++ " " ++ u.method ++ "(" ++
      commas (u.params.map Param.text) ++ ") ")).toList := by
    rw [String.toList_append]
    refine .after_margin (by decide) ?_
    simp [newline_notMem_type u.result, newline_notMem_name hmethod, newline_notMem_commas hparam]
  have htext : u.classText = "public class " ++ (u.className ++ " ") ++
      braced ("public static " ++ (u.result.java ++ " " ++ u.method ++ "(" ++
        commas (u.params.map Param.text) ++ ") ") ++ braced (bodyText u.body) ++ "\n") ++ "\n" := by
    rw [← String.toList_inj]
    simp [classText, methodText, braced]
  rw [htext]
  exact .braced hfirst (.braced hhead hbody .closing) .closing

/-- The lines of a unit are flush if those of its body are. -/
theorem flushLines_text {u : SourceUnit} (hclass : isName u.className = true)
    (hmethod : isName u.method = true) (hparams : ∀ p ∈ u.params, isName p.name = true)
    (hpackage : ∀ p, u.package = some p → isPackage p = true)
    (hhome : isPackage u.libraryPackage = true) (hbody : FlushLines (bodyText u.body).toList) :
    FlushLines u.text.toList := by
  have hheader : FlushLines (unlines (headerLines u.package u.libraryPackage u.imports)) :=
    ⟨_, rfl, fun line hline => (headerLine_of_mem hpackage hhome line hline).flush⟩
  rw [text_eq_header_append]
  exact hheader.append (flushLines_classText hclass hmethod hparams hbody)

end SourceUnit

end PixelJava.Java
