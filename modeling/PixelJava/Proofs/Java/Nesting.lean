/-
The braces of Java text outside its literals. A reader counts those that are open; it refuses a text
that closes one more than it has opened, closes two on one line, or has a literal that goes on behind
the end of its line. Expressions change nothing for the reader if their names and literals do not,
and a statement ends where it has begun: at the start of a line, with the same braces open.
-/
import PixelJava.Proofs.Java.Header

namespace PixelJava.Java

open Text

/-! ## Reading -/

/-- What a reader of a text knows of its braces. -/
structure Nesting where
  mode : Mode
  /-- The number of open braces. -/
  depth : Nat
  /-- Whether a brace has been closed on the line. -/
  closed : Bool
  deriving DecidableEq

namespace Nesting

/-- The reader at the start of a line. -/
abbrev atLine (depth : Nat) : Nesting :=
  ⟨.code, depth, false⟩

def step? (n : Nesting) (c : Char) : Option Nesting :=
  if n.mode = .code then
    if c = '\x7b' then some { n with depth := n.depth + 1 }
    else if c = '\x7d' then
      if n.depth = 0 || n.closed then none
      else some { n with depth := n.depth - 1, closed := true }
    else if c = '\n' then some { n with closed := false }
    else some { n with mode := n.mode.next c }
  else if c = '\n' then none
  else some { n with mode := n.mode.next c }

/-- The reader behind `text`, unless the text is refused. -/
def read? (n : Nesting) (text : List Char) : Option Nesting :=
  text.foldlM step? n

variable {n n' : Nesting} {c : Char} {text : List Char}

/-- What a reader makes of the next character. -/
theorem step?_cases (h : n.step? c = some n') :
    (n.mode = .code ∧ c = '\x7b' ∧ n' = { n with depth := n.depth + 1 }) ∨
      (n.mode = .code ∧ c = '\x7d' ∧ 0 < n.depth ∧ n.closed = false ∧
        n' = { n with depth := n.depth - 1, closed := true }) ∨
      (n.mode = .code ∧ c = '\n' ∧ n' = { n with closed := false }) ∨
      ((n.mode = .code → c ≠ '\x7b' ∧ c ≠ '\x7d') ∧ c ≠ '\n' ∧
        n' = { n with mode := n.mode.next c }) := by
  unfold step? at h
  by_cases hmode : n.mode = .code
  · rw [if_pos hmode] at h
    split at h
    · rename_i hc
      exact .inl ⟨hmode, hc, (Option.some.inj h).symm⟩
    split at h
    · rename_i hc
      split at h
      · cases h
      · rename_i hclose
        simp only [Bool.or_eq_true, decide_eq_true_eq, not_or, Bool.not_eq_true] at hclose
        exact .inr (.inl ⟨hmode, hc, Nat.pos_of_ne_zero hclose.1, hclose.2,
          (Option.some.inj h).symm⟩)
    split at h
    · rename_i hc
      exact .inr (.inr (.inl ⟨hmode, hc, (Option.some.inj h).symm⟩))
    · rename_i hopen hclose hnew
      exact .inr (.inr (.inr ⟨fun _ => ⟨hopen, hclose⟩, hnew, (Option.some.inj h).symm⟩))
  · rw [if_neg hmode] at h
    split at h
    · cases h
    · rename_i hnew
      exact .inr (.inr (.inr ⟨fun hcode => absurd hcode hmode, hnew, (Option.some.inj h).symm⟩))

/-- Nesting and masking agree on what is a literal. -/
theorem mode_of_step? (h : n.step? c = some n') : n'.mode = n.mode.next c := by
  rcases step?_cases h with ⟨hmode, rfl, rfl⟩ | ⟨hmode, rfl, -, -, rfl⟩ | ⟨hmode, rfl, rfl⟩ |
    ⟨-, -, rfl⟩
  · rw [hmode]
    rfl
  · rw [hmode]
    rfl
  · rw [hmode]
    rfl
  · rfl

theorem read?_cons (n : Nesting) (c : Char) (text : List Char) :
    n.read? (c :: text) = (n.step? c).bind (·.read? text) :=
  List.foldlM_cons

/-- A text is read to its end through any place in it. -/
theorem read?_append (n : Nesting) (text text' : List Char) :
    n.read? (text ++ text') = (n.read? text).bind (·.read? text') :=
  List.foldlM_append

theorem read?_of_append {text' : List Char} (h : n.read? (text ++ text') = some n') :
    ∃ middle, n.read? text = some middle ∧ middle.read? text' = some n' := by
  rwa [read?_append, Option.bind_eq_some_iff] at h

theorem read?_of_cons (h : n.read? (c :: text) = some n') :
    ∃ next, n.step? c = some next ∧ next.read? text = some n' := by
  rwa [read?_cons, Option.bind_eq_some_iff] at h

/-- The end of a line is read outside literals. -/
theorem read?_of_newline (h : n.read? ('\n' :: text) = some n') :
    n.mode = .code ∧ (atLine n.depth).read? text = some n' := by
  obtain ⟨next, hstep, htext⟩ := read?_of_cons h
  rcases step?_cases hstep with ⟨-, hc, -⟩ | ⟨-, hc, -⟩ | ⟨hmode, -, rfl⟩ | ⟨-, hc, -⟩
  · cases hc
  · cases hc
  · rw [hmode] at htext
    exact ⟨hmode, htext⟩
  · exact absurd rfl hc

/-! ## What has been counted -/

/-- The open braces are those that the masked text opens and does not close. -/
theorem count_of_read? (h : n.read? text = some n') :
    n.depth + (mask n.mode text).count '\x7b' = n'.depth + (mask n.mode text).count '\x7d' := by
  induction text generalizing n with
  | nil => cases h; rfl
  | cons c rest ih =>
    obtain ⟨next, hstep, hrest⟩ := read?_of_cons h
    have hcount := ih hrest
    rw [mode_of_step? hstep] at hcount
    rw [mask, List.count_cons, List.count_cons]
    rcases step?_cases hstep with ⟨hmode, rfl, rfl⟩ | ⟨hmode, rfl, hpos, -, rfl⟩ | ⟨hmode, rfl, rfl⟩ |
      ⟨hbrace, -, rfl⟩
    · simp only [hmode] at hcount ⊢
      simp
      omega
    · simp only [hmode] at hcount ⊢
      simp
      omega
    · simp only [hmode] at hcount ⊢
      simpa using hcount
    · by_cases hmode : n.mode = .code
      · obtain ⟨hopen, hclose⟩ := hbrace hmode
        simpa [hmode, hopen, hclose] using hcount
      · simpa [hmode] using hcount

/-- On one line a reader knows whether it has closed a brace, and it closes no second one. -/
theorem closed_of_read? (hline : '\n' ∉ text) (h : n.read? text = some n') :
    n.closed.toNat + (mask n.mode text).count '\x7d' = n'.closed.toNat := by
  induction text generalizing n with
  | nil => cases h; rfl
  | cons c rest ih =>
    obtain ⟨next, hstep, hrest⟩ := read?_of_cons h
    have hcount := ih (fun hmem => hline (List.mem_cons_of_mem c hmem)) hrest
    rw [mode_of_step? hstep] at hcount
    rw [mask, List.count_cons]
    rcases step?_cases hstep with ⟨hmode, rfl, rfl⟩ | ⟨hmode, rfl, -, hclosed, rfl⟩ | ⟨-, rfl, -⟩ |
      ⟨hbrace, -, rfl⟩
    · simp only [hmode] at hcount ⊢
      simpa using hcount
    · simp only [hmode, hclosed, Bool.toNat_true, Bool.toNat_false] at hcount ⊢
      simp
      omega
    · exact absurd List.mem_cons_self hline
    · by_cases hmode : n.mode = .code
      · simpa [hmode, (hbrace hmode).2] using hcount
      · simpa [hmode] using hcount

end Nesting

/-- The braces that a text opens less those that it closes, outside its literals. -/
def braceDepth (text : List Char) : Int :=
  (mask .code text).count '\x7b' - (mask .code text).count '\x7d'

/-- The depth behind a text is that of its braces. -/
theorem Nesting.depth_of_read? {depth : Nat} {n : Nesting} {text : List Char}
    (h : (Nesting.atLine depth).read? text = some n) : (n.depth : Int) = depth + braceDepth text := by
  have hcount := Nesting.count_of_read? h
  simp only at hcount
  unfold braceDepth
  omega

/-! ## Texts that change nothing -/

/-- A reader outside literals is as before when it has read the text. -/
def Neutral (text : List Char) : Prop :=
  ∀ depth closed, (Nesting.mk .code depth closed).read? text = some ⟨.code, depth, closed⟩

namespace Neutral

variable {text text' : List Char}

theorem nil : Neutral [] :=
  fun _ _ => rfl

theorem append (h : Neutral text) (h' : Neutral text') : Neutral (text ++ text') := by
  intro depth closed
  rw [Nesting.read?_append, h, Option.bind_some, h']

theorem flatMap {α : Type} {f : α → List Char} {xs : List α} (h : ∀ x ∈ xs, Neutral (f x)) :
    Neutral (xs.flatMap f) := by
  induction xs with
  | nil => exact nil
  | cons x rest ih =>
    rw [List.flatMap_cons]
    exact (h x List.mem_cons_self).append (ih fun y hy => h y (List.mem_cons_of_mem x hy))

end Neutral

/-- Whether a character is neither a brace nor a quote nor the end of a line. -/
def isPlain (c : Char) : Bool :=
  !(c = '\x7b' || c = '\x7d' || c = '"' || c = '\n')

theorem isPlain_eq_true {c : Char} :
    isPlain c = true ↔ c ≠ '\x7b' ∧ c ≠ '\x7d' ∧ c ≠ '"' ∧ c ≠ '\n' := by
  simp [isPlain, and_assoc]

theorem Nesting.step?_of_isPlain {c : Char} (h : isPlain c = true) (depth : Nat) (closed : Bool) :
    (Nesting.mk .code depth closed).step? c = some ⟨.code, depth, closed⟩ := by
  obtain ⟨hopen, hclose, hquote, hnew⟩ := isPlain_eq_true.1 h
  simp [Nesting.step?, Mode.next, hopen, hclose, hquote, hnew]

/-- A text without braces, quotes and newlines is neutral. -/
theorem neutral_of_isPlain {text : List Char} (h : ∀ c ∈ text, isPlain c = true) : Neutral text := by
  induction text with
  | nil => exact .nil
  | cons c rest ih =>
    intro depth closed
    rw [Nesting.read?_cons, Nesting.step?_of_isPlain (h c List.mem_cons_self), Option.bind_some]
    exact ih (fun d hd => h d (List.mem_cons_of_mem c hd)) depth closed

/-- Whether a mark is plain. -/
def isPlainMark (mark : String) : Bool :=
  mark.toList.all isPlain

theorem neutral_of_isPlainMark {mark : String} (h : isPlainMark mark = true) : Neutral mark.toList :=
  neutral_of_isPlain (List.all_eq_true.1 h)

theorem isPlain_of_isWordChar {c : Char} (h : isWordChar c = true) : isPlain c = true := by
  refine isPlain_eq_true.2 ⟨?_, ?_, ?_, ?_⟩ <;> rintro rfl <;> exact absurd h (by decide)

theorem isPlain_of_isDigit {c : Char} (h : c.isDigit = true) : isPlain c = true :=
  isPlain_of_isWordChar (isWordChar_of_isDigit h)

theorem neutral_of_isName {name : String} (h : isName name = true) : Neutral name.toList := by
  refine neutral_of_isPlain fun c hc => ?_
  rcases (chars_of_isName h).2 c hc with hword | rfl
  · exact isPlain_of_isWordChar hword
  · decide

theorem neutral_integerText (i : Int) : Neutral (integerText i).toList := by
  refine neutral_of_isPlain fun c hc => ?_
  rcases mem_integerText hc with hdigit | hmark
  · exact isPlain_of_isDigit hdigit
  · have hmarks : isPlainMark "(-)" = true := by decide
    exact List.all_eq_true.1 hmarks c hmark

/-- Whether the text is a string in double quotes that stands on one line. -/
def isLineLiteral (text : String) : Bool :=
  isStringLiteral text && !text.toList.contains '\n'

/-- In a literal that closes on its line braces do not count. -/
theorem read?_of_closes {mode : Mode} {text : List Char} (h : closes mode text = true)
    (hline : '\n' ∉ text) (depth : Nat) (closed : Bool) :
    (Nesting.mk mode depth closed).read? text = some ⟨.code, depth, closed⟩ := by
  induction text generalizing mode with
  | nil =>
    cases mode with
    | code => rfl
    | literal | escape => cases h
  | cons c rest ih =>
    have hc : c ≠ '\n' := fun heq => hline (heq ▸ List.mem_cons_self)
    have hrest : '\n' ∉ rest := fun hmem => hline (List.mem_cons_of_mem c hmem)
    cases mode with
    | code => cases h
    | literal | escape =>
      rw [Nesting.read?_cons, Nesting.step?, if_neg (by simp), if_neg hc, Option.bind_some]
      exact ih h hrest

/-- Braces in a literal do not count. -/
theorem neutral_of_isLineLiteral {text : String} (h : isLineLiteral text = true) :
    Neutral text.toList := by
  simp only [isLineLiteral, isStringLiteral, Bool.and_eq_true, Bool.not_eq_true',
    List.contains_eq_mem, decide_eq_false_iff_not] at h
  obtain ⟨hliteral, hline⟩ := h
  split at hliteral
  · rename_i rest htext
    intro depth closed
    rw [htext] at hline ⊢
    rw [Nesting.read?_cons]
    exact read?_of_closes hliteral (fun hmem => hline (List.mem_cons_of_mem _ hmem)) depth closed
  · cases hliteral

/-! ## Expressions -/

namespace Shape

/-- No shape has a brace in its marks. -/
theorem isPlain_marks : ∀ shape ∈ all,
    shape.opening.all isPlain = true ∧ ∀ slot ∈ shape.slots, slot.2.all isPlain = true := by
  decide +kernel

/-- A shape is neutral if its operands are. -/
theorem neutral_fill {shape : Shape} (hshape : shape ∈ all) {operands : List (List Char)}
    (hlength : operands.length = shape.arity) (h : ∀ x ∈ operands, Neutral x) :
    Neutral (shape.fill operands) := by
  obtain ⟨hopening, hslots⟩ := isPlain_marks shape hshape
  refine (neutral_of_isPlain (List.all_eq_true.1 hopening)).append (.flatMap fun slot hslot => ?_)
  exact (h _ (operand_mem hshape hlength hslot)).append
    (neutral_of_isPlain (List.all_eq_true.1 (hslots slot hslot)))

end Shape

/-- An expression is neutral if its names and literals are. -/
theorem Expr.neutral_text {e : Expr} (h : ∀ leaf ∈ e.leaves, Neutral leaf.toList) :
    Neutral e.text.toList := by
  induction e using induction_on_shape with
  | leaf e hshape =>
    rw [leaves_of_leaf hshape] at h
    exact h _ List.mem_cons_self
  | node e shape hshape ih =>
    rw [text_eq_fill hshape]
    refine Shape.neutral_fill (shape_mem_all hshape) ?_ fun x hx => ?_
    · rw [List.length_map, length_operands hshape]
    · obtain ⟨operand, hoperand, rfl⟩ := List.mem_map.1 hx
      exact ih operand hoperand fun leaf hleaf => h leaf (leaves_of_operand hoperand hleaf)

/-! ## Statements -/

mutual

/-- The names and literals that a statement is made of. -/
def Stmt.leaves : Stmt → List String
  | .nothing => []
  | .declare _ name value => name :: value.elim [] Expr.leaves
  | .assign name value => name :: value.leaves
  | .perform value | .ret value => value.leaves
  | .setPixel image x y value => image :: (x.leaves ++ (y.leaves ++ value.leaves))
  | .block body => bodyLeaves body
  | .choose branches => branchesLeaves branches
  | .loop branches guard => branchesLeaves branches ++ guard.leaves

def bodyLeaves : List Stmt → List String
  | [] => []
  | stmt :: rest => stmt.leaves ++ bodyLeaves rest

def branchesLeaves : List Branch → List String
  | [] => []
  | .mk guard body :: rest => guard.leaves ++ (bodyLeaves body ++ branchesLeaves rest)

end

/-- The text takes a reader from the start of a line to the start of a line, with the same braces
open. -/
def Nested (text : List Char) : Prop :=
  ∀ depth, (Nesting.atLine depth).read? text = some (.atLine depth)

theorem Nested.append {text text' : List Char} (h : Nested text) (h' : Nested text') :
    Nested (text ++ text') := by
  intro depth
  rw [Nesting.read?_append, h, Option.bind_some, h']

theorem Nesting.read?_newline (depth : Nat) (closed : Bool) :
    (Nesting.mk .code depth closed).read? ['\n'] = some (.atLine depth) := rfl

/-- A neutral line keeps the depth. -/
theorem Neutral.nested {text : List Char} (h : Neutral text) : Nested (text ++ ['\n']) := by
  intro depth
  rw [Nesting.read?_append, h, Option.bind_some, Nesting.read?_newline]

/-- A statement on one line. -/
theorem Neutral.statement {text : String} (h : Neutral text.toList) :
    Nested (text ++ ";\n").toList := by
  have htext : (text ++ ";\n").toList = text.toList ++ ";".toList ++ ['\n'] := by simp
  rw [htext]
  exact (h.append (neutral_of_isPlainMark (by decide))).nested

namespace Neutral

variable {text text' : String}

theorem after (mark : String) (hmark : isPlainMark mark = true) (h : Neutral text.toList) :
    Neutral (mark ++ text).toList := by
  rw [String.toList_append]
  exact (neutral_of_isPlainMark hmark).append h

theorem before (mark : String) (hmark : isPlainMark mark = true) (h : Neutral text.toList) :
    Neutral (text ++ mark).toList := by
  rw [String.toList_append]
  exact h.append (neutral_of_isPlainMark hmark)

theorem between (mark : String) (hmark : isPlainMark mark = true) (h : Neutral text.toList)
    (h' : Neutral text'.toList) : Neutral (text ++ mark ++ text').toList := by
  rw [String.toList_append]
  exact (h.before mark hmark).append h'

theorem commas {texts : List String} (h : ∀ t ∈ texts, Neutral t.toList) :
    Neutral (Java.commas texts).toList := by
  unfold Java.commas
  induction texts with
  | nil => exact .nil
  | cons first rest ih =>
    have hfirst := h first List.mem_cons_self
    have hrest := ih fun t ht => h t (List.mem_cons_of_mem first ht)
    cases rest with
    | nil =>
      rw [String.intercalate_singleton]
      exact hfirst
    | cons next rest =>
      rw [String.intercalate_cons_cons]
      exact hfirst.between ", " (by decide) hrest

theorem call (method : Method) {arguments : List String} (h : ∀ t ∈ arguments, Neutral t.toList) :
    Neutral (method.call arguments).toList := by
  have hname : isPlainMark (method.owner.name ++ "." ++ method.name ++ "(") = true := by
    have hall : ∀ m ∈ Method.all, isPlainMark (m.owner.name ++ "." ++ m.name ++ "(") = true := by
      decide +kernel
    exact hall method method.mem_all
  exact ((commas h).after _ hname).before ")" (by decide)

end Neutral

theorem neutral_type (type : Ty) : Neutral type.java.toList := by
  cases type <;> exact neutral_of_isPlainMark (by decide)

/-- Braces around statements close the one that they open, as the first on its line. -/
theorem Nested.read?_braced {body : String} (h : Nested body.toList) (depth : Nat) (closed : Bool) :
    (Nesting.mk .code depth closed).read? (braced body).toList = some ⟨.code, depth, true⟩ := by
  have hopen : (Nesting.mk .code depth closed).read? "\x7b\n".toList = some (.atLine (depth + 1)) :=
    rfl
  have hclose : (Nesting.atLine (depth + 1)).read? "\x7d".toList = some ⟨.code, depth, true⟩ := rfl
  rw [braced, String.toList_append, String.toList_append, Nesting.read?_append,
    Nesting.read?_append, hopen, Option.bind_some, h, Option.bind_some, hclose]

/-- A branch keeps what is open and ends with closing a brace. -/
theorem read?_branch {guard : Expr} {body : List Stmt} (hguard : Neutral guard.text.toList)
    (hbody : Nested (bodyText body).toList) (depth : Nat) (closed : Bool) :
    (Nesting.mk .code depth closed).read?
        ("if (" ++ guard.text ++ ") " ++ braced (bodyText body)).toList =
      some ⟨.code, depth, true⟩ := by
  have hhead := (hguard.after "if (" (by decide)).before ") " (by decide)
  rw [String.toList_append, Nesting.read?_append, hhead, Option.bind_some, hbody.read?_braced]

mutual

/-- A statement closes every brace that it opens. -/
theorem Stmt.nested_text : ∀ stmt : Stmt, (∀ leaf ∈ stmt.leaves, Neutral leaf.toList) →
    Nested stmt.text.toList
  | .nothing, _ => fun _ => rfl
  | .declare type name none, h => by
    rw [Stmt.leaves, List.forall_mem_cons] at h
    exact ((neutral_type type).between " " (by decide) h.1).statement
  | .declare type name (some value), h => by
    rw [Stmt.leaves, List.forall_mem_cons] at h
    exact (((neutral_type type).between " " (by decide) h.1).between " = " (by decide)
      (Expr.neutral_text h.2)).statement
  | .assign name value, h => by
    rw [Stmt.leaves, List.forall_mem_cons] at h
    exact (h.1.between " = " (by decide) (Expr.neutral_text h.2)).statement
  | .perform value, h => (Expr.neutral_text h).statement
  | .ret value, h => ((Expr.neutral_text h).after "return " (by decide)).statement
  | .setPixel image x y value, h => by
    simp only [Stmt.leaves, List.forall_mem_cons, List.forall_mem_append] at h
    obtain ⟨himage, hx, hy, hvalue⟩ := h
    refine (Neutral.call .setPixel ?_).statement
    simp only [List.forall_mem_cons, List.not_mem_nil, false_imp_iff, implies_true, and_true]
    exact ⟨himage, Expr.neutral_text hx, Expr.neutral_text hy, Expr.neutral_text hvalue⟩
  | .block body, h => fun depth => by
    have hbody := nested_bodyText body h
    rw [Stmt.text, String.toList_append, Nesting.read?_append, hbody.read?_braced]
    rfl
  | .choose branches, h => fun depth => by
    have hbranches := read?_branchesText " else " true (fun _ => rfl) branches h depth false
    have hlast : Nested "".toList := fun _ => rfl
    rw [Stmt.text, String.toList_append, String.toList_append, Nesting.read?_append,
      Nesting.read?_append, hbranches, Option.bind_some, hlast.read?_braced]
    rfl
  | .loop branches guard, h => fun depth => by
    rw [Stmt.leaves, List.forall_mem_append] at h
    have hbranches : Nested (branchesText "\n" branches).toList := by
      intro depth
      rw [read?_branchesText "\n" false (fun _ => rfl) branches h.1 depth false, ite_self]
    have hdo : Neutral "do ".toList := neutral_of_isPlainMark (by decide)
    have hwhile := ((Expr.neutral_text h.2).after " while (" (by decide)).before ")" (by decide)
    have htext : (Stmt.loop branches guard).text.toList =
        "do ".toList ++ ((braced (branchesText "\n" branches)).toList ++
          ((" while (" ++ guard.text ++ ")").toList ++ ";\n".toList)) := by
      simp [Stmt.text]
    rw [htext, Nesting.read?_append, hdo, Option.bind_some, Nesting.read?_append,
      hbranches.read?_braced, Option.bind_some, Nesting.read?_append, hwhile]
    rfl

theorem nested_bodyText : ∀ body : List Stmt, (∀ leaf ∈ bodyLeaves body, Neutral leaf.toList) →
    Nested (bodyText body).toList
  | [], _ => fun _ => rfl
  | stmt :: rest, h => by
    rw [bodyLeaves, List.forall_mem_append] at h
    rw [bodyText, String.toList_append]
    exact (stmt.nested_text h.1).append (nested_bodyText rest h.2)

/-- Branches keep what is open. Behind the last one a reader has `after` behind it, and `ends` says
whether a brace is closed on the line that this has come to. -/
theorem read?_branchesText (after : String) (ends : Bool)
    (hafter : ∀ depth, (Nesting.mk .code depth true).read? after.toList = some ⟨.code, depth, ends⟩) :
    ∀ branches : List Branch, (∀ leaf ∈ branchesLeaves branches, Neutral leaf.toList) →
      ∀ depth closed, (Nesting.mk .code depth closed).read? (branchesText after branches).toList =
        some ⟨.code, depth, if branches.isEmpty then closed else ends⟩
  | [], _, depth, closed => rfl
  | .mk guard body :: rest, h, depth, closed => by
    simp only [branchesLeaves, List.forall_mem_append] at h
    obtain ⟨hguard, hbody, hrest⟩ := h
    have hbranch := read?_branch (Expr.neutral_text hguard) (nested_bodyText body hbody) depth closed
    rw [branchesText, String.toList_append, String.toList_append, Nesting.read?_append,
      Nesting.read?_append, hbranch, Option.bind_some, hafter, Option.bind_some,
      read?_branchesText after ends hafter rest hrest, ite_self]
    rfl

end

/-! ## Units -/

theorem HeaderLine.neutral {line : List Char} (h : HeaderLine line) : Neutral line := by
  refine neutral_of_isPlain fun c hc => ?_
  rcases h.chars c hc with hword | hmark
  · exact isPlain_of_isWordChar hword
  · have hmarks : isPlainMark ". ;" = true := by decide
    exact List.all_eq_true.1 hmarks c hmark

theorem nested_unlines {ls : List (List Char)} (h : ∀ line ∈ ls, Neutral line) :
    Nested (unlines ls) := by
  induction ls with
  | nil => exact fun _ => rfl
  | cons line ls ih =>
    rw [unlines, List.flatMap_cons]
    exact (h line List.mem_cons_self).nested.append
      (ih fun l hl => h l (List.mem_cons_of_mem line hl))

namespace SourceUnit

/-- The class of a unit closes every brace that it opens. -/
theorem nested_classText {u : SourceUnit} (hclass : isName u.className = true)
    (hmethod : isName u.method = true) (hparams : ∀ p ∈ u.params, isName p.name = true)
    (hbody : ∀ leaf ∈ bodyLeaves u.body, Neutral leaf.toList) : Nested u.classText.toList := by
  have hparam : ∀ t ∈ u.params.map Param.text, Neutral t.toList := by
    intro t ht
    obtain ⟨p, hp, rfl⟩ := List.mem_map.1 ht
    exact (neutral_type p.type).between " " (by decide) (neutral_of_isName (hparams p hp))
  have hhead := (((neutral_type u.result).after "public static " (by decide)).between " " (by decide)
    (neutral_of_isName hmethod)).between "(" (by decide) ((Neutral.commas hparam).before ") "
      (by decide))
  have hfirst := ((neutral_of_isName hclass).after "public class " (by decide)).before " "
    (by decide)
  have htext : u.classText.toList = ("public class " ++ u.className ++ " ").toList ++
      (braced ("public static " ++ u.result.java ++ " " ++ u.method ++ "(" ++
        (commas (u.params.map Param.text) ++ ") ") ++ braced (bodyText u.body) ++ "\n")).toList ++
      ['\n'] := by
    simp [classText, methodText, braced]
  have hmember : Nested ("public static " ++ u.result.java ++ " " ++ u.method ++ "(" ++
      (commas (u.params.map Param.text) ++ ") ") ++ braced (bodyText u.body) ++ "\n").toList := by
    intro depth
    rw [String.toList_append, String.toList_append, Nesting.read?_append, Nesting.read?_append,
      hhead, Option.bind_some, (nested_bodyText u.body hbody).read?_braced]
    rfl
  intro depth
  rw [htext, Nesting.read?_append, Nesting.read?_append, hfirst, Option.bind_some,
    hmember.read?_braced]
  rfl

/-- The text of a unit closes all its braces, if names and literals have none outside literals. -/
theorem nested_text {u : SourceUnit} (hclass : isName u.className = true)
    (hmethod : isName u.method = true) (hparams : ∀ p ∈ u.params, isName p.name = true)
    (hpackage : ∀ p, u.package = some p → isPackage p = true)
    (hhome : isPackage u.libraryPackage = true)
    (hbody : ∀ leaf ∈ bodyLeaves u.body, Neutral leaf.toList) : Nested u.text.toList := by
  rw [text_eq_header_append]
  exact (nested_unlines fun line hline => (headerLine_of_mem hpackage hhome line hline).neutral).append
    (nested_classText hclass hmethod hparams hbody)

end SourceUnit

end PixelJava.Java
