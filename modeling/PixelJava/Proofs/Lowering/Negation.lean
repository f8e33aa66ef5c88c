/-
Signs in lowered expressions. A negated variable, a negated negation and a negative color stand in
parentheses, so a sign before them stays apart; but a negative number is written as it is, and a
minus before it makes a decrement of the two. This is the only way in which signs run together.
-/
import PixelJava.Proofs.Java.Sign
import PixelJava.Proofs.Lowering.Reachable

namespace PixelJava

open LowerM LowerState

variable {names : String → String} {sign : Char} {e : Expr}

namespace Expr

/-- Whether the code of the expression begins with the minus of a negative number: it is such a
number, also with selectors that select nothing, or a comparison of strings whose left side begins
so. -/
def startsNegative : Expr → Bool
  | .num text _ => text.toList.head? = some '-'
  | .select primary none _ _ => primary.startsNegative
  | .binary left op right _ _ =>
    operationOf left op right = .stringEquals && left.startsNegative
  | _ => false

/-- Whether the expression is a minus before code that begins with the minus of a number. -/
def doublesMinus : Expr → Bool
  | .unary .minus operand _ _ => operand.startsNegative
  | _ => false

theorem mentions_of_node {node : Expr} (h : node ∈ e.nodes) : node.mentions ⊆ e.mentions := by
  induction e with
  | ident | num | str | bool | const =>
    obtain rfl := List.mem_singleton.1 h
    exact List.Subset.refl _
  | cond | binary | unary | select | selectAt | pixel =>
    rcases List.mem_cons.1 h with rfl | h
    · exact List.Subset.refl _
    · intro name hname
      simp only [mentions, List.mem_append, mem_operands]
      grind

end Expr

/-! ## First characters -/

theorem inPlaceVariable?_of_stringEquals {left right : Expr} {op : BinaryOp}
    (h : operationOf left op right = .stringEquals) : inPlaceVariable? left op right = none := by
  unfold operationOf at h
  unfold inPlaceVariable?
  cases hfind : Java.Operation.find? op left.type right.type with
  | none => simp
  | some how =>
    obtain rfl : how = .stringEquals := by simpa [hfind] using h
    simp [Java.Operation.isInPlace]

theorem head?_operate {how : Java.Operation} {op : BinaryOp} {leftType : Ty}
    {left right : Java.Expr} {target : Option String} (hsign : sign ∈ Java.signs) :
    (operate how op leftType left right target).text.toList.head? = some sign ↔
      target = none ∧ how = .stringEquals ∧ left.text.toList.head? = some sign := by
  unfold operate
  cases target with
  | some name => exact iff_of_false (Java.Expr.head?_ne_sign rfl rfl hsign) (by simp)
  | none =>
    split
    · rename_i hswap
      simp only [Bool.and_eq_true, decide_eq_true_eq] at hswap
      simp [Java.Expr.head?_binary hsign, hswap.1]
    · simp [Java.Expr.head?_binary hsign]

/-- The code of an expression begins with a sign just if it begins with that of a number. -/
theorem head?_emit (hsign : sign ∈ Java.signs)
    (hlit : e.literalsAre Java.isSignedNumeral Java.isStringLiteral = true)
    (hnames : ∀ name ∈ e.mentions, Java.isName (names name) = true) :
    (e.emit names).text.toList.head? = some sign ↔ sign = '-' ∧ e.startsNegative = true := by
  induction e with
  | ident name type span =>
    have hname := Java.isExposable_of_isName (hnames name List.mem_cons_self)
    exact iff_of_false (Java.head?_of_exposable hsign hname) (by simp [Expr.startsNegative])
  | num text span =>
    have hnum : Java.isSignedNumeral text = true :=
      List.all_eq_true.1 hlit _ (Expr.mem_nodes_self _)
    rw [Expr.startsNegative, decide_eq_true_eq]
    constructor
    · intro hhead
      obtain rfl := Java.head?_of_isSignedNumeral hsign hnum hhead
      exact ⟨rfl, hhead⟩
    · rintro ⟨rfl, hhead⟩
      exact hhead
  | str text span =>
    have hstr : Java.isStringLiteral text = true :=
      List.all_eq_true.1 hlit _ (Expr.mem_nodes_self _)
    exact iff_of_false (Java.head?_of_isStringLiteral hsign hstr) (by simp [Expr.startsNegative])
  | bool value span =>
    have hword : ∀ c ∈ (if value then "true" else "false").toList, Java.isExposable c = true := by
      cases value <;> exact List.all_eq_true.1 (by decide)
    exact iff_of_false (Java.head?_of_exposable hsign hword) (by simp [Expr.startsNegative])
  | const name type span =>
    exact iff_of_false (Java.head?_integerText hsign _) (by simp [Expr.startsNegative])
  | binary left op right type span ihl ihr =>
    have hleft : left ∈ (Expr.binary left op right type span).nodes := by
      simp [Expr.nodes, left.mem_nodes_self]
    have hhead : (left.emit names).text.toList.head? = some sign ↔
        sign = '-' ∧ left.startsNegative = true :=
      ihl (Expr.literalsAre_of_node hleft hlit)
        fun name hn => hnames name (Expr.mentions_of_node hleft hn)
    rw [Expr.emit, head?_operate hsign, hhead, Expr.startsNegative, Bool.and_eq_true,
      decide_eq_true_eq]
    constructor
    · rintro ⟨-, hhow, hminus, hnegative⟩
      exact ⟨hminus, hhow, hnegative⟩
    · rintro ⟨hminus, hhow, hnegative⟩
      exact ⟨by rw [inPlaceVariable?_of_stringEquals hhow]; rfl, hhow, hminus, hnegative⟩
  | select primary channel type span ih =>
    cases channel with
    | none =>
      have hprimary : primary ∈ (Expr.select primary none type span).nodes := by
        simp [Expr.nodes, primary.mem_nodes_self]
      exact ih (Expr.literalsAre_of_node hprimary hlit) hnames
    | some c =>
      exact iff_of_false (Java.Expr.head?_ne_sign rfl rfl hsign) (by simp [Expr.startsNegative])
  | selectAt primary x y place channel type span =>
    cases channel <;>
      exact iff_of_false (Java.Expr.head?_ne_sign rfl rfl hsign) (by simp [Expr.startsNegative])
  | cond | unary | pixel =>
    exact iff_of_false (Java.Expr.head?_ne_sign rfl rfl hsign) (by simp [Expr.startsNegative])

/-! ## Signs that meet -/

theorem joins_operate {how : Java.Operation} {op : BinaryOp} {leftType : Ty}
    {left right : Java.Expr} {target : Option String} :
    (operate how op leftType left right target).joins sign ↔
      left.joins sign ∨ right.joins sign := by
  unfold operate
  cases target <;> split <;> simp [Java.Expr.joins, or_comm]

/-- Signs meet in the code of an expression just where they meet at one of its nodes. -/
theorem joins_emit :
    (e.emit names).joins sign ↔ ∃ op operand type span, .unary op operand type span ∈ e.nodes ∧
      (Java.Shape.unary op).sign? = some sign ∧
        (operand.emit names).text.toList.head? = some sign := by
  -- only unary operators bring signs; the other nodes have what their parts have
  induction e with
  | ident | num | str | bool | const => simp [Expr.emit, Java.Expr.joins, Expr.nodes]
  | cond | unary | pixel =>
    simp only [Expr.emit, Java.Expr.joins, Expr.nodes, List.mem_cons, List.mem_append, *]
    grind
  | binary left op right type span ihl ihr =>
    rw [Expr.emit, joins_operate, ihl, ihr]
    simp only [Expr.nodes, List.mem_cons, List.mem_append]
    grind
  | select primary channel type span ih =>
    cases channel <;>
      simp only [Expr.emit, Java.Expr.joins, Expr.nodes, List.mem_cons, ih] <;> grind
  | selectAt primary x y place channel type span ih ihx ihy =>
    cases channel <;>
      simp only [Expr.emit, Java.Expr.joins, Expr.nodes, List.mem_cons, List.mem_append, ih, ihx,
        ihy] <;> grind

/-- A sign before an operand meets another just if both are minus and the other is that of a
number. -/
theorem joins_emit_iff (hsign : sign ∈ Java.signs)
    (hlit : e.literalsAre Java.isSignedNumeral Java.isStringLiteral = true)
    (hnames : ∀ name ∈ e.mentions, Java.isName (names name) = true) :
    (e.emit names).joins sign ↔ sign = '-' ∧ ∃ node ∈ e.nodes, node.doublesMinus = true := by
  rw [joins_emit]
  have hhead {op : UnaryOp} {operand : Expr} {type : Ty} {span : Span}
      (h : .unary op operand type span ∈ e.nodes) :
      (operand.emit names).text.toList.head? = some sign ↔
        sign = '-' ∧ operand.startsNegative = true := by
    have hoperand : operand ∈ e.nodes :=
      Expr.nodes_subset h (List.mem_cons_of_mem _ operand.mem_nodes_self)
    exact head?_emit hsign (Expr.literalsAre_of_node hoperand hlit)
      fun name hn => hnames name (Expr.mentions_of_node hoperand hn)
  constructor
  · rintro ⟨op, operand, type, span, hmem, hop, hfirst⟩
    obtain ⟨rfl, hnegative⟩ := (hhead hmem).1 hfirst
    refine ⟨rfl, _, hmem, ?_⟩
    cases op with
    | minus => exact hnegative
    | plus | bang | width | height => cases hop
  · rintro ⟨rfl, node, hmem, hdoubles⟩
    unfold Expr.doublesMinus at hdoubles
    split at hdoubles
    · exact ⟨_, _, _, _, hmem, rfl, (hhead hmem).2 ⟨rfl, hdoubles⟩⟩
    · cases hdoubles

/-! ## Lowered expressions -/

theorem leafRule_signsApart :
    LeafRule Java.isSignedNumeral Java.isStringLiteral fun leaf => Java.SignsApart leaf.toList where
  name _ h := Java.signsApart_of_exposable (Java.isExposable_of_isName h)
  bool value := by
    cases value <;>
      exact Java.signsApart_of_exposable (List.all_eq_true.1 (by decide))
  integer := Java.signsApart_integerText
  num _ h := Java.signsApart_of_isSignedNumeral h
  str _ h := Java.signsApart_of_isStringLiteral h

/-- In whatever state lowering is, and for every expression whose numbers are decimal texts,
negative ones included, and whose strings are in quotes: if it can be lowered, then outside its
strings no plus stands right behind a plus, and a minus stands right behind a minus just if a minus
of the expression is applied to code that begins with a negative number. -/
theorem doubled_signs_iff {limit : UInt64} {σ : LowerState limit} (hσ : σ.Reachable)
    (hlit : e.literalsAre Java.isSignedNumeral Java.isStringLiteral = true) {code : Java.Expr}
    (hok : (outcome e.lower σ).1 = .ok code) :
    ¬Java.Doubled '+' (Java.mask .code code.text.toList) ∧
      (Java.Doubled '-' (Java.mask .code code.text.toList) ↔
        ∃ node ∈ e.nodes, node.doublesMinus = true) := by
  obtain ⟨hclean, rfl⟩ := emit_of_lower hok
  have hnames := isName_of_mentions hσ.wf hclean
  have hleaves := leaves_emit leafRule_signsApart hlit hnames
  have hdoubled {sign : Char} (hsign : sign ∈ Java.signs) :=
    (Java.Expr.doubled_text hsign hleaves).2.trans (joins_emit_iff hsign hlit hnames)
  constructor
  · intro hplus
    have hminus : '+' = '-' := ((hdoubled (by decide)).1 hplus).1
    exact absurd hminus (by decide)
  · have hminus := hdoubled (by decide : '-' ∈ Java.signs)
    simpa using hminus

/-- Signs before names, signs, colors and numbers, in ways that keep them apart, and a string of
signs. -/
def apart : Expr :=
  let a : Expr := .ident "a" .int .zero
  let minus (operand : Expr) : Expr := .unary .minus operand .int .zero
  .cond (.binary (.str "\"--\"" .zero) .eq (.ident "s" .string .zero) .boolean .zero)
    (.binary (minus (minus a)) .minus (.num "-5" .zero) .int .zero)
    (minus (.unary .plus (.const "RED" .int .zero) .int .zero)) .int .zero

theorem apart_keeps_signs :
    let τ : LowerState 9 := (outcome (Step.declare "a" .int .zero).run .start).2
    let σ : LowerState 9 := (outcome (Step.declare "s" .string .zero).run τ).2
    let code := apart.emit σ.scopes.javaNameOf
    code.text = "(\"--\".equals(s) ? ((-(-a)) - -5) : (-(+(-65536))))" ∧ σ.Reachable ∧
      apart.literalsAre Java.isSignedNumeral Java.isStringLiteral = true ∧
      (outcome apart.lower σ).1 = .ok code ∧ (∀ node ∈ apart.nodes, node.doublesMinus = false) ∧
      ¬Java.Doubled '+' (Java.mask .code code.text.toList) ∧
      ¬Java.Doubled '-' (Java.mask .code code.text.toList) := by
  intro τ σ code
  have hσ : σ.Reachable := .step _ (.step _ .start)
  have hlit : apart.literalsAre Java.isSignedNumeral Java.isStringLiteral = true := by decide
  have hok : (outcome apart.lower σ).1 = .ok code := lower_of_clean (by decide +kernel)
  have hnodes : ∀ node ∈ apart.nodes, node.doublesMinus = false := by
    simpa using List.all_eq_true.1 (by decide : apart.nodes.all (!·.doublesMinus) = true)
  obtain ⟨hplus, hminus⟩ := doubled_signs_iff hσ hlit hok
  refine ⟨by decide +kernel, hσ, hlit, hok, hnodes, hplus, fun hd => ?_⟩
  obtain ⟨node, hmem, hdoubles⟩ := hminus.1 hd
  rw [hnodes node hmem] at hdoubles
  cases hdoubles

/-- The negation of a negative number is written with two signs, which are read as a decrement. -/
theorem negated_number_doubles :
    let e : Expr := .unary .minus (.num "-5" .zero) .int .zero
    let code := e.emit id
    e.literalsAre Java.isSignedNumeral Java.isStringLiteral = true ∧
      (outcome e.lower (.start : LowerState 9)).1 = .ok code ∧ code.text = "(--5)" ∧
      Java.Doubled '-' (Java.mask .code code.text.toList) := by
  intro e code
  have hok : (outcome e.lower (.start : LowerState 9)).1 = .ok code :=
    lower_of_clean (by decide +kernel)
  exact ⟨by decide, hok, by decide +kernel, by decide +kernel⟩

end PixelJava
