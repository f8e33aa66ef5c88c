/-
Lowered expressions can stand anywhere. Their names are Java names and their literals are numbers
or strings, which show no mark outside; every shape around them keeps this.
-/
import PixelJava.Proofs.Java.Splice
import PixelJava.Proofs.Lowering.Reachable

namespace PixelJava

open LowerM LowerState

theorem leafRule_level :
    LeafRule Java.isNumeral Java.isStringLiteral fun leaf => Java.Level leaf.toList where
  name _ h := Java.level_of_isName h
  bool value := by
    cases value <;> exact Java.level_of_exposable (by decide) (List.all_eq_true.1 (by decide))
  integer := Java.level_integerText
  num _ h := Java.level_of_isNumeral h
  str _ h := Java.level_of_isStringLiteral h

/-- In whatever state lowering is, and for every expression whose numbers are non-empty rows of
digits and whose strings are in quotes: if it can be lowered, the text of its code can be put in the
place of an operand wherever there is one, and neither the text nor what is around it is grouped
otherwise. -/
theorem lower_spliceable {limit : UInt64} {σ : LowerState limit} (hσ : σ.Reachable) {e : Expr}
    (hlit : e.literalsAre Java.isNumeral Java.isStringLiteral = true) {code : Java.Expr}
    (hok : (outcome e.lower σ).1 = .ok code) : Java.Spliceable code.text := by
  obtain ⟨hclean, rfl⟩ := emit_of_lower hok
  have hnames := isName_of_mentions hσ.wf hclean
  exact (Java.Expr.level_text (leaves_emit leafRule_level hlit hnames)).spliceable

/-- A choice between a negated number and a color, by comparison with a string that holds marks. -/
def guarded : Expr :=
  .cond
    (.binary (.str "\") \\\"; \x7b\"" .zero) .eq (.ident "s" .string .zero) .boolean .zero)
    (.unary .minus (.num "007" .zero) .int .zero) (.const "RED" .pixel .zero) .int .zero

theorem guarded_spliceable :
    let σ : LowerState 9 := (outcome (Step.declare "s" .string .zero).run .start).2
    let code := guarded.emit σ.scopes.javaNameOf
    code.text = "(\") \\\"; \x7b\".equals(s) ? (-007) : (-65536))" ∧ σ.Reachable ∧
      guarded.literalsAre Java.isNumeral Java.isStringLiteral = true ∧
      (outcome guarded.lower σ).1 = .ok code ∧ Java.Spliceable code.text := by
  intro σ code
  have hσ : σ.Reachable := .step _ .start
  have hlit : guarded.literalsAre Java.isNumeral Java.isStringLiteral = true := by decide
  have hclean : guarded.violations 9 σ.scopes.isBound σ.depth = [] := by decide +kernel
  have hok : (outcome guarded.lower σ).1 = .ok code := by
    rw [(gives_lower guarded σ rfl rfl).1, hclean]
    rfl
  exact ⟨by decide +kernel, hσ, hlit, hok, lower_spliceable hσ hlit hok⟩

end PixelJava
