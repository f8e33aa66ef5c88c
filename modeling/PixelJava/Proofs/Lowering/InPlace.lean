/-
Operations that write into the image that their left operand names. The Java name of that image is
found three times: as the text of the left operand, as the place that the result is copied to, and
as the place of the whole value when it is assigned. These agree, since selections that select
nothing are looked through in the same way each time. An assignment is left out just where the value
is copied into the assigned variable already; Java names are compared for that, which tell the
visible names apart.
-/
import PixelJava.Proofs.Lowering.Reachable

namespace PixelJava

open LowerM LowerState

/-! ## Variables that expressions name -/

/-- The expression is the variable `name`, with any number of selections that select nothing
around it. -/
inductive Expr.Names (name : String) : Expr → Prop
  | ident (type : Ty) (span : Span) : Names name (.ident name type span)
  | through {e : Expr} (type : Ty) (span : Span) : Names name e → Names name (.select e none type span)

theorem Expr.names_iff {name : String} (e : Expr) :
    e.Names name ↔ ∃ v, e.named? = some v ∧ v.name = name := by
  constructor
  · intro h
    induction h with
    | ident type span => exact ⟨⟨name, type, span⟩, rfl, rfl⟩
    | through type span _ ih => exact ih
  · rintro ⟨v, hv, rfl⟩
    induction e with
    | ident name type span => cases hv; exact .ident type span
    | select primary channel type span ih =>
      cases channel with
      | none => exact .through type span (ih hv)
      | some c => cases hv
    | num | str | bool | const | cond | binary | unary | selectAt | pixel => cases hv

/-- The code of an expression that names a variable is the Java name of the variable. -/
theorem Expr.emit_of_named {names : String → String} {e : Expr} {v : Variable}
    (h : e.named? = some v) : e.emit names = .name (names v.name) := by
  induction e with
  | ident name type span => cases h; rfl
  | select primary channel type span ih =>
    cases channel with
    | none => exact ih h
    | some c => cases h
  | num | str | bool | const | cond | binary | unary | selectAt | pixel => cases h

/-- The operation for `left op right` can write its result into the left operand. -/
def CanUpdate (left : Expr) (op : BinaryOp) (right : Expr) : Prop :=
  ∃ how, Java.Operation.find? op left.type right.type = some how ∧ how.isInPlace = true

theorem inPlaceVariable?_eq_some_iff {left right : Expr} {op : BinaryOp} {v : Variable} :
    inPlaceVariable? left op right = some v ↔ CanUpdate left op right ∧ left.named? = some v := by
  unfold inPlaceVariable? CanUpdate
  cases Java.Operation.find? op left.type right.type with
  | none => simp
  | some how => simp

/-- The value is an operation that writes its result into the variable `name`. -/
def Expr.Updates (name : String) (value : Expr) : Prop :=
  ∃ left op right type span,
    value = .binary left op right type span ∧ CanUpdate left op right ∧ left.Names name

theorem Expr.updates_iff {name : String} (value : Expr) :
    value.Updates name ↔ ∃ v, value.inPlace? = some v ∧ v.name = name := by
  constructor
  · rintro ⟨left, op, right, type, span, rfl, hupdate, hnames⟩
    obtain ⟨v, hv, hname⟩ := left.names_iff.1 hnames
    exact ⟨v, inPlaceVariable?_eq_some_iff.2 ⟨hupdate, hv⟩, hname⟩
  · rintro ⟨v, hv, hname⟩
    cases value with
    | binary left op right type span =>
      obtain ⟨hupdate, hv⟩ := inPlaceVariable?_eq_some_iff.1 hv
      exact ⟨left, op, right, type, span, rfl, hupdate, left.names_iff.2 ⟨v, hv, hname⟩⟩
    | ident | num | str | bool | const | cond | unary | select | selectAt | pixel => cases hv

/-! ## Texts of updates -/

/-- The method that combines an image with a value of the given type. -/
def updateMethod (right : Ty) : String :=
  if right = .image then "binaryImageImageOp" else "binaryImageScalarOp"

/-- The call that combines an image with a value of the given type. -/
def updateText (right : Ty) (op : BinaryOp) (image value : String) : String :=
  "ImageOps." ++ updateMethod right ++ "(" ++ "ImageOps." ++ ("OP." ++ op.name) ++ ", " ++ image ++
    ", " ++ value ++ ")"

/-- Only an image can be written into, and only a number or an image can go into it. -/
theorem Java.Operation.inPlace_cases {op : BinaryOp} {left right : Ty} {how : Operation}
    (h : find? op left right = some how) (hin : how.isInPlace = true) :
    left = .image ∧ (how = .imageImage ∧ right = .image ∨
      (how = .imageScale ∨ how = .imageNumber) ∧ right = .int) := by
  unfold find? at h
  split at h
  · unfold ofImage? at h
    split at h
    · split at h
      · cases h; cases hin
      · split at h
        · cases h; exact ⟨rfl, .inl ⟨rfl, rfl⟩⟩
        · cases h
    · split at h
      · cases h; exact ⟨rfl, .inr ⟨.inl rfl, rfl⟩⟩
      · split at h
        · cases h; exact ⟨rfl, .inr ⟨.inr rfl, rfl⟩⟩
        · cases h
    · split at h
      · cases h; cases hin
      · cases h
    · cases h
  -- no operation without an image on the left is done in place
  · unfold ofPixel? at h
    split at h <;> (repeat' split at h) <;> cases h <;> cases hin
  · split at h
    · cases h; cases hin
    · split at h
      · cases h; cases hin
      · split at h
        · cases h; cases hin
        · cases h

theorem Java.Operation.imageCall_eq (method operator left right : String) :
    imageCall method operator left right =
      "ImageOps." ++ method ++ "(" ++ "ImageOps." ++ operator ++ ", " ++ left ++ ", " ++ right ++
        ")" := by
  simp [imageCall, commas, Library.name, ← String.append_assoc]

/-- The text of an operation that is done in place. -/
theorem Java.Operation.text_of_inPlace {op : BinaryOp} {left right : Ty} {how : Operation}
    (h : find? op left right = some how) (hin : how.isInPlace = true) (image value : String) :
    how.text op image value = updateText right op image value := by
  have hcall : how.text op image value =
      imageCall (updateMethod right) ("OP." ++ op.name) image value := by
    obtain ⟨-, ⟨rfl, rfl⟩ | ⟨rfl | rfl, rfl⟩⟩ := inPlace_cases h hin <;> rfl
  exact hcall.trans (imageCall_eq ..)

theorem Java.Method.call_copyInto (image target : String) :
    copyInto.call [image, target] = "ImageOps.copyInto(" ++ image ++ ", " ++ target ++ ")" := by
  simp [call, commas, owner, name, Library.name, ← String.append_assoc]

theorem operate_inPlace {op : BinaryOp} {how : Java.Operation} (h : how.isInPlace = true)
    (leftType : Ty) (left right : Java.Expr) (target : String) :
    operate how op leftType left right (some target) =
      .call2 .copyInto (.binary how op left right) (.name target) := by
  have hne : how ≠ .imagePixel := fun he => by rw [he] at h; cases h
  simp [operate, hne]

/-! ## Lowering -/

variable {limit : UInt64} {σ : LowerState limit}

/-- What it takes to lower a binary operator, and what comes of it. -/
theorem binary_of_lowerNode {left right : Expr} {op : BinaryOp} {type : Ty} {span : Span}
    {code : Java.Expr}
    (h : (outcome (Expr.binary left op right type span).lowerNode σ).1 = .ok code) :
    ∃ how, Java.Operation.find? op left.type right.type = some how ∧
      (outcome left.lower σ).1 = .ok (left.emit σ.scopes.javaNameOf) ∧
      (outcome right.lower σ).1 = .ok (right.emit σ.scopes.javaNameOf) ∧
      code = operate how op left.type (left.emit σ.scopes.javaNameOf)
        (right.emit σ.scopes.javaNameOf)
        ((inPlaceVariable? left op right).map fun v => σ.scopes.javaNameOf v.name) := by
  obtain ⟨hclean, rfl⟩ := accept_eq_ok ((gives_lowerNode _ σ.depth σ rfl rfl).1.symm.trans h)
  rw [Expr.nodeViolations, List.append_eq_nil_iff, List.append_eq_nil_iff, require_eq_nil] at hclean
  obtain ⟨hfound, hleft, hright⟩ := hclean
  obtain ⟨how, hhow⟩ := Option.isSome_iff_exists.1 hfound
  refine ⟨how, hhow, lower_of_clean hleft, lower_of_clean hright, ?_⟩
  simp only [Expr.emit, operationOf, hhow, Option.getD_some]

/-- The variable that a lowered operand names is bound, so its Java name is found. -/
theorem inPlaceTarget_of_lower {left right : Expr} {op : BinaryOp} {l : Java.Expr}
    (h : (outcome left.lower σ).1 = .ok l) :
    inPlaceTarget σ.scopes left op right =
      .ok ((inPlaceVariable? left op right).map fun v => σ.scopes.javaNameOf v.name) := by
  obtain ⟨hclean, -⟩ := emit_of_lower h
  rw [Expr.violations, Expr.atLevelViolations, List.append_eq_nil_iff] at hclean
  exact inPlaceTarget_of_bound fun v hv => isBound_of_named hv hclean.2

/-! ## Assignments -/

theorem writesInto_iff {s : Scopes} (hw : s.WF) {target : Target} {value : Expr} {binding : Binding}
    (hbinding : s.find? target.name = some binding)
    (hvalue : ∀ v, value.inPlace? = some v → s.isBound v.name = true) :
    writesInto s target value = true ↔ binding.type = .image ∧ value.Updates target.name := by
  have hbound : s.isBound target.name = true := by rw [Scopes.isBound, hbinding]; rfl
  rw [writesInto, hbinding, Bool.and_eq_true, beq_iff_eq, Option.map_eq_some_iff, Option.any_some,
    decide_eq_true_eq, value.updates_iff]
  refine and_congr_right fun _ => exists_congr fun v => and_congr_right fun hv => ?_
  exact ⟨Scopes.javaNameOf_inj hw (hvalue v hv) hbound, fun h => by rw [h]⟩

/-- An assignment to a whole variable is the value, with the variable in front unless the value has
been written into it. -/
theorem assignment_of_lower (hσ : σ.Reachable) {target : Target} (hpixel : target.pixel = none)
    (hchannel : target.channel = none) {value : Expr} {span : Span} {stmt : Java.Stmt}
    (h : (outcome (Stmt.assign target value span).lower σ).1 = .ok stmt) :
    ∃ binding code, σ.scopes.find? target.name = some binding ∧
      (outcome value.lower σ).1 = .ok code ∧
      ((binding.type = .image ∧ value.Updates target.name) ∧ stmt = .perform code ∨
        ¬(binding.type = .image ∧ value.Updates target.name) ∧
          stmt = .assign binding.javaName code) := by
  obtain ⟨hclean, rfl⟩ := accept_eq_ok
    ((gives_lowerStmt σ.depth σ.scopes (.assign target value span) σ rfl rfl).1.symm.trans h)
  simp only [Stmt.violations, Scopes.declares_around, List.append_eq_nil_iff, assignmentParts,
    hpixel, Option.elim_none, List.nil_append, List.flatMap_cons, List.flatMap_nil,
    List.append_nil] at hclean
  obtain ⟨htarget, hvalue⟩ := hclean
  obtain ⟨binding, hbinding⟩ := Option.isSome_iff_exists.1 (Scopes.isBound_of_target htarget)
  have hname : σ.scopes.javaNameOf target.name = binding.javaName := by
    simp [Scopes.javaNameOf, hbinding]
  have hbound : ∀ v, value.inPlace? = some v → σ.scopes.isBound v.name = true := by
    intro v hv
    rw [Expr.violations, Expr.atLevelViolations, List.append_eq_nil_iff] at hvalue
    exact isBound_of_mentions hvalue.2 (inPlace_mem_mentions hv)
  have hwrites := writesInto_iff hσ.wf hbinding hbound
  refine ⟨binding, _, hbinding, lower_of_clean hvalue, ?_⟩
  rw [Stmt.emit, emitAssignment, hpixel, hchannel, hname]
  by_cases hupdates : binding.type = .image ∧ value.Updates target.name
  · exact .inl ⟨hupdates, if_pos (hwrites.2 hupdates)⟩
  · exact .inr ⟨hupdates, if_neg fun hwritten => hupdates (hwrites.1 hwritten)⟩

theorem text_perform_ne_text_assign (name : String) (code : Java.Expr) :
    (Java.Stmt.perform code).text ≠ (Java.Stmt.assign name code).text := by
  intro h
  have hlength := congrArg String.length h
  simp [Java.Stmt.text] at hlength

/-- In every state that lowering can be in. For a binary operator: once its left operand can be
lowered, the search for the image that it writes into does not fail, and an image that is found is
the text of the left operand; if the operator can be lowered too, its code copies the result into
that image, or else is just that of its operation, if there is none. For an assignment to a whole
variable that can be lowered: it is the text of its value, with the name of the variable in front
just unless the variable is declared as an image and the value is an operation in place whose left
operand names the same variable. -/
theorem inPlace_agrees (hσ : σ.Reachable) :
    (∀ (left right : Expr) (op : BinaryOp) (type : Ty) (span : Span),
      (∀ l, (outcome left.lower σ).1 = .ok l →
        ∃ target, inPlaceTarget σ.scopes left op right = .ok target ∧
          ∀ name, target = some name → l.text = name) ∧
      ∀ code, (outcome (Expr.binary left op right type span).lowerNode σ).1 = .ok code →
        ∃ how l r target, Java.Operation.find? op left.type right.type = some how ∧
          (outcome left.lower σ).1 = .ok l ∧ (outcome right.lower σ).1 = .ok r ∧
          inPlaceTarget σ.scopes left op right = .ok target ∧
          match target with
          | some name =>
            code.text = "ImageOps.copyInto(" ++ updateText right.type op name r.text ++ ", " ++
              name ++ ")"
          | none =>
            if how = .imagePixel ∧ left.type ≠ .image then code = .binary how op r l
            else code = .binary how op l r) ∧
    ∀ (target : Target) (value : Expr) (span : Span) (stmt : Java.Stmt),
      target.pixel = none → target.channel = none →
      (outcome (Stmt.assign target value span).lower σ).1 = .ok stmt →
        ∃ binding code, σ.scopes.find? target.name = some binding ∧
          (outcome value.lower σ).1 = .ok code ∧
          (stmt.text = code.text ++ ";\n" ↔ binding.type = .image ∧ value.Updates target.name) ∧
          (stmt.text = binding.javaName ++ " = " ++ code.text ++ ";\n" ↔
            ¬(binding.type = .image ∧ value.Updates target.name)) := by
  refine ⟨fun left right op type span => ⟨fun l hl => ?_, fun code hcode => ?_⟩, ?_⟩
  · refine ⟨_, inPlaceTarget_of_lower hl, fun name hname => ?_⟩
    obtain ⟨v, hv, rfl⟩ := Option.map_eq_some_iff.1 hname
    obtain ⟨-, rfl⟩ := emit_of_lower hl
    rw [Expr.emit_of_named (named_of_inPlaceVariable hv)]
    rfl
  · obtain ⟨how, hhow, hl, hr, rfl⟩ := binary_of_lowerNode hcode
    refine ⟨how, _, _, _, hhow, hl, hr, inPlaceTarget_of_lower hl, ?_⟩
    cases hv : inPlaceVariable? left op right with
    | none =>
      simp only [Option.map_none, operate, Bool.and_eq_true, decide_eq_true_eq]
      split <;> rfl
    | some v =>
      obtain ⟨⟨how', hhow', hin⟩, hnamed⟩ := inPlaceVariable?_eq_some_iff.1 hv
      cases hhow.symm.trans hhow'
      rw [Option.map_some, operate_inPlace hin, Expr.emit_of_named hnamed]
      simp only [Java.Expr.text, Java.Method.call_copyInto, Java.Operation.text_of_inPlace hhow hin]
  · intro target value span stmt hpixel hchannel hstmt
    obtain ⟨binding, code, hbinding, hcode, hcases⟩ :=
      assignment_of_lower hσ hpixel hchannel hstmt
    refine ⟨binding, code, hbinding, hcode, ?_⟩
    have hne := text_perform_ne_text_assign binding.javaName code
    rcases hcases with ⟨hupdates, rfl⟩ | ⟨hupdates, rfl⟩
    · exact ⟨⟨fun _ => hupdates, fun _ => rfl⟩, ⟨fun h => absurd h hne, fun h => absurd hupdates h⟩⟩
    · exact ⟨⟨fun h => absurd h.symm hne, fun h => absurd h hupdates⟩,
        ⟨fun _ => hupdates, fun _ => rfl⟩⟩

/-- The state in which the image variables `im` and `out` are declared. -/
def withTwoImages : LowerState 9 :=
  (outcome (Step.declare "out" .image .zero).run
    (outcome (Step.declare "im" .image .zero).run .start).2).2

/-- A number added to each pixel of `im`, with a selection that selects nothing around `im`. -/
def raised : Expr :=
  .binary (.select (.ident "im" .image .zero) none .image .zero) .plus (.num "1" .zero) .image .zero

/-- The sum is copied into `im`, so an assignment to `im` is left out and one to `out` is not. -/
theorem raised_agrees :
    let assignTo (name : String) : Stmt := .assign ⟨name, none, none, .image, .zero⟩ raised .zero
    withTwoImages.Reachable ∧
    (∃ code, (outcome raised.lowerNode withTwoImages).1 = .ok code ∧
      code.text = "ImageOps.copyInto(" ++ updateText .int .plus "im" "1" ++ ", " ++ "im" ++ ")") ∧
    ∃ code stmt stmt', (outcome raised.lower withTwoImages).1 = .ok code ∧
      (outcome (assignTo "im").lower withTwoImages).1 = .ok stmt ∧ stmt.text = code.text ++ ";\n" ∧
      (outcome (assignTo "out").lower withTwoImages).1 = .ok stmt' ∧
      stmt'.text = "out" ++ " = " ++ code.text ++ ";\n" := by
  intro assignTo
  have hσ : withTwoImages.Reachable := .step _ (.step _ .start)
  obtain ⟨hbinary, hassign⟩ := inPlace_agrees hσ
  have hnode : (outcome raised.lowerNode withTwoImages).1 =
      .ok (raised.emit withTwoImages.scopes.javaNameOf) := by
    rw [(gives_lowerNode raised _ withTwoImages rfl rfl).1]
    have hclean : raised.nodeViolations 9 withTwoImages.scopes.isBound withTwoImages.depth = [] := by
      decide +kernel
    rw [hclean]
    rfl
  have hstmt (name : String) (h : (assignTo name).violations 9 withTwoImages.scopes.around
      withTwoImages.depth = []) : (outcome (assignTo name).lower withTwoImages).1 =
        .ok ((assignTo name).emit withTwoImages.scopes) := by
    rw [(gives_lowerStmt _ _ (assignTo name) withTwoImages rfl rfl).1, h]
    rfl
  have him := hstmt "im" (by decide +kernel)
  have hout := hstmt "out" (by decide +kernel)
  have hupdates : raised.Updates "im" :=
    ⟨_, _, _, _, _, rfl, ⟨.imageNumber, rfl, rfl⟩, .through _ _ (.ident _ _)⟩
  refine ⟨hσ, ⟨_, hnode, ?_⟩, ?_⟩
  · obtain ⟨how, l, r, target, -, -, hr, htarget, htext⟩ := (hbinary _ _ _ _ _).2 _ hnode
    have hr' : (outcome (Expr.num "1" .zero).lower withTwoImages).1 = .ok (.literal "1") := rfl
    cases hr.symm.trans hr'
    have htarget' : inPlaceTarget withTwoImages.scopes
        (.select (.ident "im" .image .zero) none .image .zero) .plus (.num "1" .zero) =
          .ok (some "im") := by decide +kernel
    cases htarget.symm.trans htarget'
    exact htext
  · obtain ⟨binding, code, hbinding, hcode, hperform, -⟩ := hassign _ _ _ _ rfl rfl him
    obtain ⟨binding', code', hbinding', hcode', -, hassigned⟩ := hassign _ _ _ _ rfl rfl hout
    cases hcode.symm.trans hcode'
    have him' : withTwoImages.scopes.find? "im" = some ⟨"im", .image, 0⟩ := by decide +kernel
    have hout' : withTwoImages.scopes.find? "out" = some ⟨"out", .image, 1⟩ := by decide +kernel
    cases hbinding.symm.trans him'
    cases hbinding'.symm.trans hout'
    have hother : ¬raised.Updates "out" := by
      rw [raised.updates_iff]
      rintro ⟨v, hv, hname⟩
      cases hv
      exact absurd hname (by decide)
    exact ⟨code, _, _, hcode, him, hperform.2 ⟨rfl, hupdates⟩, hout,
      hassigned.2 fun h => hother h.2⟩

end PixelJava
