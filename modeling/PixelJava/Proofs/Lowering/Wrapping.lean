/-
Selections that select nothing. Wrapped around any parts of an expression, any number of times, they
change nothing but its height: the code is the same, also where an operator writes into the image
that its left operand names, and so are the library classes in use and every fault that is not about
nesting.
-/
import PixelJava.Proofs.Lowering.Threshold

namespace PixelJava

open LowerM

/-! ## Faults apart from nesting -/

/-- The faults of the list that are not about nesting. -/
def shallow (faults : List Fault) : List Fault :=
  faults.filter (!·.isDeep)

@[simp] theorem shallow_append (v w : List Fault) : shallow (v ++ w) = shallow v ++ shallow w :=
  List.filter_append ..

/-- Only the nesting of a node is left out of its faults. -/
theorem Expr.shallow_atLevelViolations (limit : UInt64) (level : Nat) (e : Expr)
    (node : Nat → List Fault) :
    shallow (e.atLevelViolations limit level node) = shallow (node (level + 1)) := by
  have hlevel : shallow (levelViolations limit (level + 1) e.span.start) = [] := by
    unfold levelViolations require
    split <;> rfl
  rw [atLevelViolations, shallow_append, hlevel, List.nil_append]

/-- The level of an expression does not matter to the faults apart from nesting. -/
theorem Expr.shallow_nodeViolations (limit : UInt64) (bound : String → Bool) (e : Expr) :
    ∀ level level', shallow (e.nodeViolations limit bound level) =
      shallow (e.nodeViolations limit bound level') := by
  induction e with
  | ident | num | str | bool | const => exact fun _ _ => rfl
  | cond guard whenTrue whenFalse type span ihg iht ihf =>
    intro level level'
    simp only [nodeViolations, shallow_append, shallow_atLevelViolations]
    rw [ihg _ (level' + 1), iht _ (level' + 1), ihf _ (level' + 1)]
  | binary left op right type span ihl ihr =>
    intro level level'
    simp only [nodeViolations, shallow_append, shallow_atLevelViolations]
    rw [ihl _ (level' + 1), ihr _ (level' + 1)]
  | unary op operand type span ih =>
    intro level level'
    simp only [nodeViolations, shallow_append, shallow_atLevelViolations]
    rw [ih _ (level' + 1)]
  | select primary channel type span ih =>
    intro level level'
    simp only [nodeViolations, shallow_append, shallow_atLevelViolations]
    rw [ih _ (level' + 1)]
  | selectAt primary x y place channel type span ih ihx ihy =>
    intro level level'
    simp only [nodeViolations, shallow_append, shallow_atLevelViolations]
    rw [ih _ (level' + 1), ihx _ (level' + 1), ihy _ (level' + 1)]
  | pixel red green blue span ihr ihg ihb =>
    intro level level'
    simp only [nodeViolations, shallow_append, shallow_atLevelViolations]
    rw [ihr _ (level' + 1), ihg _ (level' + 1), ihb _ (level' + 1)]

theorem accept_shallow {α : Type} {faults : List Fault} {value : α}
    (h : ∀ fault, accept faults value = .error fault → fault.isDeep = false) :
    accept faults value = accept (shallow faults) value := by
  cases faults with
  | nil => rfl
  | cons fault rest => simp [accept, shallow, h fault rfl]

/-! ## Wrapping -/

/-- `e'` is `e` with selections that select nothing around any of its parts, any number of times;
each has the type of what it is around. -/
inductive Wraps : (e e' : Expr) → Prop
  | refl (e : Expr) : Wraps e e
  | wrap {e e' : Expr} (span : Span) : Wraps e e' → Wraps e (.select e' none e'.type span)
  | cond {guard guard' whenTrue whenTrue' whenFalse whenFalse' : Expr} (type : Ty) (span : Span) :
    Wraps guard guard' → Wraps whenTrue whenTrue' → Wraps whenFalse whenFalse' →
      Wraps (.cond guard whenTrue whenFalse type span) (.cond guard' whenTrue' whenFalse' type span)
  | binary {left left' right right' : Expr} (op : BinaryOp) (type : Ty) (span : Span) :
    Wraps left left' → Wraps right right' →
      Wraps (.binary left op right type span) (.binary left' op right' type span)
  | unary {operand operand' : Expr} (op : UnaryOp) (type : Ty) (span : Span) :
    Wraps operand operand' → Wraps (.unary op operand type span) (.unary op operand' type span)
  | select {primary primary' : Expr} (channel : Option ChannelSelector) (type : Ty) (span : Span) :
    Wraps primary primary' →
      Wraps (.select primary channel type span) (.select primary' channel type span)
  | selectAt {primary primary' x x' y y' : Expr} (place : Span) (channel : Option ChannelSelector)
    (type : Ty) (span : Span) : Wraps primary primary' → Wraps x x' → Wraps y y' →
      Wraps (.selectAt primary x y place channel type span)
        (.selectAt primary' x' y' place channel type span)
  | pixel {red red' green green' blue blue' : Expr} (span : Span) :
    Wraps red red' → Wraps green green' → Wraps blue blue' →
      Wraps (.pixel red green blue span) (.pixel red' green' blue' span)

namespace Wraps

variable {e e' : Expr}

theorem type_eq (h : Wraps e e') : e'.type = e.type := by
  induction h with
  | wrap span _ ih => exact ih
  | refl | cond | binary | unary | select | selectAt | pixel => rfl

/-- The variable that an operator writes into is found through wrappers. -/
theorem named_eq (h : Wraps e e') : e'.named? = e.named? := by
  induction h with
  | wrap span _ ih => exact ih
  | select channel type span _ ih => cases channel <;> simp [Expr.named?, ih]
  | refl | cond | binary | unary | selectAt | pixel => rfl

theorem emit_eq (names : String → String) (h : Wraps e e') : e'.emit names = e.emit names := by
  induction h with
  | refl e => rfl
  | wrap span _ ih => exact ih
  | cond type span _ _ _ ihg iht ihf => simp only [Expr.emit, ihg, iht, ihf]
  | binary op type span hl hr ihl ihr =>
    simp only [Expr.emit, operationOf, inPlaceVariable?, hl.type_eq, hr.type_eq, hl.named_eq, ihl,
      ihr]
  | unary op type span _ ih => simp only [Expr.emit, ih]
  | select channel type span hp ih => cases channel <;> simp only [Expr.emit, hp.type_eq, ih]
  | selectAt place channel type span _ _ _ ih ihx ihy =>
    cases channel <;> simp only [Expr.emit, ih, ihx, ihy]
  | pixel span _ _ _ ihr ihg ihb => simp only [Expr.emit, ihr, ihg, ihb]

theorem uses_eq (h : Wraps e e') : e'.uses = e.uses := by
  induction h with
  | refl e => rfl
  | wrap span _ ih => exact ih
  | cond type span _ _ _ ihg iht ihf => simp only [Expr.uses, ihg, iht, ihf]
  | binary op type span hl hr ihl ihr =>
    simp only [Expr.uses, operationOf, hl.type_eq, hr.type_eq, ihl, ihr]
  | unary op type span _ ih => exact ih
  | select channel type span hp ih => cases channel <;> simp only [Expr.uses, hp.type_eq, ih]
  | selectAt place channel type span _ _ _ ih ihx ihy =>
    cases channel <;> simp only [Expr.uses, ih, ihx, ihy]
  | pixel span _ _ _ ihr ihg ihb => simp only [Expr.uses, ihr, ihg, ihb]

/-- A wrapper has no faults of its own: nothing can be selected from every type. -/
theorem shallow_nodeViolations_eq (limit : UInt64) (bound : String → Bool) (h : Wraps e e') :
    ∀ level level', shallow (e'.nodeViolations limit bound level) =
      shallow (e.nodeViolations limit bound level') := by
  induction h with
  | refl e => exact e.shallow_nodeViolations limit bound
  | wrap span _ ih =>
    intro level level'
    rw [Expr.nodeViolations, shallow_append, Expr.shallow_atLevelViolations, ih _ level']
    rfl
  | cond type span _ _ _ ihg iht ihf =>
    intro level level'
    simp only [Expr.nodeViolations, shallow_append, Expr.shallow_atLevelViolations]
    rw [ihg _ (level' + 1), iht _ (level' + 1), ihf _ (level' + 1)]
  | binary op type span hl hr ihl ihr =>
    intro level level'
    simp only [Expr.nodeViolations, shallow_append, Expr.shallow_atLevelViolations, hl.type_eq,
      hr.type_eq]
    rw [ihl _ (level' + 1), ihr _ (level' + 1)]
  | unary op type span hp ih =>
    intro level level'
    simp only [Expr.nodeViolations, shallow_append, Expr.shallow_atLevelViolations, hp.type_eq]
    rw [ih _ (level' + 1)]
  | select channel type span hp ih =>
    intro level level'
    simp only [Expr.nodeViolations, shallow_append, Expr.shallow_atLevelViolations, hp.type_eq]
    rw [ih _ (level' + 1)]
  | selectAt place channel type span hp _ _ ih ihx ihy =>
    intro level level'
    simp only [Expr.nodeViolations, shallow_append, Expr.shallow_atLevelViolations, hp.type_eq]
    rw [ih _ (level' + 1), ihx _ (level' + 1), ihy _ (level' + 1)]
  | pixel span _ _ _ ihr ihg ihb =>
    intro level level'
    simp only [Expr.nodeViolations, shallow_append, Expr.shallow_atLevelViolations]
    rw [ihr _ (level' + 1), ihg _ (level' + 1), ihb _ (level' + 1)]

end Wraps

/-! ## Lowering -/

variable {limit : UInt64}

/-- What comes of lowering an expression, unless that goes too deep. -/
theorem lower_of_shallow {σ : LowerState limit} {e : Expr}
    (h : ∀ fault n, (outcome e.lower σ).1 = .error fault → fault.cause ≠ .tooDeep n) :
    (outcome e.lower σ).1 =
      accept (shallow (e.nodeViolations limit σ.scopes.isBound (σ.depth + 1)))
        (e.emit σ.scopes.javaNameOf) := by
  have hresult := (gives_lower e σ rfl rfl).1
  rw [hresult, ← e.shallow_atLevelViolations limit σ.depth]
  refine accept_shallow fun fault hfault => Fault.isDeep_eq_false fun n => h fault n ?_
  rw [hresult, hfault]

theorem uses_of_lower {σ : LowerState limit} {e : Expr} {code : Java.Expr}
    (h : (outcome e.lower σ).1 = .ok code) (lib : Java.Library) :
    lib ∈ (outcome e.lower σ).2.uses ↔ lib ∈ e.uses ∨ lib ∈ σ.uses := by
  obtain ⟨hresult, hafter⟩ := gives_lower e σ rfl rfl
  cases hfaults : e.violations limit σ.scopes.isBound σ.depth with
  | nil => exact (hafter hfaults).2.2 lib
  | cons fault rest =>
    rw [hfaults, h] at hresult
    cases hresult

/-- In every state, an expression and the same with selections that select nothing around any of its
parts are lowered to the same code, with the same library classes in use then, or fail with the same
fault, as long as neither goes too deep. -/
theorem lower_wraps (σ : LowerState limit) {e e' : Expr} (hwraps : Wraps e e')
    (h : ∀ fault n, (outcome e.lower σ).1 = .error fault → fault.cause ≠ .tooDeep n)
    (h' : ∀ fault n, (outcome e'.lower σ).1 = .error fault → fault.cause ≠ .tooDeep n) :
    (∃ code, (outcome e.lower σ).1 = .ok code ∧ (outcome e'.lower σ).1 = .ok code ∧
        ∀ lib, lib ∈ (outcome e.lower σ).2.uses ↔ lib ∈ (outcome e'.lower σ).2.uses) ∨
      ∃ fault, (outcome e.lower σ).1 = .error fault ∧ (outcome e'.lower σ).1 = .error fault := by
  have hsame : (outcome e'.lower σ).1 = (outcome e.lower σ).1 := by
    rw [lower_of_shallow h, lower_of_shallow h', hwraps.emit_eq,
      hwraps.shallow_nodeViolations_eq limit _ _ (σ.depth + 1)]
  cases hresult : (outcome e.lower σ).1 with
  | error fault => exact .inr ⟨fault, rfl, hsame.trans hresult⟩
  | ok code =>
    refine .inl ⟨code, rfl, hsame.trans hresult, fun lib => ?_⟩
    rw [uses_of_lower hresult, uses_of_lower (hsame.trans hresult), hwraps.uses_eq]

/-- A sum of an image and a number with and without wrappers, also around the image that it is
written into. -/
theorem wrapped_sum_lowered :
    let im : Expr := .ident "im" .image .zero
    let one : Expr := .num "1" .zero
    let wrap (e : Expr) : Expr := .select e none e.type .zero
    let e : Expr := .binary im .plus one .image .zero
    let e' : Expr := wrap (.binary (wrap (wrap im)) .plus (wrap one) .image .zero)
    let σ : LowerState 9 := (outcome (Step.declare "im" .image .zero).run .start).2
    Wraps e e' ∧ ∃ code, (outcome e.lower σ).1 = .ok code ∧ (outcome e'.lower σ).1 = .ok code ∧
      ∀ lib, lib ∈ (outcome e.lower σ).2.uses ↔ lib ∈ (outcome e'.lower σ).2.uses := by
  intro im one wrap e e' σ
  have hwraps : Wraps e e' :=
    .wrap _ (.binary _ _ _ (.wrap _ (.wrap _ (.refl im))) (.wrap _ (.refl one)))
  have hok : (outcome e.lower σ).1 = .ok (e.emit σ.scopes.javaNameOf) :=
    lower_of_clean (by decide +kernel)
  have hok' : (outcome e'.lower σ).1 = .ok (e'.emit σ.scopes.javaNameOf) :=
    lower_of_clean (by decide +kernel)
  have hlowered := lower_wraps σ hwraps (fun fault n h => by cases hok.symm.trans h)
    (fun fault n h => by cases hok'.symm.trans h)
  rcases hlowered with hcode | ⟨fault, hfault, -⟩
  · exact ⟨hwraps, hcode⟩
  · cases hok.symm.trans hfault

end PixelJava
