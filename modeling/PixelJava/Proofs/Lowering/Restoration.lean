/-
What lowering does to the state it carries along, whether it fails or not. An expression leaves
everything but the library classes in use as it was. A block opens a frame and closes it again, at
whichever statement it may fail, so the open frames and the nesting are as before. Only a declaration
changes the innermost frame, and only if it succeeds. The table of declarations and the classes in
use never shrink, and a counter advances by the redeclarations that were made.
-/
import PixelJava.Proofs.Lowering.Outcome
import PixelJava.Proofs.Scope.Invariant
import PixelJava.Session

namespace PixelJava

open LowerM

variable {limit : UInt64} {α β : Type}

/-! ## Relations between states -/

namespace LowerState

/-- Nothing is lost from `σ` to `τ`, and the nesting is the same. -/
structure Grows (σ τ : LowerState limit) : Prop where
  depth : τ.depth = σ.depth
  declared : σ.scopes.declared <+: τ.scopes.declared
  counter : ∀ name, τ.scopes.counter name = σ.scopes.counter name +
    UInt32.ofNat (τ.scopes.redeclared name - σ.scopes.redeclared name)
  uses : σ.uses ⊆ τ.uses

/-- Besides, the same frames are open and hold the same bindings. -/
structure Restores (σ τ : LowerState limit) : Prop extends Grows σ τ where
  frames : τ.scopes.frames = σ.scopes.frames

/-- Besides, the frames around the innermost one are the same. -/
structure Inside (σ τ : LowerState limit) : Prop extends Grows σ τ where
  frames : σ.scopes.frames ≠ [] →
    τ.scopes.frames ≠ [] ∧ τ.scopes.frames.tail = σ.scopes.frames.tail

/-- Everything but the library classes in use is the same. -/
structure Keeps (σ τ : LowerState limit) : Prop where
  depth : τ.depth = σ.depth
  scopes : τ.scopes = σ.scopes
  uses : σ.uses ⊆ τ.uses

theorem Grows.refl (σ : LowerState limit) : Grows σ σ :=
  ⟨rfl, List.prefix_refl _, fun _ => by simp, fun _ h => h⟩

/-- Counters advance by the declarations of both steps. -/
theorem Grows.trans {σ τ υ : LowerState limit} (h : Grows σ τ) (h' : Grows τ υ) : Grows σ υ := by
  refine ⟨h'.depth.trans h.depth, h.declared.trans h'.declared, fun name => ?_,
    fun _ hl => h'.uses (h.uses hl)⟩
  rw [h'.counter, h.counter, UInt32.add_assoc, ← UInt32.ofNat_add,
    Scopes.redeclared_sub_add h.declared h'.declared]

theorem Restores.refl (σ : LowerState limit) : Restores σ σ :=
  ⟨Grows.refl σ, rfl⟩

/-- Restoring twice restores. -/
theorem Restores.trans {σ τ υ : LowerState limit} (h : Restores σ τ) (h' : Restores τ υ) :
    Restores σ υ :=
  ⟨h.toGrows.trans h'.toGrows, h'.frames.trans h.frames⟩

theorem Inside.trans {σ τ υ : LowerState limit} (h : Inside σ τ) (h' : Inside τ υ) :
    Inside σ υ := by
  refine ⟨h.toGrows.trans h'.toGrows, fun hne => ?_⟩
  obtain ⟨hτ, htail⟩ := h.frames hne
  obtain ⟨hυ, htail'⟩ := h'.frames hτ
  exact ⟨hυ, htail'.trans htail⟩

theorem Restores.inside {σ τ : LowerState limit} (h : Restores σ τ) : Inside σ τ :=
  ⟨h.toGrows, fun hne => by rw [h.frames]; exact ⟨hne, rfl⟩⟩

theorem Keeps.refl (σ : LowerState limit) : Keeps σ σ :=
  ⟨rfl, rfl, fun _ h => h⟩

theorem Keeps.trans {σ τ υ : LowerState limit} (h : Keeps σ τ) (h' : Keeps τ υ) : Keeps σ υ :=
  ⟨h'.depth.trans h.depth, h'.scopes.trans h.scopes, fun _ hl => h'.uses (h.uses hl)⟩

/-- Where the scopes are kept, they are restored. -/
theorem Keeps.restores {σ τ : LowerState limit} (h : Keeps σ τ) : Restores σ τ := by
  refine ⟨⟨h.depth, ?_, fun name => ?_, h.uses⟩, by rw [h.scopes]⟩
  · exact h.scopes ▸ List.prefix_refl _
  · simp [h.scopes]

/-- Going deeper is possible below the limit, and only changes the depth. -/
theorem deeper?_eq_some {σ τ : LowerState limit} (h : σ.deeper? = some τ) :
    σ.depth < limit.toNat ∧ τ.depth = σ.depth + 1 ∧ τ.scopes = σ.scopes ∧ τ.uses = σ.uses := by
  unfold deeper? at h
  split at h
  · rename_i hlt; cases h; exact ⟨hlt, rfl, rfl, rfl⟩
  · cases h

theorem Keeps.shallower {σ inner τ : LowerState limit} (hd : σ.deeper? = some inner)
    (h : Keeps inner τ) : Keeps σ τ.shallower := by
  obtain ⟨-, hdepth, hscopes, huses⟩ := deeper?_eq_some hd
  refine ⟨?_, h.scopes.trans hscopes, huses ▸ h.uses⟩
  show τ.depth - 1 = σ.depth
  rw [h.depth, hdepth]; rfl

/-- Scopes that are restored on one level are restored on the level above. -/
theorem Restores.shallower {σ inner τ : LowerState limit} (hd : σ.deeper? = some inner)
    (h : Restores inner τ) : Restores σ τ.shallower := by
  obtain ⟨-, hdepth, hscopes, huses⟩ := deeper?_eq_some hd
  refine ⟨⟨?_, hscopes ▸ h.declared, hscopes ▸ h.counter, huses ▸ h.uses⟩, hscopes ▸ h.frames⟩
  show τ.depth - 1 = σ.depth
  rw [h.depth, hdepth]; rfl

end LowerState

open LowerState

namespace LowerM

/-! ## Steps that keep to a relation -/

/-- Whether it fails or not, `x` only leads to states in the relation `R`. -/
def Always (R : LowerState limit → LowerState limit → Prop) (x : LowerM limit α) : Prop :=
  ∀ σ, R σ (outcome x σ).2

theorem Always.mono {R S : LowerState limit → LowerState limit → Prop} {x : LowerM limit α}
    (h : ∀ {σ τ}, R σ τ → S σ τ) (hx : Always R x) : Always S x :=
  fun σ => h (hx σ)

/-- Relations that compose hold of a sequence of steps if they hold of each. -/
theorem Always.bind {R : LowerState limit → LowerState limit → Prop} {x : LowerM limit α}
    {f : α → LowerM limit β} (trans : ∀ {σ τ υ}, R σ τ → R τ υ → R σ υ) (hx : Always R x)
    (hf : ∀ a, Always R (f a)) : Always R (x >>= f) := by
  intro σ
  have h := hx σ
  rw [outcome_bind]
  rcases hr : outcome x σ with ⟨result, τ⟩
  rw [hr] at h
  cases result with
  | error fault => exact h
  | ok a => exact trans h (hf a τ)

theorem keeps_bind {x : LowerM limit α} {f : α → LowerM limit β} (hx : Always Keeps x)
    (hf : ∀ a, Always Keeps (f a)) : Always Keeps (x >>= f) :=
  .bind Keeps.trans hx hf

theorem restores_bind {x : LowerM limit α} {f : α → LowerM limit β} (hx : Always Restores x)
    (hf : ∀ a, Always Restores (f a)) : Always Restores (x >>= f) :=
  .bind Restores.trans hx hf

theorem keeps_map {x : LowerM limit α} (f : α → β) (hx : Always Keeps x) :
    Always Keeps (f <$> x) := by
  intro σ
  have h := hx σ
  rw [outcome_map]
  rcases hr : outcome x σ with ⟨result, τ⟩
  rw [hr] at h
  cases result <;> exact h

theorem keeps_pure (a : α) : Always Keeps (pure a : LowerM limit α) :=
  fun σ => .refl σ

theorem keeps_throw (fault : Fault) : Always Keeps (throw fault : LowerM limit α) :=
  fun σ => .refl σ

theorem keeps_note (level : LogLevel) (message : String) :
    Always Keeps (note level message : LowerM limit Unit) :=
  fun σ => .refl σ

theorem keeps_scopes : Always Keeps (scopes : LowerM limit Scopes) :=
  fun σ => .refl σ

theorem keeps_ofExcept (x : Except Fault α) :
    Always Keeps (MonadExcept.ofExcept x : LowerM limit α) := by
  intro σ; rw [outcome_ofExcept]; exact .refl σ

theorem keeps_resolve (name : String) (span : Span) :
    Always Keeps (resolve name span : LowerM limit Binding) := by
  intro σ; rw [outcome_resolve]; exact .refl σ

theorem keeps_use (libs : List Java.Library) : Always Keeps (use libs : LowerM limit Unit) :=
  fun _ => ⟨rfl, rfl, fun _ h => List.mem_append_right libs h⟩

/-- A nested step that fails at the limit changes nothing; one that runs comes back up. -/
theorem Always.nested {R : LowerState limit → LowerState limit → Prop} (start : Position)
    {body : LowerM limit α} (refl : ∀ σ, R σ σ)
    (up : ∀ {σ inner τ}, σ.deeper? = some inner → R inner τ → R σ τ.shallower)
    (h : Always R body) : Always R (nested start body) := by
  intro σ
  rw [outcome_nested]
  cases hd : σ.deeper? with
  | none => exact refl σ
  | some inner => exact up hd (h inner)

/-- A frame that is opened and closed around `body` takes with it what `body` declares. -/
theorem restores_inScope {body : LowerM limit α} (h : Always Inside body) :
    Always Restores (inScope body) := by
  intro σ
  rw [outcome_inScope]
  have hb := h (σ.withScopes σ.scopes.enter)
  obtain ⟨-, htail⟩ := hb.frames (List.cons_ne_nil _ _)
  exact ⟨⟨hb.depth, hb.declared, hb.counter, hb.uses⟩, htail⟩

/-- What is no name is not declared, and the state stays. -/
theorem outcome_declare_error {σ : LowerState limit} {name : String} {type : Ty} {span : Span}
    (h : Java.isSourceName name = false) :
    outcome (declare name type span) σ = (.error ⟨.invalidName name, span.start⟩, σ) := by
  simp [outcome_declare, Scopes.declare, h]

/-- A name is declared under the next name that the scopes have for it. -/
theorem outcome_declare_ok {σ : LowerState limit} {name : String} {type : Ty} {span : Span}
    (h : Java.isSourceName name = true) :
    outcome (declare name type span) σ =
      (.ok (σ.scopes.nextName name), σ.withScopes (σ.scopes.add name type span).2) := by
  simp [outcome_declare, Scopes.declare, h]

theorem keeps_mapM (o : Option α) {f : α → LowerM limit β} (hf : ∀ a, Always Keeps (f a)) :
    Always Keeps (o.mapM f) := by
  cases o with
  | none => exact keeps_pure none
  | some a => exact keeps_map some (hf a)

end LowerM

/-! ## Expressions -/

theorem keeps_atLevel (e : Expr) {body : LowerM limit Java.Expr} (h : Always Keeps body) :
    Always Keeps (e.atLevel body) :=
  .nested _ Keeps.refl Keeps.shallower (keeps_bind (keeps_note _ _) fun _ => h)

/-- Lowering a node declares nothing. -/
theorem keeps_lowerNode (e : Expr) : Always Keeps (e.lowerNode : LowerM limit Java.Expr) := by
  induction e with
  | ident name type span => exact keeps_bind (keeps_resolve _ _) fun _ => keeps_pure _
  | num | str | bool => exact keeps_pure _
  | const name type span =>
    unfold Expr.lowerNode
    split
    · exact keeps_pure _
    · exact keeps_throw _
  | cond guard whenTrue whenFalse type span ihg iht ihf =>
    exact keeps_bind (keeps_atLevel guard ihg) fun _ =>
      keeps_bind (keeps_atLevel whenTrue iht) fun _ =>
        keeps_bind (keeps_atLevel whenFalse ihf) fun _ => keeps_pure _
  | binary left op right type span ihl ihr =>
    unfold Expr.lowerNode
    split
    · exact keeps_throw _
    · exact keeps_bind (keeps_atLevel left ihl) fun _ =>
        keeps_bind (keeps_atLevel right ihr) fun _ =>
          keeps_bind keeps_scopes fun _ => keeps_bind (keeps_ofExcept _) fun _ =>
            keeps_bind (keeps_use _) fun _ => keeps_pure _
  | unary op operand type span ih =>
    unfold Expr.lowerNode
    split
    · exact keeps_bind (keeps_atLevel operand ih) fun _ => keeps_pure _
    · exact keeps_throw _
  | select primary channel type span ih =>
    unfold Expr.lowerNode
    split
    · exact keeps_atLevel primary ih
    · exact keeps_bind (keeps_atLevel primary ih) fun _ =>
        keeps_bind (keeps_use _) fun _ => keeps_pure _
    · exact keeps_bind (keeps_atLevel primary ih) fun _ =>
        keeps_bind (keeps_use _) fun _ => keeps_pure _
    · exact keeps_throw _
  | selectAt primary x y place channel type span ih ihx ihy =>
    unfold Expr.lowerNode
    split
    · refine keeps_bind (keeps_atLevel primary ih) fun _ =>
        keeps_bind (keeps_atLevel x ihx) fun _ =>
          keeps_bind (keeps_atLevel y ihy) fun _ => keeps_bind (keeps_use _) fun _ => ?_
      split
      · exact keeps_pure _
      · exact keeps_bind (keeps_use _) fun _ => keeps_pure _
    · exact keeps_throw _
  | pixel red green blue span ihr ihg ihb =>
    exact keeps_bind (keeps_atLevel red ihr) fun _ =>
      keeps_bind (keeps_atLevel green ihg) fun _ =>
        keeps_bind (keeps_atLevel blue ihb) fun _ =>
          keeps_bind (keeps_use _) fun _ => keeps_pure _

/-- Lowering an expression declares nothing. -/
theorem keeps_lower (e : Expr) : Always Keeps (e.lower : LowerM limit Java.Expr) :=
  keeps_atLevel e (keeps_lowerNode e)

/-! ## Statements -/

/-- The open frames after a statement: a declaration that succeeds binds its name in the innermost
frame, which it opens if there is none, and nothing else changes them. -/
def Stmt.framesAfter (s : Stmt) (succeeded : Bool) (scopes : Scopes) : List Frame :=
  match s, succeeded with
  | .declare defined _ _, true =>
    Scopes.push (defined.name, scopes.nextBinding defined.name defined.type) scopes.frames
  | _, _ => scopes.frames

/-- Whether it fails or not, `x` does to the state what the statement `s` may do to it. -/
def Acts (s : Stmt) (x : LowerM limit α) : Prop :=
  ∀ σ, Grows σ (outcome x σ).2 ∧
    (outcome x σ).2.scopes.frames = s.framesAfter (outcome x σ).1.isOk σ.scopes

/-- A statement that fails leaves the frames as they were. -/
theorem Stmt.framesAfter_failed (s : Stmt) (scopes : Scopes) :
    s.framesAfter false scopes = scopes.frames := by
  cases s <;> rfl

/-- A statement leaves the frames around the innermost one as they were. -/
theorem Stmt.framesAfter_tail (s : Stmt) (succeeded : Bool) {scopes : Scopes}
    (hne : scopes.frames ≠ []) :
    s.framesAfter succeeded scopes ≠ [] ∧
      (s.framesAfter succeeded scopes).tail = scopes.frames.tail := by
  unfold Stmt.framesAfter
  split
  · cases hl : scopes.frames with
    | nil => exact absurd hl hne
    | cons frame rest => exact ⟨List.cons_ne_nil _ _, rfl⟩
  · exact ⟨hne, rfl⟩

/-- Steps before a statement that declare nothing do not change what it does to the frames. -/
theorem acts_bind {s : Stmt} {x : LowerM limit α} {f : α → LowerM limit β} (hx : Always Keeps x)
    (hf : ∀ a, Acts s (f a)) : Acts s (x >>= f) := by
  intro σ
  have h := hx σ
  rw [outcome_bind]
  rcases hr : outcome x σ with ⟨result, τ⟩
  rw [hr] at h
  cases result with
  | error fault => exact ⟨h.restores.toGrows, h.restores.frames.trans (s.framesAfter_failed _).symm⟩
  | ok a =>
    obtain ⟨hg, hframes⟩ := hf a τ
    rw [h.scopes] at hframes
    exact ⟨h.restores.toGrows.trans hg, hframes⟩

/-- A step that restores the frames acts as any statement that is no declaration. -/
theorem acts_of_restores {s : Stmt} {x : LowerM limit α}
    (hs : ∀ succeeded scopes, s.framesAfter succeeded scopes = scopes.frames)
    (hx : Always Restores x) : Acts s x :=
  fun σ => ⟨(hx σ).toGrows, (hx σ).frames.trans (hs _ _).symm⟩

/-- A statement only touches the innermost frame. -/
theorem acts_inside {s : Stmt} {x : LowerM limit α} (h : Acts s x) : Always Inside x := by
  intro σ
  obtain ⟨hg, hframes⟩ := h σ
  refine ⟨hg, fun hne => ?_⟩
  rw [hframes]
  exact s.framesAfter_tail _ hne

/-- A declaration adds one entry to the table and advances at most one counter. -/
theorem grows_add (σ : LowerState limit) (name : String) (type : Ty) (span : Span) :
    Grows σ (σ.withScopes (σ.scopes.add name type span).2) := by
  exact ⟨rfl, Scopes.prefix_add σ.scopes name type span,
    fun other => Scopes.counter_add_eq σ.scopes name other type span, fun _ h => h⟩

/-- Only the last step of a declaration binds its name; it fails before it changes anything. -/
theorem acts_lowerDeclaration (defined : NameDef) (initializer : Option Expr) (span : Span) :
    Acts (.declare defined initializer span)
      (lowerDeclaration defined initializer : LowerM limit Java.Stmt) := by
  refine acts_bind (keeps_mapM _ fun e => keeps_bind (keeps_lower e) fun _ => keeps_pure _) fun value => ?_
  refine acts_bind (keeps_mapM _ fun d => keeps_bind (keeps_lower d.width) fun _ =>
    keeps_bind (keeps_lower d.height) fun _ => keeps_pure _) fun size => ?_
  refine acts_bind (keeps_use _) fun _ => ?_
  -- up to here nothing but the classes in use has changed
  intro σ
  rw [outcome_bind]
  cases hs : Java.isSourceName defined.name with
  | false => rw [outcome_declare_error hs]; exact ⟨.refl σ, rfl⟩
  | true =>
    rw [outcome_declare_ok hs, andThen_ok]
    have hg := grows_add σ defined.name defined.type defined.span
    exact ⟨hg.trans (keeps_use _ _).restores.toGrows, Scopes.frames_add ..⟩

theorem keeps_lowerPartAssignment (target : Target) (type : Ty) (name : String) (value : Expr) :
    Always Keeps (lowerPartAssignment target type name value : LowerM limit Java.Stmt) := by
  unfold lowerPartAssignment
  split
  · exact keeps_bind (keeps_lower _) fun _ => keeps_bind (keeps_use _) fun _ => keeps_pure _
  · exact keeps_bind (keeps_lower _) fun _ => keeps_bind (keeps_lower _) fun _ =>
      keeps_bind (keeps_lower _) fun _ => keeps_bind (keeps_use _) fun _ => keeps_pure _
  · exact keeps_bind (keeps_lower _) fun _ => keeps_bind (keeps_lower _) fun _ =>
      keeps_bind (keeps_lower _) fun _ => keeps_bind (keeps_use _) fun _ => keeps_pure _
  · exact keeps_throw _
  · exact keeps_throw _

theorem keeps_lowerAssignment (target : Target) (value : Expr) :
    Always Keeps (lowerAssignment target value : LowerM limit Java.Stmt) := by
  refine keeps_bind (keeps_resolve _ _) fun binding => ?_
  split
  · exact keeps_lowerPartAssignment _ _ _ _
  · exact keeps_bind (keeps_lower _) fun _ => keeps_bind keeps_scopes fun _ =>
      keeps_bind (keeps_ofExcept _) fun _ => keeps_pure _

/-! ## Blocks -/

theorem restores_of_keeps {x : LowerM limit α} (h : Always Keeps x) : Always Restores x :=
  h.mono Keeps.restores

mutual

/-- What a statement does to the frames, whether it fails or not: the induction is on the statement,
with blocks restoring what they open. -/
theorem acts_lower : ∀ s : Stmt, Acts s (s.lower : LowerM limit Java.Stmt)
  | .declare defined initializer span => by
    rw [Stmt.lower]
    exact acts_bind (keeps_note _ _) fun _ => acts_lowerDeclaration defined initializer span
  | .assign target value span => by
    rw [Stmt.lower]
    refine acts_of_restores (fun _ _ => rfl) (restores_of_keeps ?_)
    exact keeps_bind (keeps_note _ _) fun _ => keeps_lowerAssignment target value
  | .write value span => by
    rw [Stmt.lower]
    refine acts_of_restores (fun _ _ => rfl) (restores_of_keeps ?_)
    exact keeps_bind (keeps_note _ _) fun _ => keeps_bind (keeps_lower value) fun _ =>
      keeps_bind (keeps_use _) fun _ => keeps_pure _
  | .loop branches span => by
    rw [Stmt.lower]
    refine acts_of_restores (fun _ _ => rfl) (restores_bind (restores_lowerBranches branches) ?_)
    intro lowered
    -- the guard that ends the loop is an expression and keeps the frames
    refine restores_of_keeps ?_
    split
    · exact keeps_pure _
    · exact keeps_bind (keeps_lower _) fun _ => keeps_pure _
  | .choose branches span => by
    rw [Stmt.lower]
    exact acts_of_restores (fun _ _ => rfl) (restores_bind (restores_lowerBranches branches)
      fun _ => restores_of_keeps (keeps_pure _))
  | .ret value span => by
    rw [Stmt.lower]
    refine acts_of_restores (fun _ _ => rfl) (restores_of_keeps ?_)
    exact keeps_bind (keeps_note _ _) fun _ => keeps_bind (keeps_lower value) fun _ => keeps_pure _
  | .block block => by
    rw [Stmt.lower]
    exact acts_of_restores (fun _ _ => rfl) (restores_bind (restores_lowerBlock block)
      fun _ => restores_of_keeps (keeps_pure _))

/-- A block restores the scopes around it, whether it fails or not. -/
theorem restores_lowerBlock : ∀ block : Block,
    Always Restores (block.lower : LowerM limit (List Java.Stmt))
  | .mk body span => by
    rw [Block.lower]
    exact .nested _ Restores.refl Restores.shallower (restores_inScope (inside_lowerBody body))

/-- A body only touches the innermost frame. -/
theorem inside_lowerBody : ∀ body : List Stmt,
    Always Inside (lowerBody body : LowerM limit (List Java.Stmt))
  | [] => by
    rw [lowerBody]
    exact (restores_of_keeps (keeps_pure _)).mono Restores.inside
  | stmt :: rest => by
    rw [lowerBody]
    exact .bind Inside.trans (acts_inside (acts_lower stmt)) fun _ =>
      .bind Inside.trans (inside_lowerBody rest) fun _ =>
        (restores_of_keeps (keeps_pure _)).mono Restores.inside

theorem restores_lowerBranches : ∀ branches : List Branch,
    Always Restores (lowerBranches branches : LowerM limit (List Java.Branch))
  | [] => by
    rw [lowerBranches]
    exact restores_of_keeps (keeps_pure _)
  | .mk guard block span :: rest => by
    rw [lowerBranches]
    exact restores_bind (restores_of_keeps (keeps_lower guard)) fun _ =>
      restores_bind (restores_lowerBlock block) fun _ =>
        restores_bind (restores_lowerBranches rest) fun _ => restores_of_keeps (keeps_pure _)

end

theorem restores_lowerHere (block : Block) :
    Always Restores (block.lowerHere : LowerM limit (List Java.Stmt)) :=
  restores_inScope (inside_lowerBody block.body)

/-! ## Steps of a session -/

theorem grows_of_keeps {x : LowerM limit α} (h : Always Keeps x) : Always Grows x :=
  h.mono fun hk => hk.restores.toGrows

theorem grows_bind_pure {x : LowerM limit α} (f : α → β) (h : Always Grows x) :
    Always Grows (do return f (← x)) :=
  .bind Grows.trans h fun _ => grows_of_keeps (keeps_pure _)

theorem grows_declare (name : String) (type : Ty) (span : Span) :
    Always Grows (declare name type span : LowerM limit String) := by
  intro σ
  cases hs : Java.isSourceName name with
  | false => rw [outcome_declare_error hs]; exact .refl σ
  | true => rw [outcome_declare_ok hs]; exact grows_add σ name type span

/-- Whatever step is taken, the table only grows. -/
theorem grows_run (step : Step) : Always Grows (step.run : LowerM limit Answer) := by
  cases step with
  | enter | exit =>
    refine fun σ => ⟨rfl, List.prefix_refl _, fun name => ?_, fun _ h => h⟩
    show σ.scopes.counter name = σ.scopes.counter name +
      UInt32.ofNat (σ.scopes.redeclared name - σ.scopes.redeclared name)
    simp
  | declare name type span => exact grows_bind_pure _ (grows_declare name type span)
  | resolve name span | javaName name span =>
    exact grows_bind_pure _ (grows_of_keeps (keeps_resolve name span))
  | isBound name => exact grows_bind_pure _ (grows_of_keeps keeps_scopes)
  | javaType type => exact grows_of_keeps (keeps_bind (keeps_use _) fun _ => keeps_pure _)
  | expr e => exact grows_bind_pure _ (grows_of_keeps (keeps_lower e))
  | node e => exact grows_bind_pure _ (grows_of_keeps (keeps_lowerNode e))
  | stmt s => exact grows_bind_pure _ fun σ => (acts_lower s σ).1
  | block b => exact grows_bind_pure _ fun σ => (restores_lowerBlock b σ).toGrows
  | body b => exact grows_bind_pure _ fun σ => (restores_lowerHere b σ).toGrows
  | inPlace left op right =>
    exact grows_of_keeps (keeps_bind keeps_scopes fun _ => keeps_bind (keeps_ofExcept _) fun _ =>
      keeps_pure _)
  | assignPart target type name value =>
    exact grows_bind_pure _ (grows_of_keeps (keeps_lowerPartAssignment target type name value))

end PixelJava
