/-
How steps of lowering are carried out: what a step comes to and the state after it, for each way of
putting steps together. The log plays no part. Later proofs open a step by these equations only.
-/
import PixelJava.Lowering.Program

namespace PixelJava.LowerM

variable {limit : UInt64} {α β : Type}

/-! ## Putting steps together -/

/-- Goes on after a step that has not failed. -/
def andThen (r : Except Fault α × LowerState limit)
    (next : α → LowerState limit → Except Fault β × LowerState limit) :
    Except Fault β × LowerState limit :=
  match r with
  | (.ok a, σ) => next a σ
  | (.error fault, σ) => (.error fault, σ)

@[simp] theorem andThen_ok (a : α) (σ : LowerState limit)
    (next : α → LowerState limit → Except Fault β × LowerState limit) :
    andThen (.ok a, σ) next = next a σ := rfl

@[simp] theorem andThen_error (fault : Fault) (σ : LowerState limit)
    (next : α → LowerState limit → Except Fault β × LowerState limit) :
    andThen (.error fault, σ) next = (.error fault, σ) := rfl

@[simp] theorem outcome_pure (a : α) (σ : LowerState limit) :
    outcome (pure a) σ = (.ok a, σ) := rfl

@[simp] theorem outcome_throw (fault : Fault) (σ : LowerState limit) :
    outcome (throw fault : LowerM limit α) σ = (.error fault, σ) := rfl

/-- A step that fails leaves out what follows, in the state that it failed in. -/
@[simp] theorem outcome_bind (x : LowerM limit α) (f : α → LowerM limit β) (σ : LowerState limit) :
    outcome (x >>= f) σ = andThen (outcome x σ) fun a => outcome (f a) := by
  unfold outcome andThen ExceptT.run StateT.run
  simp only [bind, ExceptT.bind, ExceptT.mk, StateT.bind, ExceptT.bindCont]
  rcases x σ with ⟨⟨result | result, τ⟩, log⟩ <;> rfl

/-- Steps put together have not failed just if the first has not failed and the second has not, in
the state that the first has left. -/
theorem outcome_bind_eq_ok {x : LowerM limit α} {f : α → LowerM limit β} {σ τ : LowerState limit}
    {b : β} (h : outcome (x >>= f) σ = (.ok b, τ)) :
    ∃ a υ, outcome x σ = (.ok a, υ) ∧ outcome (f a) υ = (.ok b, τ) := by
  rw [outcome_bind] at h
  rcases ho : outcome x σ with ⟨result, υ⟩
  rw [ho] at h
  cases result with
  | error fault => cases h
  | ok a => exact ⟨a, υ, rfl, h⟩

@[simp] theorem outcome_map (f : α → β) (x : LowerM limit α) (σ : LowerState limit) :
    outcome (f <$> x) σ = andThen (outcome x σ) fun a σ => (.ok (f a), σ) := by
  unfold outcome andThen ExceptT.run StateT.run
  simp only [Functor.map, ExceptT.map, ExceptT.mk, bind, StateT.bind]
  rcases x σ with ⟨⟨result | result, τ⟩, log⟩ <;> rfl

@[simp] theorem outcome_get (σ : LowerState limit) : outcome get σ = (.ok σ, σ) := rfl

@[simp] theorem outcome_set (τ σ : LowerState limit) : outcome (set τ) σ = (.ok ⟨⟩, τ) := rfl

@[simp] theorem outcome_modify (f : LowerState limit → LowerState limit) (σ : LowerState limit) :
    outcome (modify f) σ = (.ok ⟨⟩, f σ) := rfl

@[simp] theorem outcome_ofExcept (x : Except Fault α) (σ : LowerState limit) :
    outcome (MonadExcept.ofExcept x) σ = (x, σ) := by
  cases x <;> rfl

theorem outcome_tryCatch (x : LowerM limit α) (handle : Fault → LowerM limit α)
    (σ : LowerState limit) :
    outcome (tryCatch x handle) σ =
      match outcome x σ with
      | (.ok a, τ) => (.ok a, τ)
      | (.error fault, τ) => outcome (handle fault) τ := by
  unfold outcome ExceptT.run StateT.run
  simp only [tryCatch, tryCatchThe, MonadExceptOf.tryCatch, ExceptT.tryCatch, ExceptT.mk, bind,
    StateT.bind]
  rcases x σ with ⟨⟨result | result, τ⟩, log⟩ <;> rfl

/-- Observing a step turns its fault into a value and keeps what it did to the state. -/
@[simp] theorem outcome_observing (x : LowerM limit α) (σ : LowerState limit) :
    outcome (observing x) σ = (.ok (outcome x σ).1, (outcome x σ).2) := by
  unfold observing
  rw [outcome_tryCatch, outcome_bind]
  rcases outcome x σ with ⟨result | result, τ⟩ <;> rfl

/-! ## The steps that lowering is made of -/

/-- Notes leave the state alone. -/
@[simp] theorem outcome_note (level : LogLevel) (message : String) (σ : LowerState limit) :
    outcome (note level message) σ = (.ok (), σ) := rfl

@[simp] theorem outcome_scopes (σ : LowerState limit) : outcome scopes σ = (.ok σ.scopes, σ) := rfl

@[simp] theorem outcome_use (libs : List Java.Library) (σ : LowerState limit) :
    outcome (use libs) σ = (.ok (), σ.withUses libs) := rfl

/-- Names are looked up in the scopes that the step starts in. -/
@[simp] theorem outcome_resolve (name : String) (span : Span) (σ : LowerState limit) :
    outcome (resolve name span) σ = (σ.scopes.resolve name span, σ) := by
  simp [resolve]

/-- The body of a nested step runs one level deeper; then the level is as before. -/
theorem outcome_nested (start : Position) (body : LowerM limit α) (σ : LowerState limit) :
    outcome (nested start body) σ =
      match σ.deeper? with
      | none => (.error ⟨.tooDeep limit, start⟩, σ)
      | some inner => ((outcome body inner).1, (outcome body inner).2.shallower) := by
  unfold nested
  rw [outcome_bind, outcome_get, andThen_ok]
  cases σ.deeper? with
  | none => rfl
  | some inner => simp

/-- The body of a step in a scope of its own runs in a new frame; then the innermost frame is
closed. -/
theorem outcome_inScope (body : LowerM limit α) (σ : LowerState limit) :
    outcome (inScope body) σ =
      let r := outcome body (σ.withScopes σ.scopes.enter)
      (r.1, r.2.withScopes r.2.scopes.exit) := by
  simp [inScope, enterScope, exitScope]

/-- A declaration changes the scopes if the name can be declared, and nothing otherwise. -/
theorem outcome_declare (name : String) (type : Ty) (span : Span) (σ : LowerState limit) :
    outcome (declare name type span) σ =
      match σ.scopes.declare name type span with
      | .ok (javaName, scopes) => (.ok javaName, σ.withScopes scopes)
      | .error fault => (.error fault, σ) := by
  unfold declare
  cases h : σ.scopes.declare name type span with
  | error fault => simp [h]
  | ok r =>
    obtain ⟨javaName, scopes⟩ := r
    by_cases hopen : σ.scopes.frames = [] <;> by_cases hname : javaName = name <;>
      simp [h, hopen, hname]

end PixelJava.LowerM
