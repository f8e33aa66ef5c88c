/-
What lowering comes to: the first violation of a tree or, if it has none, the code it becomes. The
violations and the code are read off the tree and the scopes; here each step of lowering is shown to
go along with them.
-/
import PixelJava.Proofs.Lowering.Emission
import PixelJava.Proofs.Lowering.Restoration

namespace PixelJava

open LowerM LowerState

variable {limit : UInt64} {α β : Type}

/-- The first of the faults or, if there are none, the value. -/
def accept (faults : List Fault) (value : α) : Except Fault α :=
  match faults with
  | [] => .ok value
  | fault :: _ => .error fault

/-- On every state of the given level and with the scopes `s`, the step comes to the first of the
faults. If there are none it comes to `a`, on the same level and with the scopes `t`, and has used
the classes `uses`. -/
def Gives (x : LowerM limit α) (level : Nat) (s : Scopes) (faults : List Fault) (a : α) (t : Scopes)
    (uses : List Java.Library) : Prop :=
  ∀ σ : LowerState limit, σ.depth = level → σ.scopes = s →
    (outcome x σ).1 = accept faults a ∧
      (faults = [] → (outcome x σ).2.depth = level ∧ (outcome x σ).2.scopes = t ∧
        ∀ lib, lib ∈ (outcome x σ).2.uses ↔ lib ∈ uses ∨ lib ∈ σ.uses)

namespace Gives

variable {x : LowerM limit α} {f : α → LowerM limit β} {level : Nat} {s t u : Scopes}
  {v w : List Fault} {a : α} {b : β} {libs libs' : List Java.Library}

/-! ## Putting steps together -/

theorem pure (a : α) : Gives (Pure.pure a : LowerM limit α) level s [] a s [] :=
  fun σ hd hs => ⟨rfl, fun _ => ⟨hd, hs, fun lib => by simp⟩⟩

/-- A step that fails gives its fault, whatever would have followed. -/
theorem throw (fault : Fault) :
    Gives (MonadExcept.throw fault : LowerM limit α) level s (fault :: v) a t libs :=
  fun _ _ _ => ⟨rfl, fun h => nomatch h⟩

/-- The second step runs only if the first one has no faults. -/
theorem bind (hx : Gives x level s v a t libs)
    (hf : v = [] → Gives (f a) level t w b u libs') :
    Gives (x >>= f) level s (v ++ w) b u (libs ++ libs') := by
  intro σ hd hs
  obtain ⟨hr, hafter⟩ := hx σ hd hs
  rw [outcome_bind]
  rcases ho : outcome x σ with ⟨result, τ⟩
  rw [ho] at hr hafter
  cases v with
  | cons fault rest =>
    cases hr
    exact ⟨rfl, fun h => nomatch h⟩
  | nil =>
    cases hr
    obtain ⟨hdτ, hsτ, huses⟩ := hafter rfl
    obtain ⟨hr', hafter'⟩ := hf rfl τ hdτ hsτ
    refine ⟨hr', fun hw => ?_⟩
    obtain ⟨hdυ, hsυ, huses'⟩ := hafter' hw
    refine ⟨hdυ, hsυ, fun lib => ?_⟩
    rw [andThen_ok, huses', huses, List.mem_append, or_left_comm, or_assoc]

/-- A second step that has no faults adds none. -/
theorem bind_clean (hx : Gives x level s v a t libs)
    (hf : v = [] → Gives (f a) level t [] b u libs') :
    Gives (x >>= f) level s v b u (libs ++ libs') := by
  have h := hx.bind hf
  rwa [List.append_nil] at h

theorem bind_pure (g : α → β) (hx : Gives x level s v a t libs) :
    Gives (do return g (← x)) level s v (g a) t libs := by
  rw [← List.append_nil libs]
  exact hx.bind_clean fun _ => pure _

theorem map (g : α → β) (hx : Gives x level s v a t libs) :
    Gives (g <$> x) level s v (g a) t libs := by
  intro σ hd hs
  obtain ⟨hr, hafter⟩ := hx σ hd hs
  rw [outcome_map]
  rcases ho : outcome x σ with ⟨result, τ⟩
  rw [ho] at hr hafter
  cases v with
  | cons fault rest => cases hr; exact ⟨rfl, fun h => nomatch h⟩
  | nil => cases hr; exact ⟨rfl, hafter⟩

/-- Which classes are used counts, not how often or in which order. -/
theorem congr_uses (hx : Gives x level s v a t libs) (h : ∀ lib, lib ∈ libs ↔ lib ∈ libs') :
    Gives x level s v a t libs' := by
  intro σ hd hs
  obtain ⟨hr, hafter⟩ := hx σ hd hs
  refine ⟨hr, fun hv => ?_⟩
  obtain ⟨hdτ, hsτ, huses⟩ := hafter hv
  exact ⟨hdτ, hsτ, fun lib => by rw [huses, h]⟩

/-! ## The steps that lowering is made of -/

theorem note_bind {y : Unit → LowerM limit β} (kind : LogLevel) (message : String)
    (hy : Gives (y ()) level s w b u libs) :
    Gives (LowerM.note kind message >>= y) level s w b u libs := by
  intro σ hd hs
  rw [outcome_bind, outcome_note, andThen_ok]
  exact hy σ hd hs

theorem scopes_bind {y : Scopes → LowerM limit β} (hy : Gives (y s) level s w b u libs) :
    Gives (LowerM.scopes >>= y) level s w b u libs := by
  intro σ hd hs
  rw [outcome_bind, outcome_scopes, andThen_ok]
  exact hs.symm ▸ hy σ hd hs

theorem use (libs : List Java.Library) :
    Gives (LowerM.use libs : LowerM limit Unit) level s [] () s libs :=
  fun _ hd hs => ⟨rfl, fun _ => ⟨hd, hs, fun _ => List.mem_append⟩⟩

theorem ofExcept_ok (a : α) :
    Gives (MonadExcept.ofExcept (Except.ok a : Except Fault α) : LowerM limit α) level s [] a s [] :=
  pure a

/-- A look-up checks that the name stands for something. -/
theorem resolve_bind {k : Binding → LowerM limit β} {name : String} {span : Span}
    (hk : ∀ binding, s.find? name = some binding → Gives (k binding) level s w b u libs) :
    Gives (LowerM.resolve name span >>= k) level s
      (require (s.isBound name) (.unresolved name) span.start ++ w) b u libs := by
  intro σ hd hs
  rw [outcome_bind, outcome_resolve, hs]
  cases h : s.find? name with
  | none =>
    have hr : s.resolve name span = .error ⟨.unresolved name, span.start⟩ := by
      simp [Scopes.resolve, h]
    rw [hr, Scopes.isBound, h]
    exact ⟨rfl, fun h => nomatch h⟩
  | some binding =>
    have hr : s.resolve name span = .ok binding := by simp [Scopes.resolve, h]
    rw [hr, Scopes.isBound, h]
    exact hk binding h σ hd hs

/-- A step on the next level comes after the check of that level. -/
theorem nested {start : Position} (hx : Gives x (level + 1) s v a t libs) :
    Gives (LowerM.nested start x) level s (levelViolations limit (level + 1) start ++ v) a t
      libs := by
  intro σ hd hs
  rw [outcome_nested]
  unfold LowerState.deeper? levelViolations require
  by_cases h : σ.depth < limit.toNat
  · rw [dif_pos h, if_pos (decide_eq_true (hd ▸ h))]
    obtain ⟨hr, hafter⟩ := hx { σ with depth := σ.depth + 1, depth_le := h } (by rw [← hd]) hs
    refine ⟨hr, fun hv => ?_⟩
    obtain ⟨hdτ, hsτ, huses⟩ := hafter hv
    exact ⟨by show _ - 1 = level; rw [hdτ]; rfl, hsτ, huses⟩
  · rw [dif_neg h, if_neg (by rw [decide_eq_true_eq, ← hd]; exact h)]
    exact ⟨rfl, fun h => nomatch h⟩

/-- What is done in a scope is done in the entered scopes, which are left behind it. -/
theorem inScope (hx : Gives x level s.enter v a t libs) :
    Gives (LowerM.inScope x) level s v a t.exit libs := by
  intro σ hd hs
  rw [outcome_inScope]
  obtain ⟨hr, hafter⟩ := hx (σ.withScopes σ.scopes.enter) hd (congrArg Scopes.enter hs)
  refine ⟨hr, fun hv => ?_⟩
  obtain ⟨hdτ, hsτ, huses⟩ := hafter hv
  exact ⟨hdτ, congrArg Scopes.exit hsτ, huses⟩

theorem enterScope : Gives (LowerM.enterScope : LowerM limit Unit) level s [] () s.enter [] :=
  fun _ hd hs => ⟨rfl, fun _ => ⟨hd, congrArg Scopes.enter hs, fun _ => (or_iff_right (by simp)).symm⟩⟩

theorem exitScope : Gives (LowerM.exitScope : LowerM limit Unit) level s [] () s.exit [] :=
  fun _ hd hs => ⟨rfl, fun _ => ⟨hd, congrArg Scopes.exit hs, fun _ => (or_iff_right (by simp)).symm⟩⟩

/-- A declaration breaks one rule at most: what it declares has to be a name. -/
theorem declare (name : String) (type : Ty) (span : Span) :
    Gives (LowerM.declare name type span : LowerM limit String) level s
      (require (Java.isSourceName name) (.invalidName name) span.start) (s.nextName name)
      (s.add name type span).2 [] := by
  intro σ hd hs
  cases h : Java.isSourceName name with
  | false =>
    rw [outcome_declare_error h]
    exact ⟨rfl, fun h => nomatch h⟩
  | true =>
    rw [outcome_declare_ok h, hs]
    exact ⟨rfl, fun _ => ⟨hd, rfl, fun lib => by simp [LowerState.withScopes]⟩⟩

end Gives

/-! ## Expressions -/

section Expressions

variable {level : Nat} {s : Scopes}

/-- A variable that an expression without violations names is declared around it. -/
theorem isBound_of_named {bound : String → Bool} {e : Expr} {v : Variable} (hv : e.named? = some v) :
    ∀ {level}, e.nodeViolations limit bound level = [] → bound v.name = true := by
  induction e with
  | ident name type span =>
    intro level h
    cases hv
    cases hb : bound name with
    | true => rfl
    | false => simp [Expr.nodeViolations, require, hb] at h
  | select primary channel type span ih =>
    intro level h
    cases channel with
    | some c => cases hv
    | none =>
      simp only [Expr.nodeViolations, Expr.atLevelViolations, List.append_eq_nil_iff] at h
      exact ih hv h.2.2
  | num | str | bool | const | cond | binary | unary | selectAt | pixel => cases hv

theorem named_of_inPlaceVariable {left right : Expr} {op : BinaryOp} {v : Variable}
    (h : inPlaceVariable? left op right = some v) : left.named? = some v := by
  unfold inPlaceVariable? at h
  split at h
  · exact h
  · cases h

/-- Where the variable is bound, looking up the target of an operation does not fail. -/
theorem inPlaceTarget_of_bound {left right : Expr} {op : BinaryOp}
    (h : ∀ v, left.named? = some v → s.isBound v.name = true) :
    inPlaceTarget s left op right =
      .ok ((inPlaceVariable? left op right).map fun v => s.javaNameOf v.name) := by
  unfold inPlaceTarget
  cases hv : inPlaceVariable? left op right with
  | none => rfl
  | some v =>
    obtain ⟨binding, hb⟩ := Option.isSome_iff_exists.1 (h v (named_of_inPlaceVariable hv))
    simp [Scopes.resolve, Scopes.javaNameOf, hb, Functor.map, Except.map]

/-- An expression is checked for its depth before its parts are. -/
theorem gives_atLevel (e : Expr) {body : LowerM limit Java.Expr} {node : Nat → List Fault}
    {code : Java.Expr} {libs : List Java.Library}
    (h : Gives body (level + 1) s (node (level + 1)) code s libs) :
    Gives (e.atLevel body) level s (e.atLevelViolations limit level node) code s libs :=
  .nested (.note_bind _ _ h)

/-- Lowering a node finds the rules that it breaks, in order, or emits it. -/
theorem gives_lowerNode (e : Expr) : ∀ level, Gives (e.lowerNode : LowerM limit Java.Expr) level s
    (e.nodeViolations limit s.isBound level) (e.emit s.javaNameOf) s e.uses := by
  induction e with
  | ident name type span =>
    intro level
    rw [Expr.nodeViolations, ← List.append_nil (require ..)]
    refine .resolve_bind fun binding hb => ?_
    have hname : (Expr.ident name type span).emit s.javaNameOf = .name binding.javaName := by
      simp [Expr.emit, Scopes.javaNameOf, hb]
    rw [hname]
    exact .pure _
  | num | str | bool => exact fun level => .pure _
  | const name type span =>
    intro level
    simp only [Expr.lowerNode, Expr.nodeViolations, Expr.emit, require]
    cases Constant.find? name with
    | none => exact .throw _
    | some constant => exact .pure _
  | cond guard whenTrue whenFalse type span ihg iht ihf =>
    intro level
    exact (gives_atLevel guard (ihg _)).bind fun _ =>
      (gives_atLevel whenTrue (iht _)).bind fun _ => (gives_atLevel whenFalse (ihf _)).bind_pure _
  | binary left op right type span ihl ihr =>
    intro level
    -- the check of the operator decides before anything is known of the operands
    simp only [Expr.lowerNode, Expr.nodeViolations, Expr.emit, Expr.uses, operationOf, require]
    cases Java.Operation.find? op left.type right.type with
    | none => exact .throw _
    | some how =>
      refine (gives_atLevel left (ihl _)).bind fun hl => (gives_atLevel right (ihr _)).bind_clean fun _ => ?_
      refine .scopes_bind ?_
      -- the left operand went through, so the image it may name is declared
      rw [inPlaceTarget_of_bound fun v hv => isBound_of_named hv (List.append_eq_nil_iff.1 hl).2]
      exact (Gives.ofExcept_ok _).bind_clean fun _ => (Gives.use _).bind_pure _
  | unary op operand type span ih =>
    intro level
    simp only [Expr.lowerNode, Expr.nodeViolations, require]
    cases op.accepts operand.type with
    | false => exact .throw _
    | true => exact (gives_atLevel operand (ih _)).bind_pure _
  | select primary channel type span ih =>
    intro level
    have h := gives_atLevel primary (ih (level + 1))
    simp only [Expr.lowerNode, Expr.nodeViolations, require]
    cases channel with
    | none => exact h
    | some c =>
      cases ht : primary.type with
      | image | pixel =>
        simp only [Expr.emit, Expr.uses, selectMethod, ht]
        exact h.bind_clean fun _ => (Gives.use _).bind_pure _
      | int | boolean | string | void => exact .throw _
  | selectAt primary x y place channel type span ih ihx ihy =>
    intro level
    simp only [Expr.lowerNode, Expr.nodeViolations, require]
    cases primary.type with
    | image =>
      cases channel with
      | none =>
        exact (gives_atLevel primary (ih _)).bind fun _ => (gives_atLevel x (ihx _)).bind fun _ =>
          (gives_atLevel y (ihy _)).bind_clean fun _ => (Gives.use _).bind_pure _
      | some c =>
        exact (gives_atLevel primary (ih _)).bind fun _ => (gives_atLevel x (ihx _)).bind fun _ =>
          (gives_atLevel y (ihy _)).bind_clean fun _ =>
            (Gives.use _).bind_clean fun _ => (Gives.use _).bind_pure _
    | int | boolean | pixel | string | void => exact .throw _
  | pixel red green blue span ihr ihg ihb =>
    intro level
    exact (gives_atLevel red (ihr _)).bind fun _ => (gives_atLevel green (ihg _)).bind fun _ =>
      (gives_atLevel blue (ihb _)).bind_clean fun _ => (Gives.use _).bind_pure _

/-- Lowering an expression finds the rules that it breaks, in order, or emits it. -/
theorem gives_lower (e : Expr) : Gives (e.lower : LowerM limit Java.Expr) level s
    (e.violations limit s.isBound level) (e.emit s.javaNameOf) s e.uses :=
  gives_atLevel e (gives_lowerNode e _)

theorem lower_of_clean {σ : LowerState limit} {e : Expr}
    (h : e.violations limit σ.scopes.isBound σ.depth = []) :
    (outcome e.lower σ).1 = .ok (e.emit σ.scopes.javaNameOf) := by
  rw [(gives_lower e σ rfl rfl).1, h]
  rfl

end Expressions

/-! ## The scopes after statements -/

/-- The declarations around a node where the scopes are `s`. -/
def Scopes.around (s : Scopes) : Around :=
  s.visible.map fun p => (p.1, p.2.type)

theorem Scopes.lookup_around (s : Scopes) (name : String) :
    s.around.lookup name = (s.find? name).map (·.type) :=
  s.lookup_map_visible (·.type) name

/-- What the scopes show to the rules is what is bound. -/
theorem Scopes.declares_around (s : Scopes) : s.around.declares = s.isBound := by
  funext name
  rw [Around.declares, lookup_around, isBound, Option.isSome_map]

theorem Scopes.javaNameOf_of_visible {s t : Scopes} (h : s.visible = t.visible) :
    s.javaNameOf = t.javaNameOf := by
  funext name
  unfold javaNameOf
  rw [find?_of_visible h]

mutual

/-- The frames behind a statement that breaks no rule. -/
theorem Stmt.frames_scopesAfter (s : Scopes) : ∀ stmt : Stmt,
    (stmt.scopesAfter s).frames = stmt.framesAfter true s
  | .declare defined initializer span => Scopes.frames_add ..
  | .assign .. | .write .. | .ret .. => by simp only [Stmt.scopesAfter, Stmt.framesAfter]
  | .loop branches span | .choose branches span => frames_branchesScopesAfter s branches
  | .block block => block.frames_scopesAfter s

theorem Block.frames_scopesAfter (s : Scopes) : ∀ block : Block,
    (block.scopesAfter s).frames = s.frames
  | .mk body _ => (frames_bodyScopesAfter s.enter body (List.cons_ne_nil _ _)).2

theorem frames_bodyScopesAfter (s : Scopes) : ∀ body : List Stmt, s.frames ≠ [] →
    (bodyScopesAfter s body).frames ≠ [] ∧ (bodyScopesAfter s body).frames.tail = s.frames.tail
  | [], hne => ⟨hne, rfl⟩
  | stmt :: rest, hne => by
    -- a statement may fill the innermost frame, which the block closes, but no other
    have hstmt : (stmt.scopesAfter s).frames ≠ [] ∧
        (stmt.scopesAfter s).frames.tail = s.frames.tail := by
      rw [stmt.frames_scopesAfter s]
      exact stmt.framesAfter_tail true hne
    obtain ⟨hne', htail⟩ := frames_bodyScopesAfter (stmt.scopesAfter s) rest hstmt.1
    exact ⟨hne', htail.trans hstmt.2⟩

theorem frames_branchesScopesAfter (s : Scopes) : ∀ branches : List Branch,
    (branchesScopesAfter s branches).frames = s.frames
  | [] => rfl
  | .mk _ block _ :: rest =>
    (frames_branchesScopesAfter (block.scopesAfter s) rest).trans (block.frames_scopesAfter s)

end

/-- Behind a block the same variables are visible as before it. -/
theorem Block.visible_scopesAfter (s : Scopes) (block : Block) :
    (block.scopesAfter s).visible = s.visible :=
  congrArg List.flatten (block.frames_scopesAfter s)

theorem visible_branchesScopesAfter (s : Scopes) (branches : List Branch) :
    (branchesScopesAfter s branches).visible = s.visible :=
  congrArg List.flatten (frames_branchesScopesAfter s branches)

theorem Block.around_scopesAfter (s : Scopes) (block : Block) :
    (block.scopesAfter s).around = s.around := by
  unfold Scopes.around
  rw [block.visible_scopesAfter]

/-- The binding that a statement adds to the innermost frame. -/
def Stmt.entries (s : Scopes) : Stmt → List (String × Binding)
  | .declare defined _ _ => [(defined.name, s.nextBinding defined.name defined.type)]
  | _ => []

theorem Stmt.visible_scopesAfter (s : Scopes) (stmt : Stmt) :
    (stmt.scopesAfter s).visible = stmt.entries s ++ s.visible := by
  unfold Scopes.visible
  rw [stmt.frames_scopesAfter s]
  cases stmt with
  | declare defined initializer span => exact Scopes.flatten_push ..
  | assign | write | loop | choose | ret | block => rfl

/-- Behind a statement what it declares is bound too. -/
theorem Stmt.around_scopesAfter (s : Scopes) (stmt : Stmt) :
    (stmt.scopesAfter s).around = stmt.declares ++ s.around := by
  rw [Scopes.around, stmt.visible_scopesAfter, List.map_append]
  cases stmt <;> rfl

/-! ## Statements -/

section Statements

variable {level : Nat} {s : Scopes}

theorem gives_initializer (initializer : Option Expr) :
    Gives (initializer.mapM fun e => do return (e.type, ← e.lower) :
        LowerM limit (Option (Ty × Java.Expr))) level s
      (initializer.toList.flatMap (Expr.violations limit s.isBound level))
      (initializer.map fun e => (e.type, e.emit s.javaNameOf)) s
      (initializer.toList.flatMap Expr.uses) := by
  cases initializer with
  | none => exact .pure none
  | some e =>
    simp only [Option.toList_some, List.flatMap_cons, List.flatMap_nil, List.append_nil]
    exact ((gives_lower e).bind_pure _).map some

theorem gives_size (dimension : Option Dimension) :
    Gives (dimension.mapM fun d => do return (← d.width.lower, ← d.height.lower) :
        LowerM limit (Option (Java.Expr × Java.Expr))) level s
      ((dimension.elim [] fun d => [d.width, d.height]).flatMap
        (Expr.violations limit s.isBound level))
      (dimension.map fun d => (d.width.emit s.javaNameOf, d.height.emit s.javaNameOf)) s
      ((dimension.elim [] fun d => [d.width, d.height]).flatMap Expr.uses) := by
  cases dimension with
  | none => exact .pure none
  | some d =>
    simp only [Option.elim_some, List.flatMap_cons, List.flatMap_nil, List.append_nil]
    exact ((gives_lower d.width).bind fun _ => (gives_lower d.height).bind_pure _).map some

/-- A declaration has its parts checked before its name. -/
theorem gives_lowerDeclaration (defined : NameDef) (initializer : Option Expr) :
    Gives (lowerDeclaration defined initializer : LowerM limit Java.Stmt) level s
      ((declarationParts defined initializer).flatMap (Expr.violations limit s.isBound level) ++
        require (Java.isSourceName defined.name) (.invalidName defined.name) defined.span.start)
      (emitDeclaration s defined initializer) (s.add defined.name defined.type defined.span).2
      ((declarationParts defined initializer).flatMap Expr.uses ++
        declarationUses defined initializer) := by
  unfold declarationParts declarationUses
  simp only [List.flatMap_append, List.append_assoc]
  exact (gives_initializer initializer).bind fun _ => (gives_size defined.dimension).bind fun _ =>
    (Gives.use _).bind fun _ => (Gives.declare _ _ _).bind_clean fun _ => (Gives.use _).bind_pure _

/-- For a value that breaks no rule, it is known whether it is written in place. -/
theorem isWritten_of_clean {target : Target} {value : Expr} {binding : Binding}
    (hb : s.find? target.name = some binding)
    (hv : value.violations limit s.isBound level = []) :
    isWritten s binding.type binding.javaName value = .ok (writesInto s target value) := by
  have hname : s.javaNameOf target.name = binding.javaName := by simp [Scopes.javaNameOf, hb]
  unfold writesInto
  rw [hb, hname, Option.any_some]
  cases value with
  | binary left op right type span =>
    have hl : ∀ v, left.named? = some v → s.isBound v.name = true := by
      simp only [Expr.violations, Expr.atLevelViolations, Expr.nodeViolations,
        List.append_eq_nil_iff] at hv
      exact fun v hnamed => isBound_of_named hnamed hv.2.2.1.2
    cases binding.type with
    | image => rw [isWritten, inPlaceTarget_of_bound hl]; rfl
    | int | boolean | string | pixel | void => rfl
  | ident | num | str | bool | const | cond | unary | select | selectAt | pixel =>
    simp [isWritten, Expr.inPlace?]; rfl

theorem gives_lowerPartAssignment {target : Target} {type : Ty} (value : Expr)
    (hpart : (target.pixel.isSome || target.channel.isSome) = true) :
    Gives (lowerPartAssignment target type (s.javaNameOf target.name) value : LowerM limit Java.Stmt)
      level s
      (require (assignable type target.pixel.isSome target.channel.isSome)
        (.unsupportedTarget target.name (describeTarget type target)) target.span.start ++
          (assignmentParts target value).flatMap (Expr.violations limit s.isBound level))
      (emitAssignment s target value) s
      ((assignmentParts target value).flatMap Expr.uses ++ target.uses) := by
  obtain ⟨name, pixel, channel, declared, span⟩ := target
  -- a channel of a pixel, and a pixel or its channel of an image; other shapes fail at once
  cases pixel with
  | none =>
    cases channel with
    | none => cases hpart
    | some c =>
      cases type with
      | pixel =>
        simp only [assignmentParts, Option.elim_none, List.nil_append, List.flatMap_cons,
          List.flatMap_nil, List.append_nil]
        exact (gives_lower value).bind_clean fun _ => (Gives.use _).bind_pure _
      | int | boolean | string | image | void => exact .throw _
  | some p =>
    cases type with
    | image =>
      simp only [assignmentParts, Option.elim_some, List.cons_append, List.nil_append,
        List.flatMap_cons, List.flatMap_nil, List.append_nil, List.append_assoc]
      cases channel with
      | none | some c =>
        exact (gives_lower p.x).bind fun _ => (gives_lower p.y).bind fun _ =>
          (gives_lower value).bind_clean fun _ => (Gives.use _).bind_pure _
    | int | boolean | string | pixel | void => cases channel <;> exact .throw _

theorem Target.violations_around (s : Scopes) (target : Target) :
    target.violations s.around =
      require (s.isBound target.name) (.unresolved target.name) target.span.start ++
        (s.find? target.name).elim [] fun binding =>
          require (assignable binding.type target.pixel.isSome target.channel.isSome)
            (.unsupportedTarget target.name (describeTarget binding.type target))
            target.span.start := by
  unfold Target.violations Scopes.isBound
  rw [s.lookup_around]
  cases s.find? target.name <;> rfl

/-- An assignment has its target checked before its parts. -/
theorem gives_lowerAssignment (target : Target) (value : Expr) :
    Gives (lowerAssignment target value : LowerM limit Java.Stmt) level s
      (target.violations s.around ++
        (assignmentParts target value).flatMap (Expr.violations limit s.isBound level))
      (emitAssignment s target value) s
      ((assignmentParts target value).flatMap Expr.uses ++ target.uses) := by
  rw [target.violations_around, List.append_assoc]
  refine .resolve_bind fun binding hb => ?_
  -- the declared type of the variable, not the one that the target states, decides on its parts
  have hname : binding.javaName = s.javaNameOf target.name := by simp [Scopes.javaNameOf, hb]
  rw [hb, Option.elim_some]
  cases hpart : target.pixel.isSome || target.channel.isSome with
  | true =>
    rw [if_pos rfl, hname]
    exact gives_lowerPartAssignment value hpart
  | false =>
    obtain ⟨hpixel, hchannel⟩ := Bool.or_eq_false_iff.1 hpart
    rw [Option.isSome_eq_false_iff, Option.isNone_iff_eq_none] at hpixel hchannel
    simp only [hpixel, hchannel, assignmentParts, emitAssignment, Target.uses, Option.elim_none,
      Option.isSome_none, List.nil_append, List.append_nil, List.flatMap_cons, List.flatMap_nil]
    refine (gives_lower value).bind_clean fun hv => .scopes_bind ?_
    rw [isWritten_of_clean hb hv, hname]
    exact (Gives.ofExcept_ok _).bind_pure _

end Statements

/-- Where all branches are free of violations, so is the guard of each. -/
theorem guard_clean {around : Around} {level : Nat} {branch : Branch} :
    ∀ {branches : List Branch}, branchesViolations limit around level branches = [] →
      branch ∈ branches → branch.guard.violations limit around.declares level = []
  | .mk guard block span :: rest, h, hmem => by
    rw [branchesViolations, List.append_eq_nil_iff, List.append_eq_nil_iff] at h
    rcases List.mem_cons.1 hmem with rfl | hmem
    · exact h.1
    · exact guard_clean h.2.2 hmem

theorem guard_uses {branch : Branch} {lib : Java.Library} :
    ∀ {branches : List Branch}, branch ∈ branches → lib ∈ branch.guard.uses →
      lib ∈ branchesUses branches
  | .mk guard block span :: rest, hmem, h => by
    rw [branchesUses, List.mem_append, List.mem_append]
    rcases List.mem_cons.1 hmem with rfl | hmem
    · exact .inl h
    · exact .inr (.inr (guard_uses hmem h))

/-- After the branches of a loop a guard is lowered as before them: the same names are visible. -/
theorem gives_guard_again {s : Scopes} {level : Nat} {branches : List Branch} {branch : Branch}
    (hmem : branch ∈ branches) (hclean : branchesViolations limit s.around level branches = []) :
    Gives (branch.guard.lower : LowerM limit Java.Expr) level (branchesScopesAfter s branches) []
      (branch.guard.emit s.javaNameOf) (branchesScopesAfter s branches) branch.guard.uses := by
  have hguard := guard_clean hclean hmem
  have hvisible := visible_branchesScopesAfter s branches
  have hbound : (branchesScopesAfter s branches).isBound = s.isBound :=
    funext (Scopes.isBound_of_visible hvisible)
  have h : Gives (branch.guard.lower : LowerM limit Java.Expr) level _ _ _ _ _ :=
    gives_lower (s := branchesScopesAfter s branches) branch.guard
  rwa [hbound, ← s.declares_around, hguard, Scopes.javaNameOf_of_visible hvisible] at h

mutual

/-- Lowering a statement finds the rules that it breaks, in order, or emits it: the induction is on
the statement, in any scopes and at any level. -/
theorem gives_lowerStmt (level : Nat) (s : Scopes) : ∀ stmt : Stmt,
    Gives (stmt.lower : LowerM limit Java.Stmt) level s (stmt.violations limit s.around level)
      (stmt.emit s) (stmt.scopesAfter s) stmt.uses
  | .declare defined initializer span => by
    rw [Stmt.lower, Stmt.violations, s.declares_around]
    exact .note_bind _ _ (gives_lowerDeclaration defined initializer)
  | .assign target value span => by
    rw [Stmt.lower, Stmt.violations, s.declares_around]
    exact .note_bind _ _ (gives_lowerAssignment target value)
  | .write value span => by
    rw [Stmt.lower, Stmt.violations, s.declares_around]
    exact .note_bind _ _ ((gives_lower value).bind_clean fun _ => (Gives.use _).bind_pure _)
  | .loop branches span => by
    rw [Stmt.lower, Stmt.violations, Stmt.emit, Stmt.scopesAfter, Stmt.uses]
    have h := gives_lowerBranches level s branches
    cases hlast : branches.getLast? with
    | none =>
      rw [← List.append_nil (branchesUses branches)]
      exact h.bind_clean fun _ => .pure _
    | some last =>
      -- lowered once more, the guard brings neither a new fault nor a new class
      have hmem := List.mem_of_getLast? hlast
      refine Gives.congr_uses (h.bind_clean fun hclean =>
        (gives_guard_again hmem hclean).bind_pure _) fun lib => ?_
      rw [List.mem_append, or_iff_left_of_imp (guard_uses hmem)]
  | .choose branches span => by
    rw [Stmt.lower, Stmt.violations, Stmt.emit, Stmt.scopesAfter, Stmt.uses]
    exact (gives_lowerBranches level s branches).bind_pure _
  | .ret value span => by
    rw [Stmt.lower, Stmt.violations, s.declares_around]
    exact .note_bind _ _ ((gives_lower value).bind_pure _)
  | .block block => by
    rw [Stmt.lower, Stmt.violations, Stmt.emit, Stmt.scopesAfter, Stmt.uses]
    exact (gives_lowerBlock level s block).bind_pure _

theorem gives_lowerBlock (level : Nat) (s : Scopes) : ∀ block : Block,
    Gives (block.lower : LowerM limit (List Java.Stmt)) level s
      (block.violations limit s.around level) (block.emit s) (block.scopesAfter s) block.uses
  | .mk body span => by
    rw [Block.lower, Block.violations, Block.emit, Block.scopesAfter, Block.uses]
    exact .nested (.inScope (gives_lowerBody (level + 1) s.enter body))

theorem gives_lowerBody (level : Nat) (s : Scopes) : ∀ body : List Stmt,
    Gives (lowerBody body : LowerM limit (List Java.Stmt)) level s
      (bodyViolations limit s.around level body) (emitBody s body) (bodyScopesAfter s body)
      (bodyUses body)
  | [] => by
    rw [lowerBody]
    exact .pure _
  | stmt :: rest => by
    rw [lowerBody, bodyViolations, emitBody, bodyScopesAfter, bodyUses, ← stmt.around_scopesAfter]
    exact (gives_lowerStmt level s stmt).bind fun _ =>
      (gives_lowerBody level (stmt.scopesAfter s) rest).bind_pure _

theorem gives_lowerBranches (level : Nat) (s : Scopes) : ∀ branches : List Branch,
    Gives (lowerBranches branches : LowerM limit (List Java.Branch)) level s
      (branchesViolations limit s.around level branches) (emitBranches s branches)
      (branchesScopesAfter s branches) (branchesUses branches)
  | [] => by
    rw [lowerBranches]
    exact .pure _
  | .mk guard block span :: rest => by
    have hrest := gives_lowerBranches level (block.scopesAfter s) rest
    rw [Block.around_scopesAfter] at hrest
    rw [lowerBranches, branchesViolations, emitBranches, branchesScopesAfter, branchesUses,
      s.declares_around]
    exact (gives_lower guard).bind fun _ => (gives_lowerBlock level s block).bind fun _ =>
      hrest.bind_pure _

end

theorem lowerStmt_of_clean {σ : LowerState limit} {stmt : Stmt}
    (h : stmt.violations limit σ.scopes.around σ.depth = []) :
    (outcome stmt.lower σ).1 = .ok (stmt.emit σ.scopes) := by
  rw [(gives_lowerStmt σ.depth σ.scopes stmt σ rfl rfl).1, h]
  rfl

/-! ## Programs -/

theorem gives_lowerParams (level : Nat) : ∀ (s : Scopes) (params : List NameDef),
    Gives (lowerParams params : LowerM limit (List Java.Param)) level s
      (params.flatMap NameDef.violations) (emitParams s params) (paramsScopesAfter s params)
      (params.flatMap fun param => typeUses param.type)
  | s, [] => .pure _
  | s, param :: rest => by
    rw [lowerParams, List.flatMap_cons, List.flatMap_cons, emitParams, paramsScopesAfter]
    exact (Gives.use _).bind fun _ => (Gives.declare param.name param.type param.span).bind fun _ =>
      (gives_lowerParams level _ rest).bind_pure _

/-- What can be seen of the parameters: their names, their types and their numbers. -/
theorem visible_paramsScopesAfter {β : Type} (f : String → Ty → Nat → β) :
    ∀ (s : Scopes) (params : List NameDef),
      (paramsScopesAfter s params).visible.map (fun p => f p.1 p.2.type p.2.decl) =
        ((params.zipIdx s.declared.length).map fun (param, n) => f param.name param.type n).reverse ++
          s.visible.map fun p => f p.1 p.2.type p.2.decl
  | s, [] => rfl
  | s, param :: rest => by
    rw [paramsScopesAfter, visible_paramsScopesAfter f _ rest]
    simp [Scopes.visible_add, Scopes.nextBinding, Scopes.declared_add]

theorem Program.around_blockScopes (program : Program) :
    program.blockScopes.around = parametersAround program.params := by
  have hparams : (program.params.zipIdx.map fun p => (p.1.name, p.1.type)) =
      program.params.map fun param => (param.name, param.type) :=
    calc program.params.zipIdx.map (fun p => (p.1.name, p.1.type))
        = (program.params.zipIdx.map Prod.fst).map fun param => (param.name, param.type) :=
          by rw [List.map_map]; rfl
      _ = _ := by rw [List.zipIdx_map_fst]
  refine (visible_paramsScopesAfter (fun name type _ => (name, type)) _ program.params).trans ?_
  show (program.params.zipIdx.map fun p => (p.1.name, p.1.type)).reverse ++ [] = _
  rw [hparams, List.append_nil, parametersAround]

/-- Lowering a program finds the rules that its parameters and its block break, in order, or emits
it. -/
theorem gives_lowerProgram (program : Program) :
    Gives (program.lower : LowerM limit (List Java.Param × List Java.Stmt)) 0 .empty
      (program.params.flatMap NameDef.violations ++
        program.block.violations limit (parametersAround program.params) 0)
      (emitParams Scopes.empty.enter program.params, program.block.emit program.blockScopes)
      (program.block.scopesAfter program.blockScopes).exit program.uses := by
  rw [← program.around_blockScopes]
  exact Gives.enterScope.bind fun _ => (gives_lowerParams 0 _ program.params).bind fun _ =>
    (gives_lowerBlock 0 program.blockScopes program.block).bind_clean fun _ =>
      Gives.exitScope.bind fun _ => (Gives.use _).bind_pure _

theorem validate_eq_accept (o : Options) : o.validate = accept o.violations () := by
  unfold Options.validate Options.invalidName? Options.violations require
  cases o.package with
  | none => cases Java.isPackage o.libraryPackage <;> cases Java.isName o.entryPoint <;> rfl
  | some package =>
    rw [Option.filter_some, Option.elim_some]
    cases Java.isPackage package <;> cases Java.isPackage o.libraryPackage <;>
      cases Java.isName o.entryPoint <;> rfl

theorem importsOf_congr {libs libs' : List Java.Library} (h : ∀ lib, lib ∈ libs ↔ lib ∈ libs') :
    importsOf libs = importsOf libs' := by
  unfold importsOf
  congr 1
  funext lib
  rw [Bool.eq_iff_iff, List.contains_iff_mem, List.contains_iff_mem, h]

/-- The compilation that lowering gives for a program. -/
def compilationOf (options : Options) (program : Program) {limit : UInt64} :
    Except Fault (List Java.Param × List Java.Stmt) × LowerState limit → Except Fault Compilation
  | (.error fault, _) => .error fault
  | (.ok (params, body), σ) =>
    .ok ⟨program.name, unitText options (sourceUnit options program σ.uses params body),
      σ.scopes.declared⟩

theorem compile_value_of_valid {options : Options} {program : Program}
    (hoptions : options.violations = []) (hname : Java.isName program.name = true) :
    (compile options program).value =
      compilationOf options program (outcome program.lower (.start : LowerState options.maxDepth)) := by
  unfold compile outcome
  rw [validate_eq_accept, hoptions, hname]
  rcases program.lower.run.run (.start : LowerState options.maxDepth) with ⟨⟨result, σ⟩, log⟩
  cases result <;> rfl

/-- Compiling comes to the first violation or, if there is none, to the unit and the table that the
program becomes. -/
theorem compile_value (options : Options) (program : Program) :
    (compile options program).value =
      accept (program.violations options) (program.compilation options) := by
  unfold Program.violations
  cases hoptions : options.violations with
  | cons fault rest =>
    unfold compile
    rw [validate_eq_accept, hoptions]
    rfl
  | nil =>
    cases hname : Java.isName program.name with
    | false =>
      unfold compile
      rw [validate_eq_accept, hoptions, hname]
      rfl
    | true =>
      rw [compile_value_of_valid hoptions hname]
      -- lowering starts without an open frame and on level 0
      obtain ⟨hresult, hafter⟩ :=
        gives_lowerProgram program (.start : LowerState options.maxDepth) rfl rfl
      rcases ho : outcome program.lower (.start : LowerState options.maxDepth) with ⟨result, σ⟩
      rw [ho] at hresult hafter
      cases hv : program.params.flatMap NameDef.violations ++
          program.block.violations options.maxDepth (parametersAround program.params) 0 with
      | cons fault rest =>
        rw [hv] at hresult
        cases hresult
        rfl
      | nil =>
        obtain ⟨-, hscopes, huses⟩ := hafter hv
        rw [hv] at hresult
        cases hresult
        have himports : importsOf σ.uses = importsOf program.uses :=
          importsOf_congr fun lib => (huses lib).trans (or_iff_left (by simp [LowerState.start]))
        have hdeclared : σ.scopes.declared =
            (program.block.scopesAfter program.blockScopes).declared := by
          rw [hscopes, Scopes.exit]
        simp [compilationOf, Program.compilation, Program.unit, sourceUnit, himports, hdeclared,
          accept, require]

/-- A program that breaks no rule is compiled. -/
theorem compile_of_clean {options : Options} {program : Program}
    (h : program.violations options = []) :
    (compile options program).value = .ok (program.compilation options) := by
  rw [compile_value, h]
  rfl

/-- Compiling succeeds exactly for programs without violations, and fails exactly with the first
violation of a program that has some. -/
theorem compile_fails_on_first_violation (options : Options) (program : Program) :
    ((∃ compilation, (compile options program).value = .ok compilation) ↔
        program.violations options = []) ∧
      ∀ fault, (compile options program).value = .error fault ↔
        (program.violations options).head? = some fault := by
  rw [compile_value]
  cases program.violations options with
  | nil => simp [accept]
  | cons fault rest => simp [accept]

end PixelJava
