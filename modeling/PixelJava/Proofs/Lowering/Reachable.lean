/-
The states that lowering can be in. From the start they are reached by steps of a session, each of
which may fail, and by going into a block or an expression, as lowering does on its way; so they are
the states between steps as well as those inside them. In all of them the names that are bound have
Java names, and so the names and literals of code that is lowered there are of known kinds.
-/
import PixelJava.Proofs.Lowering.Scoping
import PixelJava.Proofs.Java.Shape
import PixelJava.Proofs.Tree.Nodes

namespace PixelJava

open LowerM LowerState

variable {limit : UInt64}

/-! ## Reachable states -/

/-- A state that lowering can come to. -/
inductive LowerState.Reachable : LowerState limit → Prop where
  | start : Reachable .start
  /-- A step of a session, whether it fails or not. -/
  | step {σ : LowerState limit} (what : Step) (h : Reachable σ) : Reachable (outcome what.run σ).2
  /-- The way into a block or an expression. -/
  | deeper {σ τ : LowerState limit} (h : Reachable σ) (hd : σ.deeper? = some τ) : Reachable τ

/-- If the scopes of `σ` are in order, so are those of `τ`. -/
def LowerState.KeepsWF (σ τ : LowerState limit) : Prop :=
  σ.scopes.WF → τ.scopes.WF

theorem LowerState.KeepsWF.trans {σ τ υ : LowerState limit} (h : KeepsWF σ τ) (h' : KeepsWF τ υ) :
    KeepsWF σ υ :=
  fun hw => h' (h hw)

theorem LowerState.Keeps.keepsWF {σ τ : LowerState limit} (h : Keeps σ τ) : KeepsWF σ τ :=
  fun hw => h.scopes ▸ hw

/-- Scopes stay in order as long as their frames are the same and their counters go along with
the table. -/
theorem LowerState.Restores.keepsWF {σ τ : LowerState limit} (h : Restores σ τ) : KeepsWF σ τ := by
  intro hw
  have hvisible : τ.scopes.visible = σ.scopes.visible := congrArg List.flatten h.frames
  refine ⟨hvisible ▸ hw.source, fun p hp => ?_, fun name => ?_, fun hu => ?_⟩
  · exact (hw.made p (hvisible ▸ hp)).mono (Scopes.redeclared_le h.declared p.1)
  · rw [h.counter, hw.counted, ← UInt32.ofNat_add,
      Nat.add_sub_cancel' (Scopes.redeclared_le h.declared name)]
  · exact hvisible ▸ hw.distinct (hu.of_prefix h.declared)

theorem keepsWF_of_keeps {α : Type} {x : LowerM limit α} (h : Always Keeps x) : Always KeepsWF x :=
  h.mono Keeps.keepsWF

theorem keepsWF_declare (name : String) (type : Ty) (span : Span) :
    Always KeepsWF (declare name type span : LowerM limit String) := by
  intro σ hw
  cases hs : Java.isSourceName name with
  | false => rwa [outcome_declare_error hs]
  | true =>
    rw [outcome_declare_ok hs]
    exact Scopes.add_wf hw hs type span

theorem keepsWF_lowerDeclaration (defined : NameDef) (initializer : Option Expr) :
    Always KeepsWF (lowerDeclaration defined initializer : LowerM limit Java.Stmt) := by
  unfold lowerDeclaration
  refine .bind KeepsWF.trans (keepsWF_of_keeps (keeps_mapM _ fun e => ?_)) fun value => ?_
  · exact keeps_bind (keeps_lower e) fun _ => keeps_pure _
  refine .bind KeepsWF.trans (keepsWF_of_keeps (keeps_mapM _ fun d => ?_)) fun size => ?_
  · exact keeps_bind (keeps_lower d.width) fun _ => keeps_bind (keeps_lower d.height) fun _ =>
      keeps_pure _
  refine .bind KeepsWF.trans (keepsWF_of_keeps (keeps_use _)) fun _ => ?_
  refine .bind KeepsWF.trans (keepsWF_declare _ _ _) fun name => ?_
  exact keepsWF_of_keeps (keeps_bind (keeps_use _) fun _ => keeps_pure _)

/-- A statement other than a declaration leaves the frames as they were. -/
theorem keepsWF_lowerStmt (stmt : Stmt) : Always KeepsWF (stmt.lower : LowerM limit Java.Stmt) := by
  cases stmt with
  | declare defined initializer span =>
    rw [Stmt.lower]
    exact .bind KeepsWF.trans (keepsWF_of_keeps (keeps_note _ _)) fun _ =>
      keepsWF_lowerDeclaration defined initializer
  | assign | write | loop | choose | ret | block =>
    intro σ
    obtain ⟨hgrows, hframes⟩ := acts_lower _ σ
    exact Restores.keepsWF ⟨hgrows, hframes⟩

/-- No step that the lowering takes loses the invariant of the scopes, whether it fails or not. -/
theorem keepsWF_run (what : Step) : Always KeepsWF (what.run : LowerM limit Answer) := by
  have hpure {α : Type} {x : LowerM limit α} (f : α → Answer) (h : Always KeepsWF x) :
      Always KeepsWF (do return f (← x)) :=
    .bind KeepsWF.trans h fun _ => keepsWF_of_keeps (keeps_pure _)
  cases what with
  | enter => exact fun σ => Scopes.enter_wf
  | exit => exact fun σ => Scopes.exit_wf
  | declare name type span => exact hpure _ (keepsWF_declare name type span)
  | resolve name span | javaName name span =>
    exact hpure _ (keepsWF_of_keeps (keeps_resolve name span))
  | isBound name => exact hpure _ (keepsWF_of_keeps keeps_scopes)
  | javaType type => exact keepsWF_of_keeps (keeps_bind (keeps_use _) fun _ => keeps_pure _)
  | expr e => exact hpure _ (keepsWF_of_keeps (keeps_lower e))
  | node e => exact hpure _ (keepsWF_of_keeps (keeps_lowerNode e))
  | stmt s => exact hpure _ (keepsWF_lowerStmt s)
  | block b => exact hpure _ ((restores_lowerBlock b).mono Restores.keepsWF)
  | body b => exact hpure _ ((restores_lowerHere b).mono Restores.keepsWF)
  | inPlace left op right =>
    exact keepsWF_of_keeps (keeps_bind keeps_scopes fun _ => keeps_bind (keeps_ofExcept _) fun _ =>
      keeps_pure _)
  | assignPart target type name value =>
    exact hpure _ (keepsWF_of_keeps (keeps_lowerPartAssignment target type name value))

/-- The scopes satisfy their invariant in every state that can be reached. -/
theorem LowerState.Reachable.wf {σ : LowerState limit} (h : σ.Reachable) : σ.scopes.WF := by
  induction h with
  | start => exact Scopes.empty_wf
  | step what h ih => exact keepsWF_run what _ ih
  | deeper h hd ih =>
    obtain ⟨-, -, hscopes, -⟩ := deeper?_eq_some hd
    rwa [hscopes]

theorem Scopes.isName_javaNameOf {s : Scopes} (hw : s.WF) {name : String}
    (h : s.isBound name = true) : Java.isName (s.javaNameOf name) = true := by
  obtain ⟨binding, hb⟩ := Option.isSome_iff_exists.1 h
  have hmem := mem_visible_of_find? hb
  rw [javaNameOf, hb]
  exact (hw.made _ hmem).isName (hw.source _ hmem)

/-- A variable that can be assigned is bound. -/
theorem Scopes.isBound_of_target {s : Scopes} {target : Target}
    (h : target.violations s.around = []) : s.isBound target.name = true := by
  rw [target.violations_around, List.append_eq_nil_iff, require_eq_nil] at h
  exact h.1

/-! ## Names and literals of code -/

theorem accept_eq_ok {α : Type} {faults : List Fault} {value a : α}
    (h : accept faults value = .ok a) : faults = [] ∧ value = a := by
  cases faults with
  | nil => cases h; exact ⟨rfl, rfl⟩
  | cons fault rest => cases h

/-- The kinds of names and literals that code is made of: what holds of a Java name, of the truth
values, of integers, and of literals of the given kinds. -/
structure LeafRule (num str : String → Bool) (P : String → Prop) : Prop where
  name : ∀ name, Java.isName name = true → P name
  bool : ∀ value : Bool, P (if value then "true" else "false")
  integer : ∀ n : Int, P (Java.integerText n)
  num : ∀ text, num text = true → P text
  str : ∀ text, str text = true → P text

theorem mem_leaves_operate {how : Java.Operation} {op : BinaryOp} {leftType : Ty}
    {left right : Java.Expr} {target : Option String} {leaf : String} :
    leaf ∈ (operate how op leftType left right target).leaves ↔
      leaf ∈ left.leaves ∨ leaf ∈ right.leaves ∨ target = some leaf := by
  unfold operate
  cases target <;> split <;> simp [Java.Expr.leaves] <;> grind

/-- What an expression is emitted as has no names and literals but its own. -/
theorem leaves_emit {num str : String → Bool} {P : String → Prop} (rule : LeafRule num str P)
    {names : String → String} {e : Expr} (hlit : e.literalsAre num str = true)
    (hnames : ∀ name ∈ e.mentions, Java.isName (names name) = true) :
    ∀ leaf ∈ (e.emit names).leaves, P leaf := by
  induction e with
  | ident name type span =>
    intro leaf hleaf
    obtain rfl := List.mem_singleton.1 hleaf
    exact rule.name _ (hnames name List.mem_cons_self)
  | num text span =>
    intro leaf hleaf
    obtain rfl := List.mem_singleton.1 hleaf
    exact rule.num _ (by simpa [Expr.literalsAre, Expr.nodes, Expr.literalIs] using hlit)
  | str text span =>
    intro leaf hleaf
    obtain rfl := List.mem_singleton.1 hleaf
    exact rule.str _ (by simpa [Expr.literalsAre, Expr.nodes, Expr.literalIs] using hlit)
  | bool value span =>
    intro leaf hleaf
    obtain rfl := List.mem_singleton.1 hleaf
    exact rule.bool value
  | const name type span =>
    intro leaf hleaf
    obtain rfl := List.mem_singleton.1 hleaf
    exact rule.integer _
  | cond guard whenTrue whenFalse type span ihg iht ihf =>
    simp only [Expr.mentions, List.forall_mem_append] at hnames
    simp only [Expr.literalsAre, Expr.nodes, List.all_cons, List.all_append, Bool.and_eq_true] at hlit
    simp only [Expr.emit, Java.Expr.leaves, List.forall_mem_append]
    exact ⟨ihg hlit.2.1 hnames.1.1, iht hlit.2.2.1 hnames.1.2, ihf hlit.2.2.2 hnames.2⟩
  | binary left op right type span ihl ihr =>
    simp only [Expr.mentions, List.forall_mem_append, mem_operands, Option.mem_toList] at hnames
    simp only [Expr.literalsAre, Expr.nodes, List.all_cons, List.all_append, Bool.and_eq_true] at hlit
    intro leaf hleaf
    rcases mem_leaves_operate.1 hleaf with hl | hr | ht
    · exact ihl hlit.2.1 (fun name hn => hnames.1 name (.inl hn)) leaf hl
    · exact ihr hlit.2.2 (fun name hn => hnames.1 name (.inr hn)) leaf hr
    · obtain ⟨v, hv, rfl⟩ := Option.map_eq_some_iff.1 ht
      exact rule.name _ (hnames.2 v.name (Option.map_eq_some_iff.2 ⟨v, hv, rfl⟩))
  | unary op operand type span ih =>
    simp only [Expr.literalsAre, Expr.nodes, List.all_cons, Bool.and_eq_true] at hlit
    exact ih hlit.2 hnames
  | select primary channel type span ih =>
    simp only [Expr.literalsAre, Expr.nodes, List.all_cons, Bool.and_eq_true] at hlit
    cases channel <;> exact ih hlit.2 hnames
  | selectAt primary x y place channel type span ih ihx ihy =>
    simp only [Expr.mentions, List.forall_mem_append] at hnames
    simp only [Expr.literalsAre, Expr.nodes, List.all_cons, List.all_append, Bool.and_eq_true] at hlit
    have hparts := And.intro (ih hlit.2.1 hnames.1)
      (And.intro (ihx hlit.2.2.1 hnames.2.1) (ihy hlit.2.2.2 hnames.2.2))
    cases channel <;> simpa only [Expr.emit, Java.Expr.leaves, List.forall_mem_append] using hparts
  | pixel red green blue span ihr ihg ihb =>
    simp only [Expr.mentions, List.forall_mem_append] at hnames
    simp only [Expr.literalsAre, Expr.nodes, List.all_cons, List.all_append, Bool.and_eq_true] at hlit
    simp only [Expr.emit, Java.Expr.leaves, List.forall_mem_append]
    exact ⟨ihr hlit.2.1 hnames.1, ihg hlit.2.2.1 hnames.2.1, ihb hlit.2.2.2 hnames.2.2⟩

/-- An expression without violations refers to names that have Java names. -/
theorem isName_of_mentions {s : Scopes} (hw : s.WF) {e : Expr} {level : Nat}
    (hclean : e.violations limit s.isBound level = []) :
    ∀ name ∈ e.mentions, Java.isName (s.javaNameOf name) = true := by
  intro name hname
  rw [Expr.violations, Expr.atLevelViolations, List.append_eq_nil_iff] at hclean
  exact Scopes.isName_javaNameOf hw (isBound_of_mentions hclean.2 hname)

theorem emit_of_lower {σ : LowerState limit} {e : Expr} {code : Java.Expr}
    (h : (outcome e.lower σ).1 = .ok code) :
    e.violations limit σ.scopes.isBound σ.depth = [] ∧ e.emit σ.scopes.javaNameOf = code :=
  accept_eq_ok (((gives_lower e) σ rfl rfl).1.symm.trans h)

end PixelJava
