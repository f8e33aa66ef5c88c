/-
Lowering keeps lexical scoping: wherever the code of a program uses a variable, exactly one
declaration that Java sees there has its name, and it is the one that static scoping gives for the
reference. Scanning the code of a statement goes along with the scopes of lowering, which hold the
same declarations at each point; that their Java names are pairwise distinct, as long as no counter
overflows, leaves no other one.
-/
import PixelJava.Proofs.Java.Relayout
import PixelJava.Proofs.Lowering.Reference
import PixelJava.Proofs.Lowering.Result

namespace PixelJava

/-! ## Names that are referred to -/

/-- Names that an expression without violations refers to are declared around it. -/
theorem isBound_of_mentions {limit : UInt64} {bound : String → Bool} {name : String} {e : Expr} :
    ∀ {level}, e.nodeViolations limit bound level = [] → name ∈ e.mentions →
      bound name = true := by
  induction e with
  | ident other type span =>
    intro level h hm
    cases hb : bound other with
    | true => rwa [List.mem_singleton.1 hm]
    | false => simp [Expr.nodeViolations, require, hb] at h
  | num | str | bool | const => intro level h hm; cases hm
  | cond guard whenTrue whenFalse type span ihg iht ihf =>
    intro level h hm
    simp only [Expr.nodeViolations, Expr.atLevelViolations, List.append_eq_nil_iff] at h
    simp only [Expr.mentions, List.mem_append] at hm
    rcases hm with (hm | hm) | hm
    · exact ihg h.1.2 hm
    · exact iht h.2.1.2 hm
    · exact ihf h.2.2.2 hm
  | binary left op right type span ihl ihr =>
    intro level h hm
    simp only [Expr.nodeViolations, Expr.atLevelViolations, List.append_eq_nil_iff] at h
    simp only [Expr.mentions, List.mem_append, mem_operands, Option.mem_toList,
      Option.map_eq_some_iff] at hm
    rcases hm with (hm | hm) | ⟨v, hv, rfl⟩
    · exact ihl h.2.1.2 hm
    · exact ihr h.2.2.2 hm
    · exact isBound_of_named (named_of_inPlaceVariable hv) h.2.1.2
  | unary op operand type span ih =>
    intro level h hm
    simp only [Expr.nodeViolations, Expr.atLevelViolations, List.append_eq_nil_iff] at h
    exact ih h.2.2 hm
  | select primary channel type span ih =>
    intro level h hm
    simp only [Expr.nodeViolations, Expr.atLevelViolations, List.append_eq_nil_iff] at h
    exact ih h.2.2 hm
  | selectAt primary x y place channel type span ih ihx ihy =>
    intro level h hm
    simp only [Expr.nodeViolations, Expr.atLevelViolations, List.append_eq_nil_iff] at h
    simp only [Expr.mentions, List.mem_append] at hm
    rcases hm with hm | hm | hm
    · exact ih h.2.1.2 hm
    · exact ihx h.2.2.1.2 hm
    · exact ihy h.2.2.2.2 hm
  | pixel red green blue span ihr ihg ihb =>
    intro level h hm
    simp only [Expr.nodeViolations, Expr.atLevelViolations, List.append_eq_nil_iff] at h
    simp only [Expr.mentions, List.mem_append] at hm
    rcases hm with hm | hm | hm
    · exact ihr h.1.2 hm
    · exact ihg h.2.1.2 hm
    · exact ihb h.2.2.2 hm

/-! ## Scanning along with the scopes -/

/-- The declarations of the scopes as references see them. -/
def Scopes.declarations (s : Scopes) : Visible :=
  s.visible.map fun p => (p.1, ⟨p.2.type, p.2.decl⟩)

/-- What the scopes find is the declaration that is visible. -/
theorem Scopes.lookup_declarations (s : Scopes) (name : String) :
    s.declarations.lookup name = (s.find? name).map fun b => ⟨b.type, b.decl⟩ :=
  s.lookup_map_visible (fun b => Declaration.mk b.type b.decl) name

/-- The scan sees the declarations of the scopes. -/
structure Mirrors (st : Java.Scan) (s : Scopes) : Prop where
  visible : st.visible = s.visible.map fun p => (p.2.decl, p.2.javaName)
  declared : st.declared = s.declared.map (·.javaName)

/-- Exactly one visible declaration has the name in use, and it is the one that the reference stands
for. -/
def Reference.Kept (r : Reference) (use : Java.Use) : Prop :=
  ∃ number, r.number? = some number ∧ use.visible.filter (·.2 = use.id) = [(number, use.id)]

/-- Scanning the code goes along with the scopes from `s` to `t`, and each of its uses is of the
declaration that the reference at its place stands for. -/
def Scans (code : Java.Code) (s t : Scopes) (refs : List Reference) : Prop :=
  s.WF → t.WF ∧ s.declared <+: t.declared ∧ ∀ st : Java.Scan, Mirrors st s →
    Mirrors (code.scan st) t ∧ (code.scan st).outer = st.outer ∧
      ∃ uses, (code.scan st).uses = st.uses ++ uses ∧
        (t.Unwrapped → List.Forall₂ Reference.Kept refs uses)

theorem filter_eq_singleton {α : Type} {f : α → String} {a : α} :
    ∀ {l : List α}, (l.map f).Nodup → a ∈ l → l.filter (fun b => f b = f a) = [a]
  | b :: l, hn, hm => by
    rw [List.map_cons, List.nodup_cons] at hn
    rcases List.mem_cons.1 hm with rfl | hm
    · have hrest : l.filter (fun b => f b = f a) = [] :=
        List.filter_eq_nil_iff.2 fun b hb he =>
          hn.1 (List.mem_map.2 ⟨b, hb, of_decide_eq_true he⟩)
      simp [hrest]
    · have hne : f b ≠ f a := fun he => hn.1 (he ▸ List.mem_map_of_mem hm)
      rw [List.filter_cons_of_neg (by simpa using hne)]
      exact filter_eq_singleton hn.2 hm

/-- The Java name that a reference becomes picks out one visible declaration. -/
theorem kept_of_isBound {s t : Scopes} (hw : t.WF) (hu : t.Unwrapped)
    (hsub : s.visible ⊆ t.visible) {name : String} (hb : s.isBound name = true) :
    (s.declarations.refer name).Kept
      ⟨s.javaNameOf name, t.visible.map fun p => (p.2.decl, p.2.javaName)⟩ := by
  obtain ⟨b, hf⟩ := Option.isSome_iff_exists.1 hb
  refine ⟨b.decl, by simp [Visible.refer, s.lookup_declarations, hf], ?_⟩
  have hname : s.javaNameOf name = b.javaName := by simp [Scopes.javaNameOf, hf]
  have hmem := hsub (Scopes.mem_visible_of_find? hf)
  have h := filter_eq_singleton (hw.distinct hu) hmem
  rw [hname, List.filter_map]
  simp only [Function.comp_def]
  rw [h]
  rfl

namespace Scans

variable {code code' : Java.Code} {s t u : Scopes} {refs refs' : List Reference}

theorem nil : Scans [] s s [] :=
  fun hw => ⟨hw, List.prefix_refl _,
    fun _ hm => ⟨hm, rfl, [], (List.append_nil _).symm, fun _ => .nil⟩⟩

/-- Code is scanned in the scopes that the code before it leaves. -/
theorem append (h : Scans code s t refs) (h' : Scans code' t u refs') :
    Scans (code ++ code') s u (refs ++ refs') := by
  intro hw
  obtain ⟨hwt, hgrow, h⟩ := h hw
  obtain ⟨hwu, hgrow', h'⟩ := h' hwt
  refine ⟨hwu, hgrow.trans hgrow', fun st hm => ?_⟩
  obtain ⟨hmt, houter, uses, huses, hkept⟩ := h st hm
  obtain ⟨hmu, houter', uses', huses', hkept'⟩ := h' _ hmt
  rw [Java.Code.scan_append]
  refine ⟨hmu, houter'.trans houter, uses ++ uses', ?_, fun hu => ?_⟩
  · rw [huses', huses, List.append_assoc]
  · exact List.rel_append (hkept (hu.of_prefix hgrow')) (hkept' hu)

theorem plain (text : String) : Scans (Java.plain text) s s [] :=
  nil

theorem after (text : String) (h : Scans code s t refs) :
    Scans (Java.plain text ++ code) s t refs :=
  (plain text).append h

theorem before (h : Scans code s t refs) (text : String) :
    Scans (code ++ Java.plain text) s t refs := by
  have := h.append (plain text)
  rwa [List.append_nil] at this

/-- An open frame without declarations makes no difference. -/
theorem of_enter (h : Scans code s.enter t refs) : Scans code s t refs := by
  intro hw
  obtain ⟨hwt, hgrow, h⟩ := h (Scopes.enter_wf hw)
  exact ⟨hwt, hgrow, fun st hm => h st ⟨hm.visible, hm.declared⟩⟩

/-- Code that declares nothing and uses names bound in `s`, at a place where further declarations
may be visible. -/
theorem shows {names : List String} (hshows : Java.Shows code (names.map s.javaNameOf))
    (hsub : s.visible ⊆ t.visible) (hb : ∀ name ∈ names, s.isBound name = true) :
    Scans code t t (names.map s.declarations.refer) := by
  refine fun hw => ⟨hw, List.prefix_refl _, fun st hm => ?_⟩
  rw [hshows st]
  refine ⟨⟨hm.visible, hm.declared⟩, rfl, _, rfl, fun hu => ?_⟩
  rw [List.map_map, List.forall₂_map_left_iff, List.forall₂_map_right_iff, List.forall₂_same]
  intro name hn
  rw [Function.comp_apply, hm.visible]
  exact kept_of_isBound hw hu hsub (hb name hn)

/-- Declaring a name in the code goes along with adding it to the scopes. -/
theorem declare {name : String} (hname : Java.isSourceName name = true) (type : Ty) (span : Span) :
    Scans [.declare (s.nextName name)] s (s.add name type span).2 [] := by
  refine fun hw => ⟨Scopes.add_wf hw hname type span, Scopes.prefix_add s name type span,
    fun st hm => ⟨⟨?_, ?_⟩, rfl, [], (List.append_nil _).symm, fun _ => .nil⟩⟩
  · have hlength : st.declared.length = s.declared.length := by rw [hm.declared, List.length_map]
    rw [Scopes.visible_add, List.map_cons, ← hm.visible, Scopes.nextBinding, ← hlength]
    rfl
  · rw [Scopes.declared_add, List.map_append, ← hm.declared]
    rfl

/-- What is declared inside of marks is not visible after them. -/
theorem enclosed {opening closing : String} (h : Scans code s t refs) (hw : t.WF → u.WF)
    (hvisible : u.visible = s.visible) (hdeclared : u.declared = t.declared) :
    Scans (Java.enclosed opening closing code) s u refs := by
  intro hws
  obtain ⟨hwt, hgrow, h⟩ := h hws
  refine ⟨hw hwt, hdeclared ▸ hgrow, fun st hm => ?_⟩
  -- the opened scope is empty, so the scan still sees what `s` holds
  obtain ⟨hmt, houter, uses, huses, hkept⟩ := h st.opened ⟨hm.visible, hm.declared⟩
  rw [Java.Code.scan_enclosed, Java.Scan.closed_of_outer houter]
  exact ⟨⟨hm.visible.trans (by rw [hvisible]), hmt.declared.trans (by rw [hdeclared])⟩, rfl, uses,
    huses, fun hu => hkept (hu.of_prefix (hdeclared ▸ List.prefix_refl _))⟩

/-- What is declared in braces is visible up to the closing one. -/
theorem braced (h : Scans code s t refs) (hw : t.WF → u.WF) (hvisible : u.visible = s.visible)
    (hdeclared : u.declared = t.declared) : Scans (Java.bracedCode code) s u refs :=
  h.enclosed hw hvisible hdeclared

end Scans

/-! ## Declarations and assignments -/

section Simple

variable {limit : UInt64} {level : Nat} {s t : Scopes}

/-- Every variable that a checked part mentions is bound. -/
theorem isBound_of_parts {parts : List Expr} {name : String}
    (hclean : parts.flatMap (Expr.violations limit s.isBound level) = [])
    (h : ∃ e ∈ parts, name ∈ e.mentions) : s.isBound name = true := by
  obtain ⟨e, he, hm⟩ := h
  have hv := List.flatMap_eq_nil_iff.1 hclean e he
  exact isBound_of_mentions (List.append_eq_nil_iff.1 hv).2 hm

/-- An expression is emitted with the names of the variables that it mentions, in order. -/
theorem shows_emit (names : String → String) (e : Expr) :
    Java.Shows (e.emit names).code (e.mentions.map names) := by
  rw [← names_emit]
  exact Java.Expr.shows_code _

/-- The names in a checked expression refer to the declarations of the variables that it mentions.
-/
theorem scans_emit {e : Expr} (hclean : e.violations limit s.isBound level = [])
    (hsub : s.visible ⊆ t.visible) :
    Scans (e.emit s.javaNameOf).code t t (e.mentions.map s.declarations.refer) :=
  .shows (shows_emit _ e) hsub fun _ hm =>
    isBound_of_mentions (List.append_eq_nil_iff.1 hclean).2 hm

/-- The value of a declaration stands where the declared variable is visible already. -/
theorem scans_declare {name : String} {type : Ty} {span : Span} {value : Option Java.Expr}
    {names : List String} (hname : Java.isSourceName name = true)
    (hnames : value.elim [] Java.Expr.names = names.map s.javaNameOf)
    (hb : ∀ other ∈ names, s.isBound other = true) :
    Scans (Java.Stmt.declare type (s.nextName name) value).code s (s.add name type span).2
      (names.map s.declarations.refer) := by
  have hdeclare := (Scans.declare (s := s) hname type span).after (type.java ++ " ")
  cases value with
  | none =>
    obtain rfl : names = [] := List.map_eq_nil_iff.1 hnames.symm
    exact hdeclare.before _
  | some value =>
    -- the value sees one declaration more than its references do
    have hsub : s.visible ⊆ (s.add name type span).2.visible := by
      rw [Scopes.visible_add]
      exact List.subset_cons_self _ _
    have hshows : Java.Shows value.code (names.map s.javaNameOf) := hnames ▸ value.shows_code
    exact ((hdeclare.before _).append (Scans.shows hshows hsub hb)).before _

theorem names_declared (names : String → String) (defined : NameDef) (initializer : Option Expr) :
    (if defined.type = .image then
        imageValue (initializer.map fun e => (e.type, e.emit names))
          (defined.dimension.map fun d => (d.width.emit names, d.height.emit names))
      else (initializer.map fun e => (e.type, e.emit names)).map (·.2)).elim [] Java.Expr.names =
      (declarationMentions defined initializer).map names := by
  unfold declarationMentions imageValue
  by_cases himage : defined.type = .image
  · simp only [himage]
    cases initializer with
    | none => cases defined.dimension <;> simp [Java.Expr.names, names_emit]
    | some e =>
      by_cases hstring : e.type = .string <;> cases defined.dimension <;>
        simp [Java.Expr.names, names_emit, hstring]
  · simp only [himage]
    cases initializer <;> simp [names_emit]

theorem mem_declarationMentions {defined : NameDef} {initializer : Option Expr} {name : String}
    (h : name ∈ declarationMentions defined initializer) :
    ∃ e ∈ declarationParts defined initializer, name ∈ e.mentions := by
  unfold declarationMentions at h
  unfold declarationParts
  rcases List.mem_append.1 h with h | h
  · cases initializer with
    | none => cases h
    | some e => exact ⟨e, by simp, h⟩
  · split at h
    · cases hd : defined.dimension with
      | none => rw [hd] at h; cases h
      | some d =>
        rw [hd] at h
        rcases List.mem_append.1 h with h | h
        · exact ⟨d.width, by simp, h⟩
        · exact ⟨d.height, by simp, h⟩
    · cases h

/-- The value of a declaration is read before its variable is declared. -/
theorem scans_declaration {defined : NameDef} {initializer : Option Expr}
    (hparts : (declarationParts defined initializer).flatMap
      (Expr.violations limit s.isBound level) = [])
    (hname : Java.isSourceName defined.name = true) :
    Scans (emitDeclaration s defined initializer).code s
      (s.add defined.name defined.type defined.span).2
      ((declarationMentions defined initializer).map s.declarations.refer) :=
  scans_declare hname (names_declared _ defined initializer) fun _ hm =>
    isBound_of_parts hparts (mem_declarationMentions hm)

/-- Names that stand for something have the same Java name only if they are the same. -/
theorem Scopes.javaNameOf_inj (hw : s.WF) {a b : String} (ha : s.isBound a = true)
    (hb : s.isBound b = true) (h : s.javaNameOf a = s.javaNameOf b) : a = b := by
  obtain ⟨x, hx⟩ := Option.isSome_iff_exists.1 ha
  obtain ⟨y, hy⟩ := Option.isSome_iff_exists.1 hb
  simp only [javaNameOf, hx, hy, Option.elim_some] at h
  have hxm := mem_visible_of_find? hx
  have hym := mem_visible_of_find? hy
  -- a Java name tells its source name even if an overflow has given it to two declarations
  exact (h ▸ hw.made _ hxm).inj (hw.made _ hym) (hw.source _ hxm) (hw.source _ hym)

/-- Whether a value writes to its target can be told by the declarations instead of the names. -/
theorem writesInto_eq_rewrites (hw : s.WF) {target : Target} {value : Expr}
    (htarget : s.isBound target.name = true)
    (hvalue : ∀ v, value.inPlace? = some v → s.isBound v.name = true) :
    writesInto s target value = s.declarations.rewrites target value := by
  unfold writesInto Visible.rewrites
  rw [s.lookup_declarations]
  congr 1
  · cases s.find? target.name <;> rfl
  · cases hv : value.inPlace? with
    | none => rfl
    | some v =>
      rw [Bool.eq_iff_iff]
      simp only [Option.map_some, beq_iff_eq, Option.some.injEq, Option.any_some, decide_eq_true_eq]
      exact ⟨Scopes.javaNameOf_inj hw (hvalue v hv) htarget, fun h => by rw [h]⟩

theorem inPlace_mem_mentions {e : Expr} {v : Variable} (h : e.inPlace? = some v) :
    v.name ∈ e.mentions := by
  cases e with
  | binary left op right type span =>
    have hv : inPlaceVariable? left op right = some v := h
    simp [Expr.mentions, hv]
  | ident | num | str | bool | const | cond | unary | select | selectAt | pixel => cases h

/-- An assignment is emitted with the name of its target, unless its value writes to it already. -/
theorem shows_emitAssignment {target : Target} {value : Expr}
    (h : writesInto s target value = s.declarations.rewrites target value) :
    Java.Shows (emitAssignment s target value).code
      ((assignmentMentions s.declarations target value).map s.javaNameOf) := by
  unfold emitAssignment assignmentMentions
  cases target.pixel with
  | none =>
    cases target.channel with
    | none =>
      simp only [h]
      split
      · rw [List.nil_append, ← names_emit]
        exact Java.shows_perform _
      · rw [List.map_append, ← names_emit]
        exact Java.shows_assign _ _
    | some c =>
      rw [List.map_append, List.map_append, ← names_emit]
      exact Java.shows_assign _ _
  | some p =>
    cases target.channel with
    | none =>
      simp only [List.map_append, ← names_emit]
      exact Java.shows_setPixel _ _ _ _
    | some c =>
      simp only [List.map_append, ← names_emit]
      exact Java.shows_setPixel _ _ _ _

theorem mem_assignmentMentions {visible : Visible} {target : Target} {value : Expr} {name : String}
    (h : name ∈ assignmentMentions visible target value) :
    name = target.name ∨ ∃ e ∈ assignmentParts target value, name ∈ e.mentions := by
  revert h
  unfold assignmentMentions assignmentParts
  cases target.pixel with
  | none => cases target.channel <;> intro h <;> grind
  | some p => cases target.channel <;> intro h <;> grind

theorem scans_assignment {target : Target} {value : Expr}
    (htarget : target.violations s.around = [])
    (hparts : (assignmentParts target value).flatMap
      (Expr.violations limit s.isBound level) = []) :
    Scans (emitAssignment s target value).code s s
      ((assignmentMentions s.declarations target value).map s.declarations.refer) := by
  intro hw
  have hb : s.isBound target.name = true := by
    rw [target.violations_around, List.append_eq_nil_iff, require_eq_nil] at htarget
    exact htarget.1
  have hvalue : ∀ v, value.inPlace? = some v → s.isBound v.name = true := fun v hv =>
    isBound_of_parts hparts ⟨value, by simp [assignmentParts], inPlace_mem_mentions hv⟩
  refine Scans.shows (shows_emitAssignment (writesInto_eq_rewrites hw hb hvalue))
    (List.Subset.refl _) (fun name hm => ?_) hw
  rcases mem_assignmentMentions hm with rfl | hm
  · exact hb
  · exact isBound_of_parts hparts hm

end Simple

/-! ## Numbers of declarations -/

theorem declarations_of_visible {s t : Scopes} (h : s.visible = t.visible) :
    s.declarations = t.declarations := by
  unfold Scopes.declarations
  rw [h]

/-- The declarations that a statement adds are numbered from those before it. -/
theorem Stmt.declarations_scopesAfter (s : Scopes) (stmt : Stmt) :
    (stmt.scopesAfter s).declarations = stmt.binds s.declared.length ++ s.declarations := by
  rw [Scopes.declarations, stmt.visible_scopesAfter, List.map_append]
  cases stmt <;> rfl

mutual

/-- The table lists what a statement declares, in the order of the text. -/
theorem Stmt.declared_scopesAfter (s : Scopes) : ∀ stmt : Stmt,
    (stmt.scopesAfter s).declared.map (·.sourceName) =
      s.declared.map (·.sourceName) ++ stmt.declaredNames
  | .declare defined initializer span => by
    rw [Stmt.scopesAfter, Scopes.declared_add, List.map_append]
    rfl
  | .assign .. | .write .. | .ret .. => by
    simp only [Stmt.scopesAfter, Stmt.declaredNames, List.append_nil]
  | .loop branches span | .choose branches span => declared_branchesScopesAfter s branches
  | .block block => block.declared_scopesAfter s

theorem Block.declared_scopesAfter (s : Scopes) : ∀ block : Block,
    (block.scopesAfter s).declared.map (·.sourceName) =
      s.declared.map (·.sourceName) ++ block.declaredNames
  | .mk body _ => declared_bodyScopesAfter s.enter body

theorem declared_bodyScopesAfter (s : Scopes) : ∀ body : List Stmt,
    (bodyScopesAfter s body).declared.map (·.sourceName) =
      s.declared.map (·.sourceName) ++ bodyDeclaredNames body
  | [] => (List.append_nil _).symm
  | stmt :: rest => by
    rw [bodyScopesAfter, declared_bodyScopesAfter _ rest, stmt.declared_scopesAfter s,
      bodyDeclaredNames, List.append_assoc]

theorem declared_branchesScopesAfter (s : Scopes) : ∀ branches : List Branch,
    (branchesScopesAfter s branches).declared.map (·.sourceName) =
      s.declared.map (·.sourceName) ++ branchesDeclaredNames branches
  | [] => (List.append_nil _).symm
  | .mk _ block _ :: rest => by
    rw [branchesScopesAfter, declared_branchesScopesAfter _ rest, block.declared_scopesAfter s,
      branchesDeclaredNames, List.append_assoc]

end

theorem length_of_sourceNames {s t : Scopes} {names : List String}
    (h : t.declared.map (·.sourceName) = s.declared.map (·.sourceName) ++ names) :
    t.declared.length = s.declared.length + names.length := by
  have := congrArg List.length h
  simpa using this

/-! ## Statements -/

variable {limit : UInt64}

theorem shows_write (names : String → String) (method : Java.Method) (e : Expr) :
    Java.Shows (Java.Stmt.perform (.call1 method (e.emit names))).code (e.mentions.map names) := by
  rw [← names_emit]
  exact Java.shows_perform _

mutual

/-- A checked statement is emitted so that every name refers to the declaration that its variable
had: the induction is on the statement, in any scopes. -/
theorem scans_stmt (level : Nat) (s : Scopes) : ∀ stmt : Stmt,
    stmt.violations limit s.around level = [] →
      Scans (stmt.emit s).code s (stmt.scopesAfter s)
        (stmt.references s.declarations s.declared.length)
  | .declare defined initializer span, h => by
    rw [Stmt.violations, s.declares_around, List.append_eq_nil_iff, require_eq_nil] at h
    exact scans_declaration h.1 h.2
  | .assign target value span, h => by
    rw [Stmt.violations, s.declares_around, List.append_eq_nil_iff] at h
    exact scans_assignment h.1 h.2
  | .write value span, h => by
    rw [Stmt.violations, s.declares_around] at h
    exact .shows (shows_write _ _ value) (List.Subset.refl _) fun _ hm =>
      isBound_of_mentions (List.append_eq_nil_iff.1 h).2 hm
  | .ret value span, h => by
    rw [Stmt.violations, s.declares_around] at h
    exact ((scans_emit h (List.Subset.refl _)).after _).before _
  | .loop branches span, h => by
    rw [Stmt.violations] at h
    have hvisible := visible_branchesScopesAfter s branches
    rw [Stmt.emit, Stmt.scopesAfter, Stmt.references]
    cases hlast : branches.getLast? with
    | none =>
      obtain rfl := List.getLast?_eq_none_iff.1 hlast
      exact .nil
    | some last =>
      -- behind the loop's brace the guard sees what it saw in front of the blocks
      have hguard := guard_clean h (List.mem_of_getLast? hlast)
      rw [s.declares_around] at hguard
      have hloop := (scans_branches level "\n" s branches h).braced id hvisible rfl
      have hagain := scans_emit (t := branchesScopesAfter s branches) hguard
        (fun _ hm => hvisible ▸ hm)
      exact (((hloop.after _).before _).append hagain).before _
  | .choose branches span, h => by
    rw [Stmt.violations] at h
    have hbranches := scans_branches level " else " s branches h
    have hchoice := hbranches.append (Scans.nil.braced id rfl rfl)
    rw [List.append_nil] at hchoice
    rw [Stmt.emit, Stmt.scopesAfter, Stmt.references]
    cases branches with
    | nil => exact .nil
    | cons branch rest =>
      cases branch
      exact hchoice.before _
  | .block block, h => by
    rw [Stmt.violations] at h
    exact (scans_block level s block h).before _

theorem scans_block (level : Nat) (s : Scopes) : ∀ block : Block,
    block.violations limit s.around level = [] →
      Scans (Java.bracedCode (Java.bodyCode (block.emit s))) s (block.scopesAfter s)
        (block.references s.declarations s.declared.length)
  | .mk body span, h => by
    rw [Block.violations, List.append_eq_nil_iff] at h
    have hbody := scans_body (level + 1) s.enter body h.2
    exact hbody.of_enter.braced Scopes.exit_wf ((Block.mk body span).visible_scopesAfter s) rfl

theorem scans_body (level : Nat) (s : Scopes) : ∀ body : List Stmt,
    bodyViolations limit s.around level body = [] →
      Scans (Java.bodyCode (emitBody s body)) s (bodyScopesAfter s body)
        (bodyReferences s.declarations s.declared.length body)
  | [], _ => .nil
  | stmt :: rest, h => by
    rw [bodyViolations, List.append_eq_nil_iff, ← stmt.around_scopesAfter] at h
    have hrest := scans_body level (stmt.scopesAfter s) rest h.2
    rw [stmt.declarations_scopesAfter, length_of_sourceNames (stmt.declared_scopesAfter s)] at hrest
    exact (scans_stmt level s stmt h.1).append hrest

theorem scans_branches (level : Nat) (after : String) (s : Scopes) : ∀ branches : List Branch,
    branchesViolations limit s.around level branches = [] →
      Scans (Java.branchesCode after (emitBranches s branches)) s (branchesScopesAfter s branches)
        (branchesReferences s.declarations s.declared.length branches)
  | [], _ => .nil
  | .mk guard block span :: rest, h => by
    rw [branchesViolations, List.append_eq_nil_iff, List.append_eq_nil_iff, s.declares_around] at h
    have hguard := scans_emit h.1 (List.Subset.refl s.visible)
    have hblock := scans_block level s block h.2.1
    have hrest := scans_branches level after (block.scopesAfter s) rest
      (by rw [block.around_scopesAfter]; exact h.2.2)
    rw [declarations_of_visible (block.visible_scopesAfter s),
      length_of_sourceNames (block.declared_scopesAfter s)] at hrest
    exact ((((hguard.after _).before _).append hblock).before _).append hrest

end

/-! ## Programs -/

theorem scans_params : ∀ (s : Scopes) (params : List NameDef),
    params.flatMap NameDef.violations = [] →
      Scans (Java.separated ((emitParams s params).map Java.Param.code)) s
        (paramsScopesAfter s params) []
  | s, [], _ => .nil
  | s, param :: rest, h => by
    rw [List.flatMap_cons, List.append_eq_nil_iff, NameDef.violations, require_eq_nil] at h
    have hparam := (Scans.declare (s := s) h.1 param.type param.span).after (param.type.java ++ " ")
    have hrest := scans_params (s.add param.name param.type param.span).2 rest h.2
    cases rest with
    | nil => exact hparam
    | cons next rest => exact (hparam.before _).append hrest

theorem declared_paramsScopesAfter : ∀ (s : Scopes) (params : List NameDef),
    (paramsScopesAfter s params).declared.map (·.sourceName) =
      s.declared.map (·.sourceName) ++ params.map (·.name)
  | s, [] => (List.append_nil _).symm
  | s, param :: rest => by
    rw [paramsScopesAfter, declared_paramsScopesAfter _ rest, Scopes.declared_add]
    simp

namespace Program

theorem declarations_blockScopes (program : Program) :
    program.blockScopes.declarations = parametersVisible program.params := by
  refine (visible_paramsScopesAfter (fun name type n => (name, Declaration.mk type n)) _
    program.params).trans ?_
  exact List.append_nil _

theorem length_blockScopes (program : Program) :
    program.blockScopes.declared.length = program.params.length := by
  rw [blockScopes, length_of_sourceNames (declared_paramsScopesAfter ..), List.length_map]
  exact Nat.zero_add _

/-- The table of a compilation lists the names that the program declares, in the order of the text.
-/
theorem sourceNames_compilation (options : Options) (program : Program) :
    (program.compilation options).declared.map (·.sourceName) = program.declaredNames := by
  rw [compilation, program.block.declared_scopesAfter, blockScopes, declared_paramsScopesAfter]
  rfl

/-- Scanning a whole unit ends without an open scope and with the table that compiling gives. -/
theorem scans_unit {options : Options} {program : Program} (h : program.violations options = []) :
    ∃ u : Scopes, u.declared = (program.compilation options).declared ∧
      Scans (program.unit options).code .empty u program.references := by
  simp only [violations, List.append_eq_nil_iff] at h
  obtain ⟨-, -, hparams, hblock⟩ := h
  rw [← program.around_blockScopes] at hblock
  have hparams := scans_params Scopes.empty.enter program.params hparams
  have hblock := scans_block 0 program.blockScopes program.block hblock
  rw [program.declarations_blockScopes, program.length_blockScopes] at hblock
  -- parameters and body are in the scope that the parenthesis opens
  have hmethod := ((hparams.before ") ").append hblock).of_enter
  let u : Scopes := { program.block.scopesAfter program.blockScopes with frames := [] }
  have hu : (program.block.scopesAfter program.blockScopes).WF → u.WF := fun hw =>
    ⟨fun _ hp => (by cases hp), fun _ hp => (by cases hp), hw.counted, fun _ => List.nodup_nil⟩
  exact ⟨u, rfl, ((hmethod.enclosed hu rfl rfl).after _).before _⟩

end Program

/-- The text of a unit is its pieces in their order, whether it is laid out or not: layout moves
nothing but blanks at the ends of lines. -/
theorem trimmedLines_unitText (options : Options) (unit : Java.SourceUnit) :
    Java.trimmedLines (unitText options unit) = Java.trimmedLines unit.code.shown := by
  rw [unit.shown_code, unitText]
  split
  · exact Java.trimmedLines_layout unit.text
  · rfl

/-- Compiling keeps lexical scoping. The source is the text of pieces of Java code, up to blanks at
the ends of its lines, and they declare one variable for each declaration of the program, in the
same order. At each place where the code uses a variable, exactly one declaration that is visible
there has its name, and its number is that of the declaration which static scoping gives for the
reference at this place. The last needs a program with fewer than 2^32 declarations: with more, two
of them may get one Java name. -/
theorem compile_keeps_scoping {options : Options} {program : Program} {c : Compilation}
    (h : (compile options program).value = .ok c) :
    let unit := program.unit options
    let scan := unit.code.scan .start
    c.source = unitText options unit ∧ unit.text = unit.code.shown ∧
      Java.trimmedLines c.source = Java.trimmedLines unit.code.shown ∧
      program.declaredNames = c.declared.map (·.sourceName) ∧
      scan.declared = c.declared.map (·.javaName) ∧
      (program.declaredNames.length < UInt32.size →
        List.Forall₂ Reference.Kept program.references scan.uses) := by
  rw [compile_value] at h
  cases hv : program.violations options with
  | cons fault rest => rw [hv] at h; cases h
  | nil =>
    rw [hv] at h
    cases h
    obtain ⟨u, hdeclared, hscans⟩ := Program.scans_unit hv
    obtain ⟨-, -, hscan⟩ := hscans Scopes.empty_wf
    obtain ⟨hm, -, uses, huses, hkept⟩ := hscan .start ⟨rfl, rfl⟩
    have hnames := program.sourceNames_compilation options
    refine ⟨rfl, (Java.SourceUnit.shown_code _).symm, trimmedLines_unitText _ _, hnames.symm, ?_,
      fun hfew => ?_⟩
    · rw [hm.declared, hdeclared]
    · rw [huses]
      refine hkept (Scopes.unwrapped_of_length ?_)
      rwa [hdeclared, ← List.length_map, hnames]

/-- A program that declares one name again and again: as two parameters, twice in its block, and in
the block of a loop. -/
def redeclaring : Program where
  name := "Redeclaring"
  type := .int
  params := [⟨"a", .int, none, .zero⟩, ⟨"a", .int, none, .zero⟩]
  block :=
    let a : Expr := .ident "a" .int .zero
    let again (value : Expr) : Stmt := .declare ⟨"a", .int, none, .zero⟩ (some value) .zero
    let inner := [again a, .assign ⟨"a", none, none, .int, .zero⟩ a .zero]
    .mk [again a, again (.binary a .plus a .int .zero),
      .loop [.mk (.binary a .gt (.num "0" .zero) .boolean .zero) (.mk inner .zero) .zero] .zero,
      .ret a .zero] .zero
  span := .zero

/-- Options that add nothing to the text of a class. -/
def bareOptions : Options :=
  { Options.default with package := none, libraryPackage := "lib", pretty := false }

/-- The text that it becomes. -/
def redeclaringText : String :=
  "public class Redeclaring \x7b\n" ++
  "public static int apply(int a, int a$1) \x7b\n" ++
  "int a$2 = a$1;\nint a$3 = (a$2 + a$2);\n" ++
  "do \x7b\nif ((a$3 > 0)) \x7b\nint a$4 = a$3;\na$4 = a$4;\n\x7d\n\x7d while ((a$3 > 0));\n" ++
  "return a$3;\n\x7d\n\x7d\n"

theorem redeclaring_keeps_scoping :
    redeclaring.references.map (·.number?) =
        [some 1, some 2, some 2, some 3, some 3, some 4, some 4, some 3, some 3] ∧
      ∃ c, (compile bareOptions redeclaring).value = .ok c ∧ c.source = redeclaringText ∧
        let unit := redeclaring.unit bareOptions
        let scan := unit.code.scan .start
        c.source = unitText bareOptions unit ∧ unit.text = unit.code.shown ∧
          Java.trimmedLines c.source = Java.trimmedLines unit.code.shown ∧
          redeclaring.declaredNames = c.declared.map (·.sourceName) ∧
          scan.declared = c.declared.map (·.javaName) ∧
          List.Forall₂ Reference.Kept redeclaring.references scan.uses := by
  have hclean : redeclaring.violations bareOptions = [] := by decide +kernel
  have h : (compile bareOptions redeclaring).value = .ok (redeclaring.compilation bareOptions) := by
    rw [compile_value, hclean]
    rfl
  have htext : (redeclaring.compilation bareOptions).source = redeclaringText := by decide +kernel
  obtain ⟨hsource, hshown, hlines, hnames, hdeclared, hkept⟩ := compile_keeps_scoping h
  exact ⟨by decide, _, h, htext, hsource, hshown, hlines, hnames, hdeclared, hkept (by decide)⟩

end PixelJava
