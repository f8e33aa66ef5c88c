/-
The layout of emitted sources. The names and literals of emitted statements are of the kinds that
the source program gives them, so they have no braces outside literals and no line ends; the text of
the emitted unit is nested, and the laid out source is indented by its braces.
-/
import PixelJava.Proofs.Java.Indentation
import PixelJava.Proofs.Lowering.Imports

namespace PixelJava

variable {limit : UInt64} {level : Nat} {s : Scopes} {num str : String → Bool} {P : String → Prop}

/-! ## Names and literals of statements -/

/-- All names and literals of the code of an expression are as `P` says. -/
def Expr.EmitsOnly (P : String → Prop) (s : Scopes) (e : Expr) : Prop :=
  ∀ leaf ∈ (e.emit s.javaNameOf).leaves, P leaf

/-- What a rule says of names and literals holds of all that a checked expression is emitted as. -/
theorem LeafRule.emitsOnly (rule : LeafRule num str P) (hw : s.WF) {e : Expr}
    (hclean : e.violations limit s.isBound level = []) (hlit : e.literalsAre num str = true) :
    e.EmitsOnly P s :=
  leaves_emit rule hlit (isName_of_mentions hw hclean)

theorem LeafRule.parts (rule : LeafRule num str P) (hw : s.WF) {parts : List Expr}
    (hclean : parts.flatMap (Expr.violations limit s.isBound level) = [])
    (hlit : parts.all (Expr.literalsAre num str) = true) : ∀ e ∈ parts, e.EmitsOnly P s :=
  fun e he => rule.emitsOnly hw (List.flatMap_eq_nil_iff.1 hclean e he) (List.all_eq_true.1 hlit e he)

theorem leaves_declaration {defined : NameDef} {initializer : Option Expr}
    (hname : P (s.nextName defined.name))
    (hparts : ∀ e ∈ declarationParts defined initializer, e.EmitsOnly P s) :
    ∀ leaf ∈ (emitDeclaration s defined initializer).leaves, P leaf := by
  rw [emitDeclaration_eq, Java.Stmt.leaves, List.forall_mem_cons]
  refine ⟨hname, fun leaf hleaf => ?_⟩
  obtain ⟨e, he, hmem⟩ := mem_leaves_declared hleaf
  exact hparts e he leaf hmem

theorem leaves_assignment {target : Target} {value : Expr} (hname : P (s.javaNameOf target.name))
    (hparts : ∀ e ∈ assignmentParts target value, e.EmitsOnly P s) :
    ∀ leaf ∈ (emitAssignment s target value).leaves, P leaf := by
  have hvalue : value.EmitsOnly P s := hparts value (by simp [assignmentParts])
  unfold emitAssignment
  unfold assignmentParts at hparts
  cases hpixel : target.pixel with
  | none =>
    cases target.channel with
    | none =>
      dsimp only
      split
      · exact hvalue
      · exact List.forall_mem_cons.2 ⟨hname, hvalue⟩
    | some c => exact List.forall_mem_cons.2 ⟨hname, List.forall_mem_cons.2 ⟨hname, hvalue⟩⟩
  | some p =>
    simp only [hpixel, Option.elim_some, List.cons_append, List.nil_append, List.forall_mem_cons]
      at hparts
    obtain ⟨hx, hy, -⟩ := hparts
    cases target.channel with
    | none =>
      simp only [Java.Stmt.leaves, List.forall_mem_cons, List.forall_mem_append]
      exact ⟨hname, hx, hy, hvalue⟩
    | some c =>
      simp only [Java.Stmt.leaves, Java.Expr.leaves, List.forall_mem_cons, List.forall_mem_append]
      exact ⟨hname, hx, hy, ⟨⟨hname, fun _ h => (by cases h)⟩, hx, hy⟩, hvalue⟩

mutual

/-- The names and literals of the code of a statement are of the kinds of its own. -/
theorem leaves_stmt (rule : LeafRule num str P) (level : Nat) (s : Scopes) (hw : s.WF) :
    ∀ stmt : Stmt, stmt.violations limit s.around level = [] →
      (∀ node ∈ stmt.nodes, node.parts.all (Expr.literalsAre num str) = true) →
        ∀ leaf ∈ (stmt.emit s).leaves, P leaf
  | .declare defined initializer span, h, hlit => by
    rw [Stmt.violations, s.declares_around, List.append_eq_nil_iff, require_eq_nil] at h
    exact leaves_declaration (rule.name _ (Scopes.isName_nextName h.2))
      (rule.parts hw h.1 (hlit _ List.mem_cons_self))
  | .assign target value span, h, hlit => by
    rw [Stmt.violations, s.declares_around, List.append_eq_nil_iff] at h
    have hname := Scopes.isName_javaNameOf hw (Scopes.isBound_of_target h.1)
    exact leaves_assignment (rule.name _ hname) (rule.parts hw h.2 (hlit _ List.mem_cons_self))
  | .write value span, h, hlit => by
    rw [Stmt.violations, s.declares_around] at h
    have hvalue := List.all_eq_true.1 (hlit _ List.mem_cons_self) value List.mem_cons_self
    exact rule.emitsOnly hw h hvalue
  | .ret value span, h, hlit => by
    rw [Stmt.violations, s.declares_around] at h
    have hvalue := List.all_eq_true.1 (hlit _ List.mem_cons_self) value List.mem_cons_self
    exact rule.emitsOnly hw h hvalue
  | .loop branches span, h, hlit => by
    rw [Stmt.violations] at h
    have hguards := List.all_eq_true.1 (hlit _ List.mem_cons_self)
    have hbranches := leaves_branches rule level s hw branches h hguards
      fun node hnode => hlit node (List.mem_cons_of_mem _ hnode)
    rw [Stmt.emit]
    cases hlast : branches.getLast? with
    | none => exact fun leaf hleaf => (by cases hleaf)
    | some last =>
      have hmem := List.mem_of_getLast? hlast
      have hclean := guard_clean h hmem
      rw [s.declares_around] at hclean
      rw [Java.Stmt.leaves, List.forall_mem_append]
      exact ⟨hbranches, rule.emitsOnly hw hclean (hguards _ (List.mem_map_of_mem hmem))⟩
  | .choose branches span, h, hlit => by
    rw [Stmt.violations] at h
    have hguards := List.all_eq_true.1 (hlit _ List.mem_cons_self)
    have hbranches := leaves_branches rule level s hw branches h hguards
      fun node hnode => hlit node (List.mem_cons_of_mem _ hnode)
    rw [Stmt.emit]
    split
    · exact fun leaf hleaf => (by cases hleaf)
    · exact hbranches
  | .block block, h, hlit => by
    rw [Stmt.violations] at h
    exact leaves_block rule level s hw block h fun node hnode =>
      hlit node (List.mem_cons_of_mem _ hnode)

theorem leaves_block (rule : LeafRule num str P) (level : Nat) (s : Scopes) (hw : s.WF) :
    ∀ block : Block, block.violations limit s.around level = [] →
      (∀ node ∈ block.nodes, node.parts.all (Expr.literalsAre num str) = true) →
        ∀ leaf ∈ Java.bodyLeaves (block.emit s), P leaf
  | .mk body span, h, hlit => by
    rw [Block.violations, List.append_eq_nil_iff] at h
    exact leaves_body rule (level + 1) s.enter (Scopes.enter_wf hw) body h.2 hlit

/-- What a rule says of names and literals holds all over a checked body. -/
theorem leaves_body (rule : LeafRule num str P) (level : Nat) (s : Scopes) (hw : s.WF) :
    ∀ body : List Stmt, bodyViolations limit s.around level body = [] →
      (∀ node ∈ bodyNodes body, node.parts.all (Expr.literalsAre num str) = true) →
        ∀ leaf ∈ Java.bodyLeaves (emitBody s body), P leaf
  | [], _, _ => fun leaf hleaf => (by cases hleaf)
  | stmt :: rest, h, hlit => by
    rw [bodyViolations, List.append_eq_nil_iff, ← stmt.around_scopesAfter] at h
    rw [bodyNodes, List.forall_mem_append] at hlit
    have hw' : (stmt.scopesAfter s).WF := (scans_stmt level s stmt h.1 hw).1
    rw [emitBody, Java.bodyLeaves, List.forall_mem_append]
    exact ⟨leaves_stmt rule level s hw stmt h.1 hlit.1,
      leaves_body rule level (stmt.scopesAfter s) hw' rest h.2 hlit.2⟩

theorem leaves_branches (rule : LeafRule num str P) (level : Nat) (s : Scopes) (hw : s.WF) :
    ∀ branches : List Branch, branchesViolations limit s.around level branches = [] →
      (∀ guard ∈ branches.map Branch.guard, guard.literalsAre num str = true) →
      (∀ node ∈ branchesNodes branches, node.parts.all (Expr.literalsAre num str) = true) →
        ∀ leaf ∈ Java.branchesLeaves (emitBranches s branches), P leaf
  | [], _, _, _ => fun leaf hleaf => (by cases hleaf)
  | .mk guard block span :: rest, h, hguards, hlit => by
    rw [branchesViolations, List.append_eq_nil_iff, List.append_eq_nil_iff, s.declares_around] at h
    rw [List.map_cons, List.forall_mem_cons] at hguards
    rw [branchesNodes, List.forall_mem_append] at hlit
    have hw' : (block.scopesAfter s).WF := (scans_block level s block h.2.1 hw).1
    rw [emitBranches, Java.branchesLeaves, List.forall_mem_append, List.forall_mem_append]
    exact ⟨rule.emitsOnly hw h.1 hguards.1, leaves_block rule level s hw block h.2.1 hlit.1,
      leaves_branches rule level (block.scopesAfter s) hw' rest
        (by rw [block.around_scopesAfter]; exact h.2.2) hguards.2 hlit.2⟩

end

/-! ## Programs -/

theorem leafRule_neutral :
    LeafRule isDigits Java.isLineLiteral fun leaf => Java.Neutral leaf.toList where
  name _ h := Java.neutral_of_isName h
  bool value := by
    cases value <;> exact Java.neutral_of_isPlainMark (by decide)
  integer := Java.neutral_integerText
  num _ h := Java.neutral_of_isPlain fun c hc =>
    Java.isPlain_of_isDigit (List.all_eq_true.1 h c hc)
  str _ h := Java.neutral_of_isLineLiteral h

/-- Parameters are emitted under names. -/
theorem isName_emitParams : ∀ (s : Scopes) (params : List NameDef),
    params.flatMap NameDef.violations = [] →
      ∀ p ∈ emitParams s params, Java.isName p.name = true
  | s, [], _ => fun p hp => (by cases hp)
  | s, param :: rest, h => by
    rw [List.flatMap_cons, List.append_eq_nil_iff, NameDef.violations, require_eq_nil] at h
    rw [emitParams, List.forall_mem_cons]
    exact ⟨Scopes.isName_nextName h.1, isName_emitParams _ rest h.2⟩

/-- The unit of a checked program closes every brace that it opens. -/
theorem Program.nested_unit {options : Options} {program : Program}
    (h : program.violations options = [])
    (hlit : ∀ stmt ∈ program.block.nodes,
      stmt.parts.all (Expr.literalsAre isDigits Java.isLineLiteral) = true) :
    Java.Nested (program.unit options).text.toList := by
  simp only [violations, Options.violations, List.append_eq_nil_iff, require_eq_nil] at h
  obtain ⟨⟨hpackage, hhome, hentry⟩, hname, hparams, hblock⟩ := h
  have hpackage : ∀ p, options.package = some p → Java.isPackage p = true := by
    intro p hp
    simpa [hp] using hpackage
  have hw : program.blockScopes.WF :=
    (scans_params Scopes.empty.enter program.params hparams (Scopes.enter_wf Scopes.empty_wf)).1
  rw [← program.around_blockScopes] at hblock
  exact Java.SourceUnit.nested_text hname hentry (isName_emitParams _ _ hparams) hpackage hhome
    (leaves_block leafRule_neutral 0 program.blockScopes hw program.block hblock hlit)

/-- With the option set, the source is the layout of the unit. -/
theorem Program.source_of_pretty {options : Options} {program : Program}
    (h : options.pretty = true) :
    (program.compilation options).source = Java.layout (program.unit options).text := by
  rw [compilation, unitText, if_pos h]

/-- A laid out source closes no brace before it opens it and closes all of them, and each of its lines
that is not empty begins with four spaces for each brace that is open before it and that it does not
begin with closing, and then with a character that is no blank. -/
theorem compile_source_indented {options : Options} {program : Program} {c : Compilation}
    (h : (compile options program).value = .ok c) (hpretty : options.pretty = true)
    (hlit : ∀ stmt ∈ program.block.nodes,
      stmt.parts.all (Expr.literalsAre isDigits Java.isLineLiteral) = true) :
    (∀ before, before <+: c.source.toList → 0 ≤ Java.braceDepth before) ∧
      Java.braceDepth c.source.toList = 0 ∧
      ∀ before line, Text.LineAt c.source.toList before line → line ≠ [] →
        Java.closings line ≤ Java.braceDepth before ∧
          ∃ first rest, Text.isBlank first = false ∧ line =
            List.replicate (4 * (Java.braceDepth before - Java.closings line)).toNat ' ' ++
              first :: rest := by
  rw [compile_value] at h
  obtain ⟨hclean, rfl⟩ := accept_eq_ok h
  have hnested := Program.nested_unit hclean hlit
  rw [Program.source_of_pretty hpretty]
  obtain ⟨hopen, hclosed⟩ := hnested.braceDepth_layout
  exact ⟨hopen, hclosed, fun before line hline hne => hnested.indent_of_lineAt hline hne⟩

/-- A program that writes braces, quotes and a backslash from inside three blocks. -/
def braces : Program where
  name := "Braces"
  type := .void
  params := []
  block :=
    let always : Expr := .bool true .zero
    let marks : Stmt := .write (.str "\"\x7d \\\" \x7b \\\\\"" .zero) .zero
    let choice : Stmt := .choose [.mk always (.mk [marks] .zero) .zero] .zero
    .mk [.loop [.mk always (.mk [choice] .zero) .zero] .zero] .zero
  span := .zero

/-- Options with short packages. -/
def unpackaged : Options :=
  { Options.default with package := none, libraryPackage := "lib" }

theorem braces_indented :
    (∀ stmt ∈ braces.block.nodes,
        stmt.parts.all (Expr.literalsAre isDigits Java.isLineLiteral) = true) ∧
      ∃ c, (compile unpackaged braces).value = .ok c ∧
        Text.lines c.source.toList = ["import lib.ConsoleIO;", "", "public class Braces \x7b",
          "    public static void apply() \x7b",
          "        do \x7b",
          "            if (true) \x7b",
          "                if (true) \x7b",
          "                    ConsoleIO.write(\"\x7d \\\" \x7b \\\\\");",
          "                \x7d else \x7b",
          "                \x7d",
          "            \x7d",
          "        \x7d while (true);",
          "    \x7d",
          "\x7d"].map String.toList ∧
        (∀ before, before <+: c.source.toList → 0 ≤ Java.braceDepth before) ∧
          Java.braceDepth c.source.toList = 0 ∧
          ∀ before line, Text.LineAt c.source.toList before line → line ≠ [] →
            Java.closings line ≤ Java.braceDepth before ∧
              ∃ first rest, Text.isBlank first = false ∧ line =
                List.replicate (4 * (Java.braceDepth before - Java.closings line)).toNat ' ' ++
                  first :: rest := by
  have hlit : ∀ stmt ∈ braces.block.nodes,
      stmt.parts.all (Expr.literalsAre isDigits Java.isLineLiteral) = true := by decide +kernel
  have hclean : braces.violations unpackaged = [] := by decide +kernel
  have h : (compile unpackaged braces).value = .ok (braces.compilation unpackaged) := by
    rw [compile_value, hclean]
    rfl
  refine ⟨hlit, _, h, ?_, compile_source_indented h rfl hlit⟩
  rw [Program.source_of_pretty rfl, Java.lines_layout]
  decide +kernel

end PixelJava
