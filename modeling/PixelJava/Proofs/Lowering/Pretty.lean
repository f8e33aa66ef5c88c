/-
The option to lay out the source changes nothing but blanks at the ends of lines. What is emitted has
the same trimmed lines with it and without it; and if the literals of the program stand on one line
each, no emitted line has blanks at its ends, so that the source without layout is the one with layout
less its indentation.
-/
import PixelJava.Proofs.Java.Margin
import PixelJava.Proofs.Java.Relayout
import PixelJava.Proofs.Lowering.Layout

namespace PixelJava

variable {limit : UInt64} {level : Nat} {s : Scopes}

/-! ## Statements -/

/-- Names and literals on one line are trimmed. -/
theorem leafRule_trimmed :
    LeafRule isDigits Java.isLineLiteral fun leaf => Java.Trimmed leaf.toList where
  name _ h := .of_isMargin (Java.isMargin_name h)
  bool value := by
    cases value <;> exact .of_isMargin (by decide)
  integer n := .of_chars fun c hc => by
    rcases Java.mem_integerText hc with hdigit | hmark
    · exact Java.isBlank_of_isDigit hdigit
    · have hmarks : "(-)".toList.all (!Text.isBlank ·) = true := by decide
      simpa using List.all_eq_true.1 hmarks c hmark
  num _ h := .of_chars fun c hc => Java.isBlank_of_isDigit (List.all_eq_true.1 h c hc)
  str _ h := Java.trimmed_of_isLineLiteral h

/-- The literals that stand directly in statements are digits, and strings on one line. -/
abbrev OnLines (nodes : List Stmt) : Prop :=
  ∀ node ∈ nodes, node.parts.all (Expr.literalsAre isDigits Java.isLineLiteral) = true

theorem trimmed_emit (hw : s.WF) {e : Expr} (h : e.violations limit s.isBound level = [])
    (hlit : e.literalsAre isDigits Java.isLineLiteral = true) :
    Java.Trimmed (e.emit s.javaNameOf).text.toList :=
  Java.Expr.trimmed_text (leafRule_trimmed.emitsOnly hw h hlit)

theorem flush_declaration {defined : NameDef} {initializer : Option Expr}
    (hname : Java.isSourceName defined.name = true)
    (hparts : ∀ e ∈ declarationParts defined initializer,
      e.EmitsOnly (fun leaf => Java.Trimmed leaf.toList) s) :
    Java.FlushLines (emitDeclaration s defined initializer).text.toList := by
  rw [emitDeclaration_eq]
  refine .declare _ (Java.newline_notMem_name (Scopes.isName_nextName hname)) fun value hvalue => ?_
  refine (Java.Expr.trimmed_text fun leaf hleaf => ?_).line
  have hdeclared : leaf ∈ (declaredValue s.javaNameOf defined initializer).elim [] Java.Expr.leaves := by
    rw [hvalue]
    exact hleaf
  obtain ⟨e, he, hmem⟩ := mem_leaves_declared hdeclared
  exact hparts e he leaf hmem

theorem flush_assignment {target : Target} {value : Expr}
    (hname : Java.isName (s.javaNameOf target.name) = true)
    (hparts : ∀ e ∈ assignmentParts target value,
      e.EmitsOnly (fun leaf => Java.Trimmed leaf.toList) s) :
    Java.FlushLines (emitAssignment s target value).text.toList := by
  have hvalue : value.EmitsOnly (fun leaf => Java.Trimmed leaf.toList) s :=
    hparts value (by simp [assignmentParts])
  have hvar : Java.Trimmed (s.javaNameOf target.name).toList := leafRule_trimmed.name _ hname
  unfold emitAssignment
  unfold assignmentParts at hparts
  cases hpixel : target.pixel with
  | none =>
    cases target.channel with
    | none =>
      dsimp only
      split
      · exact .statement (Java.Expr.trimmed_text hvalue)
      · exact .assign hname (Java.Expr.trimmed_text hvalue).line
    | some c =>
      refine .assign hname (Java.Expr.trimmed_text ?_).line
      simp only [Java.Expr.leaves, List.cons_append, List.nil_append, List.forall_mem_cons]
      exact ⟨hvar, hvalue⟩
  | some p =>
    simp only [hpixel, Option.elim_some, List.cons_append, List.nil_append, List.forall_mem_cons]
      at hparts
    obtain ⟨hx, hy, -⟩ := hparts
    have hcoordinates := And.intro (Java.Expr.trimmed_text hx).line (Java.Expr.trimmed_text hy).line
    cases target.channel with
    | none =>
      exact .setPixel hname hcoordinates.1 hcoordinates.2 (Java.Expr.trimmed_text hvalue).line
    | some c =>
      refine .setPixel hname hcoordinates.1 hcoordinates.2 (Java.Expr.trimmed_text ?_).line
      simp only [Java.Expr.leaves, List.forall_mem_cons, List.forall_mem_append]
      exact ⟨⟨⟨hvar, fun _ h => (by cases h)⟩, hx, hy⟩, hvalue⟩

mutual

/-- The lines of the code of a statement are flush. -/
theorem flush_stmt (level : Nat) (s : Scopes) (hw : s.WF) : ∀ stmt : Stmt,
    stmt.violations limit s.around level = [] → OnLines stmt.nodes →
      Java.FlushLines (stmt.emit s).text.toList
  | .declare defined initializer span, h, hlit => by
    rw [Stmt.violations, s.declares_around, List.append_eq_nil_iff, require_eq_nil] at h
    exact flush_declaration h.2 (leafRule_trimmed.parts hw h.1 (hlit _ List.mem_cons_self))
  | .assign target value span, h, hlit => by
    rw [Stmt.violations, s.declares_around, List.append_eq_nil_iff] at h
    exact flush_assignment (Scopes.isName_javaNameOf hw (Scopes.isBound_of_target h.1))
      (leafRule_trimmed.parts hw h.2 (hlit _ List.mem_cons_self))
  | .write value span, h, hlit => by
    rw [Stmt.violations, s.declares_around] at h
    have hvalue := List.all_eq_true.1 (hlit _ List.mem_cons_self) value List.mem_cons_self
    exact .statement (Java.Expr.trimmed_text
      (e := .call1 (if value.type = .pixel then .writePixel else .write) (value.emit s.javaNameOf))
      (leafRule_trimmed.emitsOnly hw h hvalue))
  | .ret value span, h, hlit => by
    rw [Stmt.violations, s.declares_around] at h
    have hvalue := List.all_eq_true.1 (hlit _ List.mem_cons_self) value List.mem_cons_self
    exact .ret (trimmed_emit hw h hvalue).line
  | .loop branches span, h, hlit => by
    rw [Stmt.violations] at h
    have hguards := List.all_eq_true.1 (hlit _ List.mem_cons_self)
    have hbranches := flush_branches level s hw branches h hguards
      fun node hnode => hlit node (List.mem_cons_of_mem _ hnode)
    rw [Stmt.emit]
    cases hlast : branches.getLast? with
    | none => exact .nil
    | some last =>
      have hmem := List.mem_of_getLast? hlast
      have hclean := guard_clean h hmem
      rw [s.declares_around] at hclean
      exact .loop hbranches (trimmed_emit hw hclean (hguards _ (List.mem_map_of_mem hmem))).line
  | .choose branches span, h, hlit => by
    rw [Stmt.violations] at h
    have hguards := List.all_eq_true.1 (hlit _ List.mem_cons_self)
    have hbranches := flush_branches level s hw branches h hguards
      fun node hnode => hlit node (List.mem_cons_of_mem _ hnode)
    rw [Stmt.emit]
    split
    · exact .nil
    · exact .choose hbranches
  | .block block, h, hlit => by
    rw [Stmt.violations] at h
    exact .block (flush_block level s hw block h fun node hnode =>
      hlit node (List.mem_cons_of_mem _ hnode))

theorem flush_block (level : Nat) (s : Scopes) (hw : s.WF) : ∀ block : Block,
    block.violations limit s.around level = [] → OnLines block.nodes →
      Java.FlushLines (Java.bodyText (block.emit s)).toList
  | .mk body span, h, hlit => by
    rw [Block.violations, List.append_eq_nil_iff] at h
    exact flush_body (level + 1) s.enter (Scopes.enter_wf hw) body h.2 hlit

theorem flush_body (level : Nat) (s : Scopes) (hw : s.WF) : ∀ body : List Stmt,
    bodyViolations limit s.around level body = [] → OnLines (bodyNodes body) →
      Java.FlushLines (Java.bodyText (emitBody s body)).toList
  | [], _, _ => .nil
  | stmt :: rest, h, hlit => by
    rw [bodyViolations, List.append_eq_nil_iff, ← stmt.around_scopesAfter] at h
    rw [OnLines, bodyNodes, List.forall_mem_append] at hlit
    have hw' : (stmt.scopesAfter s).WF := (scans_stmt level s stmt h.1 hw).1
    rw [emitBody, Java.bodyText, String.toList_append]
    exact (flush_stmt level s hw stmt h.1 hlit.1).append
      (flush_body level (stmt.scopesAfter s) hw' rest h.2 hlit.2)

theorem flush_branches (level : Nat) (s : Scopes) (hw : s.WF) : ∀ branches : List Branch,
    branchesViolations limit s.around level branches = [] →
      (∀ guard ∈ branches.map Branch.guard,
        guard.literalsAre isDigits Java.isLineLiteral = true) →
      OnLines (branchesNodes branches) →
        ∀ branch ∈ emitBranches s branches, branch.IsFlush
  | [], _, _, _ => fun branch hbranch => (by cases hbranch)
  | .mk guard block span :: rest, h, hguards, hlit => by
    rw [branchesViolations, List.append_eq_nil_iff, List.append_eq_nil_iff, s.declares_around] at h
    rw [List.map_cons, List.forall_mem_cons] at hguards
    rw [OnLines, branchesNodes, List.forall_mem_append] at hlit
    have hw' : (block.scopesAfter s).WF := (scans_block level s block h.2.1 hw).1
    rw [emitBranches, List.forall_mem_cons]
    exact ⟨⟨(trimmed_emit hw h.1 hguards.1).line, flush_block level s hw block h.2.1 hlit.1⟩,
      flush_branches level (block.scopesAfter s) hw' rest
        (by rw [block.around_scopesAfter]; exact h.2.2) hguards.2 hlit.2⟩

end

/-! ## Programs -/

/-- A checked program with its literals on lines of their own is emitted in flush lines. -/
theorem Program.flushLines_unit {options : Options} {program : Program}
    (h : program.violations options = []) (hlit : OnLines program.block.nodes) :
    Java.FlushLines (program.unit options).text.toList := by
  simp only [violations, Options.violations, List.append_eq_nil_iff, require_eq_nil] at h
  obtain ⟨⟨hpackage, hhome, hentry⟩, hname, hparams, hblock⟩ := h
  have hpackage : ∀ p, options.package = some p → Java.isPackage p = true := by
    intro p hp
    simpa [hp] using hpackage
  have hw : program.blockScopes.WF :=
    (scans_params Scopes.empty.enter program.params hparams (Scopes.enter_wf Scopes.empty_wf)).1
  rw [← program.around_blockScopes] at hblock
  exact Java.SourceUnit.flushLines_text hname hentry (isName_emitParams _ _ hparams) hpackage hhome
    (flush_block 0 program.blockScopes hw program.block hblock hlit)

/-- Whether the source is laid out plays no part in what can be wrong with a program. -/
theorem Program.violations_pretty (options : Options) (program : Program) (pretty : Bool) :
    program.violations { options with pretty := pretty } = program.violations options := rfl

/-- What a program compiles to, with layout or without it. -/
theorem Program.compilation_pretty (options : Options) (program : Program) :
    program.compilation { options with pretty := true } =
        { program.compilation options with
          source := Java.layout (program.unit options).text } ∧
      program.compilation { options with pretty := false } =
        { program.compilation options with source := (program.unit options).text } :=
  ⟨rfl, rfl⟩

/-- Laying out the source changes blanks at the ends of its lines and nothing else. With layout and
without it a program fails alike, or compiles to the same class and table; the sources have equally
many lines, which are the same when they are trimmed. If the numbers of the program are digits and its
strings stand on one line each, deleting the spaces that the laid out lines begin with gives back the
other source. -/
theorem pretty_changes_margins (options : Options) (program : Program) :
    let laid := (compile { options with pretty := true } program).value
    let plain := (compile { options with pretty := false } program).value
    (∃ fault, laid = .error fault ∧ plain = .error fault) ∨
      ∃ c d, laid = .ok c ∧ plain = .ok d ∧ c.className = d.className ∧ c.declared = d.declared ∧
        (Text.lines c.source.toList).length = (Text.lines d.source.toList).length ∧
        (Text.lines c.source.toList).map Text.trim = (Text.lines d.source.toList).map Text.trim ∧
        ((∀ stmt ∈ program.block.nodes,
            stmt.parts.all (Expr.literalsAre isDigits Java.isLineLiteral) = true) →
          Java.unindent c.source = d.source) := by
  simp only [compile_value, Program.violations_pretty, (program.compilation_pretty options).1,
    (program.compilation_pretty options).2]
  cases hfaults : program.violations options with
  | cons fault rest => exact .inl ⟨fault, rfl, rfl⟩
  | nil =>
    have hflush := Program.flushLines_unit hfaults
    generalize (program.unit options).text = text at hflush ⊢
    have htrimmed : (Text.lines (Java.layout text).toList).map Text.trim =
        (Text.lines text.toList).map Text.trim := Java.trimmedLines_layout text
    refine .inr ⟨_, _, rfl, rfl, rfl, rfl, ?_, htrimmed, fun hlit => ?_⟩
    · simpa only [List.length_map] using congrArg List.length htrimmed
    · exact Java.unindent_layout (hflush hlit)

/-- A program that writes a string with blanks of several kinds at its ends, with braces, quotes and a
carriage return in it, from inside two blocks. -/
def padded : Program where
  name := "Padded"
  type := .void
  params := []
  block :=
    let text : Expr := .str "\" \u2003\x7d\\\"\r\x7b\t \"" .zero
    let guarded : Branch := .mk (.bool true .zero) (.mk [.write text .zero] .zero) .zero
    .mk [.choose [guarded, guarded] .zero, .ret (.num "07" .zero) .zero] .zero
  span := .zero

theorem padded_changes_margins :
    (∀ stmt ∈ padded.block.nodes,
        stmt.parts.all (Expr.literalsAre isDigits Java.isLineLiteral) = true) ∧
      ∃ c d, (compile { unpackaged with pretty := true } padded).value = .ok c ∧
        (compile { unpackaged with pretty := false } padded).value = .ok d ∧
        c.source ≠ d.source ∧ Java.unindent c.source = d.source := by
  have hlit : ∀ stmt ∈ padded.block.nodes,
      stmt.parts.all (Expr.literalsAre isDigits Java.isLineLiteral) = true := by decide +kernel
  have hclean : padded.violations unpackaged = [] := by decide +kernel
  have hlaid : (compile { unpackaged with pretty := true } padded).value = .ok _ :=
    compile_of_clean hclean
  have hplain : (compile { unpackaged with pretty := false } padded).value = .ok _ :=
    compile_of_clean hclean
  refine ⟨hlit, ?_⟩
  rcases pretty_changes_margins unpackaged padded with
    ⟨fault, hfault, -⟩ | ⟨c, d, hc, hd, -, -, -, -, hunindent⟩
  · cases hfault.symm.trans hlaid
  · refine ⟨c, d, hc, hd, ?_, hunindent hlit⟩
    rw [← Except.ok.inj (hlaid.symm.trans hc), ← Except.ok.inj (hplain.symm.trans hd)]
    decide +kernel

end PixelJava
