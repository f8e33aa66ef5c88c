/-
The bound on the nesting is an exact threshold. The height of a tree counts the blocks and the
expressions on the longest path into it. Compiling with a limit succeeds just where it succeeds with
the greatest limit and the height is within the limit, always with the same result; and faults that
are not about nesting are the same for every limit.
-/
import PixelJava.Proofs.Lowering.Result

namespace PixelJava

/-! ## Heights -/

def Expr.height : Expr → Nat
  | .ident .. | .num .. | .str .. | .bool .. | .const .. => 1
  | .cond guard whenTrue whenFalse _ _ =>
    max guard.height (max whenTrue.height whenFalse.height) + 1
  | .binary left _ right _ _ => max left.height right.height + 1
  | .unary _ operand _ _ => operand.height + 1
  | .select primary _ _ _ => primary.height + 1
  | .selectAt primary x y _ _ _ _ => max primary.height (max x.height y.height) + 1
  | .pixel red green blue _ => max red.height (max green.height blue.height) + 1

/-- The height of the highest of some expressions. -/
def highest (parts : List Expr) : Nat :=
  parts.foldr (fun e height => max e.height height) 0

mutual

/-- The height of what is inside a statement, which itself counts as no level. -/
def Stmt.height : Stmt → Nat
  | .declare defined initializer _ => highest (declarationParts defined initializer)
  | .assign target value _ => highest (assignmentParts target value)
  | .write value _ | .ret value _ => value.height
  | .loop branches _ | .choose branches _ => branchesHeight branches
  | .block block => block.height

def Block.height : Block → Nat
  | .mk body _ => bodyHeight body + 1

def bodyHeight : List Stmt → Nat
  | [] => 0
  | stmt :: rest => max stmt.height (bodyHeight rest)

def branchesHeight : List Branch → Nat
  | [] => 0
  | .mk guard block _ :: rest => max guard.height (max block.height (branchesHeight rest))

end

def Program.height (program : Program) : Nat :=
  program.block.height

/-! ## Faults under all limits -/

/-- Whether the fault is about nesting. -/
def Fault.isDeep (fault : Fault) : Bool :=
  match fault.cause with
  | .tooDeep _ => true
  | _ => false

theorem isDeep_require {holds : Bool} {cause : Cause} {position : Position}
    (h : Fault.isDeep ⟨cause, position⟩ = false) :
    ∀ fault ∈ require holds cause position, fault.isDeep = false := by
  intro fault hf
  cases holds with
  | true => cases hf
  | false => rwa [List.mem_singleton.1 hf]

/-- The faults that a tree of the given height has under each limit, where it stands `level` deep:
those about nesting name the limit, and there are some just if the tree reaches beyond it; the others
are the same under every limit. -/
structure Threshold (level : Nat) (faults : UInt64 → List Fault) (height : Nat) : Prop where
  others : ∀ m n, (faults m).filter (!·.isDeep) = (faults n).filter (!·.isDeep)
  named : ∀ n, ∀ fault ∈ faults n, fault.isDeep = true → fault.cause = .tooDeep n
  within : ∀ n : UInt64, level ≤ n.toNat →
    ((∀ fault ∈ faults n, fault.isDeep = false) ↔ level + height ≤ n.toNat)

namespace Threshold

variable {level height height' : Nat} {faults faults' : UInt64 → List Fault}

/-- Faults that have nothing to do with nesting. -/
theorem flat {v : List Fault} (h : ∀ fault ∈ v, fault.isDeep = false) :
    Threshold level (fun _ => v) 0 := by
  refine ⟨fun _ _ => rfl, fun n fault hf hdeep => ?_, fun n hn => ?_⟩
  · rw [h fault hf] at hdeep
    cases hdeep
  · exact ⟨fun _ => hn, fun _ => h⟩

/-- Two parts need the limit that the higher one needs. -/
theorem append (h : Threshold level faults height) (h' : Threshold level faults' height') :
    Threshold level (fun n => faults n ++ faults' n) (max height height') := by
  refine ⟨fun m n => ?_, fun n fault hf => ?_, fun n hn => ?_⟩
  · rw [List.filter_append, List.filter_append, h.others m n, h'.others m n]
  · rcases List.mem_append.1 hf with hf | hf
    · exact h.named n fault hf
    · exact h'.named n fault hf
  · rw [List.forall_mem_append, h.within n hn, h'.within n hn]
    omega

/-- Faults that have nothing to do with nesting, before those of a tree. -/
theorem after {v : List Fault} (hv : ∀ fault ∈ v, fault.isDeep = false)
    (h : Threshold level faults height) : Threshold level (fun n => v ++ faults n) height := by
  have hboth := (flat hv).append h
  rwa [Nat.zero_max] at hboth

/-- On the next level; the check of that level fails if it is beyond the limit. -/
theorem nested (start : Position) (h : Threshold (level + 1) faults height) :
    Threshold level (fun n => levelViolations n (level + 1) start ++ faults n) (height + 1) := by
  refine ⟨fun m n => ?_, fun n fault hf => ?_, fun n hn => ?_⟩
  · have hlevel : ∀ k, (levelViolations k (level + 1) start).filter (!·.isDeep) = [] := by
      intro k
      unfold levelViolations require
      split <;> rfl
    rw [List.filter_append, List.filter_append, hlevel, hlevel, h.others m n]
  · rcases List.mem_append.1 hf with hf | hf
    · unfold levelViolations require at hf
      split at hf
      · cases hf
      · rw [List.mem_singleton.1 hf]
        exact fun _ => rfl
    · exact h.named n fault hf
  · rw [List.forall_mem_append]
    unfold levelViolations require
    by_cases hlevel : level + 1 ≤ n.toNat
    · rw [if_pos (decide_eq_true hlevel), h.within n hlevel]
      constructor
      · rintro ⟨-, h⟩
        omega
      · intro h
        exact ⟨fun _ hf => (by cases hf), by omega⟩
    · rw [if_neg (by simpa using hlevel)]
      constructor
      · rintro ⟨h, -⟩
        have hdeep := h _ (List.mem_singleton.2 rfl)
        cases hdeep
      · intro h
        omega

end Threshold

/-! ## Trees -/

/-- An expression needs a limit of its height and no more. -/
theorem threshold_expr (bound : String → Bool) (e : Expr) : ∀ level,
    Threshold level (fun n => e.violations n bound level) e.height := by
  induction e with
  | ident name type span => exact fun level => .nested _ (.flat (isDeep_require rfl))
  | num | str | bool => exact fun level => .nested _ (.flat fun _ hf => (by cases hf))
  | const name type span => exact fun level => .nested _ (.flat (isDeep_require rfl))
  | cond guard whenTrue whenFalse type span ihg iht ihf =>
    exact fun level => .nested _ ((ihg _).append ((iht _).append (ihf _)))
  | binary left op right type span ihl ihr =>
    exact fun level => .nested _ (.after (isDeep_require rfl) ((ihl _).append (ihr _)))
  | unary op operand type span ih =>
    exact fun level => .nested _ (.after (isDeep_require rfl) (ih _))
  | select primary channel type span ih =>
    exact fun level => .nested _ (.after (isDeep_require rfl) (ih _))
  | selectAt primary x y place channel type span ih ihx ihy =>
    intro level
    have hparts := (ih (level + 1)).append ((ihx (level + 1)).append (ihy (level + 1)))
    exact .nested _ (.after (isDeep_require rfl) hparts)
  | pixel red green blue span ihr ihg ihb =>
    exact fun level => .nested _ ((ihr _).append ((ihg _).append (ihb _)))

theorem threshold_parts (bound : String → Bool) (level : Nat) : ∀ parts : List Expr,
    Threshold level (fun n => parts.flatMap (Expr.violations n bound level)) (highest parts)
  | [] => .flat fun _ hf => (by cases hf)
  | e :: rest => by
    simp only [List.flatMap_cons]
    exact (threshold_expr bound e level).append (threshold_parts bound level rest)

/-- The target of an assignment is checked for its name and its parts, not for its nesting. -/
theorem Target.isDeep_violations (around : Around) (target : Target) :
    ∀ fault ∈ target.violations around, fault.isDeep = false := by
  unfold Target.violations
  cases around.lookup target.name with
  | none =>
    intro fault hf
    rw [List.mem_singleton.1 hf]
    rfl
  | some type => exact isDeep_require rfl

mutual

theorem threshold_stmt (around : Around) (level : Nat) : ∀ stmt : Stmt,
    Threshold level (fun n => stmt.violations n around level) stmt.height
  | .declare defined initializer span => by
    have hparts := threshold_parts around.declares level (declarationParts defined initializer)
    have hname : ∀ fault ∈ require (Java.isSourceName defined.name) (.invalidName defined.name)
        defined.span.start, fault.isDeep = false := isDeep_require rfl
    have h := hparts.append (.flat hname)
    simp only [Stmt.violations, Stmt.height]
    rwa [Nat.max_zero] at h
  | .assign target value span => by
    have hparts := threshold_parts around.declares level (assignmentParts target value)
    simp only [Stmt.violations, Stmt.height]
    exact .after (target.isDeep_violations around) hparts
  | .write value span | .ret value span => by
    simp only [Stmt.violations, Stmt.height]
    exact threshold_expr around.declares value level
  | .loop branches span | .choose branches span => by
    simp only [Stmt.violations, Stmt.height]
    exact threshold_branches around level branches
  | .block block => by
    simp only [Stmt.violations, Stmt.height]
    exact threshold_block around level block

theorem threshold_block (around : Around) (level : Nat) : ∀ block : Block,
    Threshold level (fun n => block.violations n around level) block.height
  | .mk body span => by
    simp only [Block.violations, Block.height]
    exact .nested _ (threshold_body around (level + 1) body)

theorem threshold_body (around : Around) (level : Nat) : ∀ body : List Stmt,
    Threshold level (fun n => bodyViolations n around level body) (bodyHeight body)
  | [] => by
    simp only [bodyViolations, bodyHeight]
    exact .flat fun _ hf => (by cases hf)
  | stmt :: rest => by
    simp only [bodyViolations, bodyHeight]
    exact (threshold_stmt around level stmt).append (threshold_body _ level rest)

theorem threshold_branches (around : Around) (level : Nat) : ∀ branches : List Branch,
    Threshold level (fun n => branchesViolations n around level branches) (branchesHeight branches)
  | [] => by
    simp only [branchesViolations, branchesHeight]
    exact .flat fun _ hf => (by cases hf)
  | .mk guard block span :: rest => by
    simp only [branchesViolations, branchesHeight]
    exact (threshold_expr around.declares guard level).append
      ((threshold_block around level block).append (threshold_branches around level rest))

end

/-! ## Programs -/

theorem Options.isDeep_violations (options : Options) :
    ∀ fault ∈ options.violations, fault.isDeep = false := by
  intro fault hf
  rcases List.mem_append.1 hf with hf | hf
  · cases hp : options.package with
    | none => rw [hp] at hf; cases hf
    | some package => rw [hp] at hf; exact isDeep_require rfl fault hf
  · rcases List.mem_append.1 hf with hf | hf
    · exact isDeep_require rfl fault hf
    · exact isDeep_require rfl fault hf

/-- A program needs a limit of its height and no more, whatever the other options are. -/
theorem threshold_program (options : Options) (program : Program) :
    Threshold 0 (fun n => program.violations { options with maxDepth := n }) program.height := by
  have hparams : ∀ fault ∈ program.params.flatMap NameDef.violations, fault.isDeep = false := by
    intro fault hf
    obtain ⟨param, -, hf⟩ := List.mem_flatMap.1 hf
    exact isDeep_require rfl fault hf
  have hblock := threshold_block (parametersAround program.params) 0 program.block
  exact .after options.isDeep_violations (.after (isDeep_require rfl) (.after hparams hblock))

/-- There are no faults under a limit if there are none but those about nesting under any other, and
the tree does not reach beyond the limit. -/
theorem Threshold.eq_nil_iff {height : Nat} {faults : UInt64 → List Fault}
    (h : Threshold 0 faults height) (m n : UInt64) :
    faults n = [] ↔ (faults m).filter (!·.isDeep) = [] ∧ height ≤ n.toNat := by
  have hwithin := h.within n (Nat.zero_le _)
  rw [Nat.zero_add] at hwithin
  rw [h.others m n, ← hwithin, List.filter_eq_nil_iff, List.eq_nil_iff_forall_not_mem]
  constructor
  · intro hnone
    exact ⟨fun fault hf => absurd hf (hnone fault), fun fault hf => absurd hf (hnone fault)⟩
  · rintro ⟨hothers, hshallow⟩ fault hf
    exact hothers fault hf (by rw [hshallow fault hf]; rfl)

/-- The first fault under one limit, if it is not about nesting, is the first one under any other as
well, or else that is about nesting. -/
theorem Threshold.head_eq {level height : Nat} {faults : UInt64 → List Fault}
    (h : Threshold level faults height) {m : UInt64} {fault : Fault} {rest : List Fault}
    (hm : faults m = fault :: rest) (hshallow : fault.isDeep = false) (n : UInt64) :
    ∃ first rest, faults n = first :: rest ∧ (first = fault ∨ first.cause = .tooDeep n) := by
  have hothers : ((faults n).filter (!·.isDeep)).head? = some fault := by
    rw [h.others n m, hm]
    simp [hshallow]
  cases hn : faults n with
  | nil => rw [hn] at hothers; cases hothers
  | cons first rest =>
    refine ⟨first, rest, rfl, ?_⟩
    cases hdeep : first.isDeep with
    | true => exact .inr (h.named n first (by simp [hn]) hdeep)
    | false =>
      rw [hn, List.filter_cons, hdeep] at hothers
      exact .inl (Option.some.inj hothers)

theorem Fault.isDeep_eq_false {fault : Fault} (h : ∀ limit, fault.cause ≠ .tooDeep limit) :
    fault.isDeep = false := by
  unfold isDeep
  split
  · rename_i limit hcause
    exact absurd hcause (h limit)
  · rfl

/-- Compiling succeeds under a limit exactly if it does under the greatest one and the program is not
higher than the limit. Whenever it succeeds it gives the same compilation. A fault under one limit
that is not about nesting is the fault under every other limit as well, or else that one is too low
for the program. -/
theorem compile_limit_exact (options : Options) (program : Program) :
    let result (n : UInt64) := (compile { options with maxDepth := n } program).value
    (∀ n, (∃ c, result n = .ok c) ↔
        (∃ c, result 18446744073709551615 = .ok c) ∧ program.height ≤ n.toNat) ∧
      (∀ m n c c', result m = .ok c → result n = .ok c' → c = c') ∧
      ∀ m n fault, result m = .error fault → (∀ limit, fault.cause ≠ .tooDeep limit) →
        result n = .error fault ∨ ∃ position, result n = .error ⟨.tooDeep n, position⟩ := by
  intro result
  have hthreshold := threshold_program options program
  generalize hfaults : (fun n => program.violations { options with maxDepth := n }) = faults
    at hthreshold
  -- the compilation is the same under every limit; only the faults depend on it
  have hresult : ∀ n, result n = accept (faults n) (program.compilation options) := by
    intro n
    rw [← hfaults]
    exact compile_value _ program
  have hok : ∀ n, (∃ c, result n = .ok c) ↔ faults n = [] := by
    intro n
    rw [hresult]
    cases faults n <;> simp [accept]
  refine ⟨fun n => ?_, fun m n c c' hm hn => ?_, fun m n fault hm hcause => ?_⟩
  · rw [hok, hok, hthreshold.eq_nil_iff n, hthreshold.eq_nil_iff n]
    have hmax := n.toNat_lt
    have hgreatest : (18446744073709551615 : UInt64).toNat = 18446744073709551615 := rfl
    rw [hgreatest]
    constructor
    · rintro ⟨hothers, hheight⟩
      exact ⟨⟨hothers, by omega⟩, hheight⟩
    · rintro ⟨⟨hothers, -⟩, hheight⟩
      exact ⟨hothers, hheight⟩
  · have hcleanm := (hok m).1 ⟨c, hm⟩
    have hcleann := (hok n).1 ⟨c', hn⟩
    rw [hresult, hcleanm] at hm
    rw [hresult, hcleann] at hn
    cases hm
    cases hn
    rfl
  · rw [hresult] at hm
    cases hv : faults m with
    | nil => rw [hv] at hm; cases hm
    | cons head rest =>
      rw [hv] at hm
      cases hm
      obtain ⟨first, rest, hn, hfirst⟩ := hthreshold.head_eq hv (Fault.isDeep_eq_false hcause) n
      rw [hresult, hn]
      rcases hfirst with rfl | hdeep
      · exact .inl rfl
      · exact .inr ⟨first.position, by rw [← hdeep]; rfl⟩

/-- A program that writes a sum, with an operand on the third level. -/
def writesSum (operand : Expr) : Program where
  name := "Sum"
  type := .void
  params := []
  block := .mk [.write (.binary (.num "1" .zero) .plus operand .int .zero) .zero] .zero
  span := .zero

/-- What the program becomes under a limit. -/
def limitedSum (operand : Expr) (n : UInt64) : Except Fault Compilation :=
  (compile { Options.default with maxDepth := n } (writesSum operand)).value

theorem limitedSum_exact :
    (∃ c, limitedSum (.num "2" .zero) 3 = .ok c ∧
        limitedSum (.num "2" .zero) 18446744073709551615 = .ok c) ∧
      (¬ ∃ c, limitedSum (.num "2" .zero) 2 = .ok c) ∧
      ∃ fault, limitedSum (.ident "x" .int .zero) 3 = .error fault ∧
        (∀ limit, fault.cause ≠ .tooDeep limit) ∧
        (limitedSum (.ident "x" .int .zero) 2 = .error fault ∨
          ∃ position, limitedSum (.ident "x" .int .zero) 2 = .error ⟨.tooDeep 2, position⟩) := by
  have hclean : (writesSum (.num "2" .zero)).violations
      { Options.default with maxDepth := 18446744073709551615 } = [] := by decide +kernel
  have hfaulty : (writesSum (.ident "x" .int .zero)).violations
      { Options.default with maxDepth := 3 } = [⟨.unresolved "x", ⟨0, 0⟩⟩] := by decide +kernel
  have hheight : (writesSum (.num "2" .zero)).height = 3 := by decide
  obtain ⟨hlimit, hsame, -⟩ := compile_limit_exact .default (writesSum (.num "2" .zero))
  obtain ⟨-, -, hfault⟩ := compile_limit_exact .default (writesSum (.ident "x" .int .zero))
  rw [hheight] at hlimit
  unfold limitedSum
  have hunbound := compile_value { Options.default with maxDepth := 3 }
    (writesSum (.ident "x" .int .zero))
  rw [hfaulty, accept] at hunbound
  refine ⟨?_, fun h => absurd ((hlimit 2).1 h).2 (by decide), _, hunbound, by simp,
    hfault 3 2 _ hunbound (by simp)⟩
  have hgreatest := compile_value { Options.default with maxDepth := 18446744073709551615 }
    (writesSum (.num "2" .zero))
  rw [hclean, accept] at hgreatest
  obtain ⟨c, hthree⟩ := (hlimit 3).2 ⟨⟨_, hgreatest⟩, by decide⟩
  exact ⟨c, hthree, hsame _ _ _ _ hthree hgreatest ▸ hgreatest⟩

end PixelJava
