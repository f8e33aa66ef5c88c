/-
The guards of loops and choices. Guards are lowered between blocks that declare names of their own,
and the last guard of a loop once more behind all of them; but every block closes the frame it
opens, so in each of these states a guard stands for what it stands for before the statement. The
text of a statement is put together of the texts that its guards have there, and a loop ends with
the text of its last guard once more.
-/
import PixelJava.Proofs.Lowering.Result

namespace PixelJava

open LowerM LowerState

variable {limit : UInt64} {σ τ υ : LowerState limit}

/-! ## Expressions in states with the same frames -/

/-- What lowering an expression comes to depends on the open frames and the nesting only. -/
theorem lower_of_restores (h : Restores σ τ) (e : Expr) :
    (outcome e.lower τ).1 = (outcome e.lower σ).1 := by
  have hvisible : τ.scopes.visible = σ.scopes.visible := congrArg List.flatten h.frames
  have hbound : τ.scopes.isBound = σ.scopes.isBound := funext (Scopes.isBound_of_visible hvisible)
  rw [(gives_lower e τ rfl rfl).1, (gives_lower e σ rfl rfl).1, hbound, h.depth,
    Scopes.javaNameOf_of_visible hvisible]

/-! ## Branches -/

/-- Branches lowered one after the other, from the state `τ` on, to the texts of their guards and of
their blocks. Each block is lowered in the state behind its guard and leaves the state for the next
branch; but each guard has the text that it has in the state `σ`. -/
inductive Shown (σ : LowerState limit) :
    LowerState limit → List Branch → List (String × String) → Prop where
  | nil (τ : LowerState limit) : Shown σ τ [] []
  | cons {τ υ : LowerState limit} {branch : Branch} {rest : List Branch} {guard : Java.Expr}
      {body : List Java.Stmt} {texts : List (String × String)}
      (hguard : (outcome branch.guard.lower σ).1 = .ok guard)
      (hblock : outcome branch.block.lower (outcome branch.guard.lower τ).2 = (.ok body, υ))
      (hrest : Shown σ υ rest texts) :
      Shown σ τ (branch :: rest) ((guard.text, Java.braced (Java.bodyText body)) :: texts)

/-- A branch with these texts of its guard and its block. -/
def branchText (branch : String × String) : String :=
  "if (" ++ branch.1 ++ ") " ++ branch.2

/-- What lowering a branch and those behind it takes, and what comes of it. -/
theorem lowerBranches_cons {branch : Branch} {rest : List Branch} {lowered : List Java.Branch}
    (h : outcome (lowerBranches (branch :: rest)) τ = (.ok lowered, υ)) :
    ∃ guard body more τ', (outcome branch.guard.lower τ).1 = .ok guard ∧
      outcome branch.block.lower (outcome branch.guard.lower τ).2 = (.ok body, τ') ∧
      outcome (lowerBranches rest) τ' = (.ok more, υ) ∧ lowered = .mk guard body :: more := by
  obtain ⟨guard, block, span⟩ := branch
  rw [lowerBranches] at h
  obtain ⟨code, τ₁, hguard, h⟩ := outcome_bind_eq_ok h
  obtain ⟨body, τ₂, hblock, h⟩ := outcome_bind_eq_ok h
  obtain ⟨more, τ₃, hrest, h⟩ := outcome_bind_eq_ok h
  cases h
  refine ⟨code, body, more, τ₂, ?_, ?_, hrest, rfl⟩
  · exact congrArg Prod.fst hguard
  · rw [Branch.guard, hguard]
    exact hblock

theorem shown_of_lowerBranches {branches : List Branch} {lowered : List Java.Branch}
    (hτ : Restores σ τ) (h : outcome (lowerBranches branches) τ = (.ok lowered, υ)) :
    ∃ texts, Shown σ τ branches texts ∧ ∀ after,
      Java.branchesText after lowered = String.join (texts.map fun t => branchText t ++ after) := by
  induction branches generalizing τ lowered with
  | nil =>
    rw [lowerBranches] at h
    cases h
    exact ⟨[], .nil _, fun after => by simp [Java.branchesText]⟩
  | cons branch rest ih =>
    obtain ⟨guard, body, more, τ', hguard, hblock, hrest, rfl⟩ := lowerBranches_cons h
    -- neither the guard nor the block changes the open frames
    have hτ' : Restores σ τ' := by
      have hkeeps := (keeps_lower branch.guard τ).restores
      have hblock' := restores_lowerBlock branch.block (outcome branch.guard.lower τ).2
      rw [hblock] at hblock'
      exact hτ.trans (hkeeps.trans hblock')
    obtain ⟨texts, hshown, htext⟩ := ih hτ' hrest
    refine ⟨_, .cons ((lower_of_restores hτ _).symm.trans hguard) hblock hshown, fun after => ?_⟩
    rw [Java.branchesText, htext after, List.map_cons, String.join_cons, branchText]

theorem Shown.getLast? {branches : List Branch} {texts : List (String × String)} {last : Branch}
    (h : Shown σ τ branches texts) (hlast : branches.getLast? = some last) :
    ∃ guard, (outcome last.guard.lower σ).1 = .ok guard ∧
      (texts.map Prod.fst).getLast? = some guard.text := by
  induction h with
  | nil τ => cases hlast
  | @cons τ υ branch rest guard body texts hguard hblock hrest ih =>
    cases hrest with
    | nil =>
      cases hlast
      exact ⟨guard, hguard, rfl⟩
    | cons hguard' hblock' hrest' =>
      exact ih hlast

/-! ## Loops and choices -/

/-- Texts with a separator behind each of them, and one text more. -/
theorem join_separated (separator last : String) (texts : List String) :
    String.join (texts.map (· ++ separator)) ++ last = separator.intercalate (texts ++ [last]) := by
  induction texts with
  | nil => simp
  | cons text rest ih =>
    have hne : rest ++ [last] ≠ [] := by simp
    rw [List.map_cons, String.join_cons, List.cons_append, String.append_assoc, ih,
      String.intercalate_cons_of_ne_nil hne]

theorem loop_text {branches : List Branch} (hne : branches ≠ []) {span : Span} {code : Java.Stmt}
    (h : (outcome (Stmt.loop branches span).lower σ).1 = .ok code) :
    ∃ texts guard, Shown σ σ branches texts ∧ (texts.map Prod.fst).getLast? = some guard ∧
      code.text = "do \x7b\n" ++ String.join (texts.map fun t => branchText t ++ "\n") ++
        "\x7d while (" ++ guard ++ ");\n" := by
  obtain ⟨υ, h⟩ : ∃ υ, outcome (Stmt.loop branches span).lower σ = (.ok code, υ) :=
    ⟨_, Prod.ext h rfl⟩
  rw [Stmt.lower] at h
  obtain ⟨lowered, τ, hbranches, h⟩ := outcome_bind_eq_ok h
  obtain ⟨texts, hshown, htext⟩ := shown_of_lowerBranches (.refl σ) hbranches
  cases hlast : branches.getLast? with
  | none => exact absurd (List.getLast?_eq_none_iff.1 hlast) hne
  | some last =>
    rw [hlast] at h
    obtain ⟨again, τ', hagain, h⟩ := outcome_bind_eq_ok h
    cases h
    -- behind the branches the last guard is lowered to the code it has before them
    obtain ⟨guard, hguard, hfinal⟩ := hshown.getLast? hlast
    have hτ : Restores σ τ := by
      have hrestores := restores_lowerBranches branches σ
      rwa [hbranches] at hrestores
    have hsame := lower_of_restores hτ last.guard
    rw [hagain, hguard] at hsame
    cases hsame
    refine ⟨texts, again.text, hshown, hfinal, ?_⟩
    rw [Java.Stmt.text, htext, Java.braced]
    simp only [String.append_assoc]
    rfl

theorem choose_text {branches : List Branch} (hne : branches ≠ []) {span : Span} {code : Java.Stmt}
    (h : (outcome (Stmt.choose branches span).lower σ).1 = .ok code) :
    ∃ texts, Shown σ σ branches texts ∧
      code.text = " else ".intercalate (texts.map branchText ++ ["\x7b\n\x7d"]) ++ "\n" := by
  obtain ⟨υ, h⟩ : ∃ υ, outcome (Stmt.choose branches span).lower σ = (.ok code, υ) :=
    ⟨_, Prod.ext h rfl⟩
  rw [Stmt.lower] at h
  obtain ⟨lowered, τ, hbranches, h⟩ := outcome_bind_eq_ok h
  obtain ⟨texts, hshown, htext⟩ := shown_of_lowerBranches (.refl σ) hbranches
  cases branches with
  | nil => exact absurd rfl hne
  | cons branch rest =>
    obtain ⟨guard, body, more, τ', -, -, -, rfl⟩ := lowerBranches_cons hbranches
    cases h
    refine ⟨texts, hshown, ?_⟩
    rw [← join_separated, List.map_map]
    rw [if_neg (by simp), Java.Stmt.text, htext]
    rfl

/-- In every state, for branches of which there is at least one. A loop that can be lowered is `do`
with the branches in braces, each on lines of its own, and ends with the test of its last guard; a
choice that can be lowered is the chain of its branches, with an empty block at the end. Every guard
has the text that it has before the statement, whatever the blocks before it declare, and the guard
that a loop ends with is shown with the same text at its branch. -/
theorem guards_shown_as_before (σ : LowerState limit) {branches : List Branch} (hne : branches ≠ [])
    (span : Span) (code : Java.Stmt) :
    ((outcome (Stmt.loop branches span).lower σ).1 = .ok code →
        ∃ texts guard, Shown σ σ branches texts ∧ (texts.map Prod.fst).getLast? = some guard ∧
          code.text = "do \x7b\n" ++ String.join (texts.map fun t => branchText t ++ "\n") ++
            "\x7d while (" ++ guard ++ ");\n") ∧
      ((outcome (Stmt.choose branches span).lower σ).1 = .ok code →
        ∃ texts, Shown σ σ branches texts ∧
          code.text = " else ".intercalate (texts.map branchText ++ ["\x7b\n\x7d"]) ++ "\n") :=
  ⟨loop_text hne, choose_text hne⟩

/-- Two branches with guards on a name that the block of each declares again. -/
def shadowing : List Branch :=
  let a : Expr := .ident "a" .int .zero
  let again (type : Ty) (value : Expr) : Block :=
    .mk [.declare ⟨"a", type, none, .zero⟩ (some value) .zero] .zero
  [.mk (.binary a .gt (.num "0" .zero) .boolean .zero) (again .int a) .zero,
    .mk (.binary a .lt (.num "9" .zero) .boolean .zero) (again .string (.str "\"a\"" .zero)) .zero]

theorem shadowing_shown :
    let σ : LowerState 9 := (outcome (Step.declare "a" .int .zero).run .start).2
    let loop := (Stmt.loop shadowing .zero).emit σ.scopes
    let choice := (Stmt.choose shadowing .zero).emit σ.scopes
    shadowing ≠ [] ∧
      loop.text = "do \x7b\nif ((a > 0)) \x7b\nint a$1 = a;\n\x7d\nif ((a < 9)) \x7b\n" ++
        "String a$2 = \"a\";\n\x7d\n\x7d while ((a < 9));\n" ∧
      choice.text = "if ((a > 0)) \x7b\nint a$1 = a;\n\x7d else if ((a < 9)) \x7b\n" ++
        "String a$2 = \"a\";\n\x7d else \x7b\n\x7d\n" ∧
      (∃ texts guard, Shown σ σ shadowing texts ∧ (texts.map Prod.fst).getLast? = some guard ∧
        loop.text = "do \x7b\n" ++ String.join (texts.map fun t => branchText t ++ "\n") ++
          "\x7d while (" ++ guard ++ ");\n") ∧
      ∃ texts, Shown σ σ shadowing texts ∧
        choice.text = " else ".intercalate (texts.map branchText ++ ["\x7b\n\x7d"]) ++ "\n" := by
  intro σ loop choice
  have hne : shadowing ≠ [] := List.cons_ne_nil _ _
  have hclean : branchesViolations 9 σ.scopes.around σ.depth shadowing = [] := by decide +kernel
  have hloop : (outcome (Stmt.loop shadowing .zero).lower σ).1 = .ok loop :=
    lowerStmt_of_clean hclean
  have hchoice : (outcome (Stmt.choose shadowing .zero).lower σ).1 = .ok choice :=
    lowerStmt_of_clean hclean
  exact ⟨hne, by decide +kernel, by decide +kernel,
    (guards_shown_as_before σ hne .zero loop).1 hloop,
    (guards_shown_as_before σ hne .zero choice).2 hchoice⟩

end PixelJava
