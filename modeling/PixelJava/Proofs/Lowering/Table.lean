/-
The declaration table. For a program that compiles it has an entry for each parameter and for each
declaration of the body, in the order of the program, at the depth of the blocks around it, and each
entry has the type and the name that the emitted code declares at that place.
-/
import PixelJava.Proofs.Java.Declarator
import PixelJava.Proofs.Lowering.Reachable

namespace PixelJava

/-! ## Declarations of a program -/

mutual

/-- The declarations in a statement, in the order of the program, each with the number of blocks
around it; `around` is their number around the statement. -/
def Stmt.definitions (around : Nat) : Stmt → List (Nat × NameDef)
  | .declare defined _ _ => [(around, defined)]
  | .assign .. | .write .. | .ret .. => []
  | .loop branches _ | .choose branches _ => branchesDefinitions around branches
  | .block block => block.definitions around

def Block.definitions (around : Nat) : Block → List (Nat × NameDef)
  | .mk body _ => bodyDefinitions (around + 1) body

def bodyDefinitions (around : Nat) : List Stmt → List (Nat × NameDef)
  | [] => []
  | stmt :: rest => stmt.definitions around ++ bodyDefinitions around rest

def branchesDefinitions (around : Nat) : List Branch → List (Nat × NameDef)
  | [] => []
  | .mk _ block _ :: rest => block.definitions around ++ branchesDefinitions around rest

end

/-- What the table says of a declaration that stands at the given depth, apart from its Java name. -/
def NameDef.entry (depth : Nat) (d : NameDef) : String × Ty × Span × Nat :=
  (d.name, d.type, d.span, depth)

namespace Declared

def entry (d : Declared) : String × Ty × Span × Nat :=
  (d.sourceName, d.type, d.span, d.depth)

/-- The variable that the code declares for an entry. -/
def javaVariable (d : Declared) : Java.Param :=
  ⟨d.type, d.javaName⟩

end Declared

/-! ## Entries made by statements -/

/-- From `s` to `t` the table gets the given entries, which stand for the given variables. -/
def Scopes.Adds (s t : Scopes) (entries : List (String × Ty × Span × Nat))
    (vars : List Java.Param) : Prop :=
  ∃ added : List Declared, t.declared = s.declared ++ added ∧
    added.map Declared.entry = entries ∧ added.map Declared.javaVariable = vars

namespace Scopes.Adds

variable {s t u : Scopes} {entries entries' : List (String × Ty × Span × Nat)}
  {vars vars' : List Java.Param}

theorem none (h : t.declared = s.declared) : s.Adds t [] [] :=
  ⟨[], by rw [h, List.append_nil], rfl, rfl⟩

/-- What two steps add to the table stands in it in their order. -/
theorem trans (h : s.Adds t entries vars) (h' : t.Adds u entries' vars') :
    s.Adds u (entries ++ entries') (vars ++ vars') := by
  obtain ⟨added, ht, rfl, rfl⟩ := h
  obtain ⟨added', hu, rfl, rfl⟩ := h'
  refine ⟨added ++ added', ?_, List.map_append, List.map_append⟩
  rw [hu, ht, List.append_assoc]

/-- A declaration in an open frame gets the number of open frames as its depth. -/
theorem add (h : s.depth ≠ 0) (d : NameDef) :
    s.Adds (s.add d.name d.type d.span).2 [d.entry s.depth] [⟨d.type, s.nextName d.name⟩] := by
  have hopened : s.opened = s := by
    unfold Scopes.opened
    cases hframes : s.frames with
    | nil => exact absurd (congrArg List.length hframes) h
    | cons frame rest => rfl
  refine ⟨[⟨d.name, s.nextName d.name, d.type, d.span, s.depth⟩], ?_, rfl, rfl⟩
  rw [Scopes.declared_add, hopened]

end Scopes.Adds

/-- A statement in an open frame leaves as many frames open as it found. -/
theorem Stmt.depth_scopesAfter {s : Scopes} (h : s.depth ≠ 0) (stmt : Stmt) :
    (stmt.scopesAfter s).depth = s.depth := by
  have hne : s.frames ≠ [] := fun hnil => h (congrArg List.length hnil)
  obtain ⟨hne', htail⟩ := stmt.framesAfter_tail true hne
  rw [← stmt.frames_scopesAfter] at hne' htail
  have hlength := congrArg List.length htail
  rw [List.length_tail, List.length_tail] at hlength
  have hpos := List.length_pos_iff.2 hne
  have hpos' := List.length_pos_iff.2 hne'
  rw [Scopes.depth, Scopes.depth]
  omega

/-- A block closes every frame that it opens. -/
theorem Block.depth_scopesAfter (s : Scopes) (block : Block) :
    (block.scopesAfter s).depth = s.depth := by
  rw [Scopes.depth, block.frames_scopesAfter, Scopes.depth]

/-- The entries of declarations with the given numbers of blocks around them. -/
def entriesOf (definitions : List (Nat × NameDef)) : List (String × Ty × Span × Nat) :=
  definitions.map fun (around, d) => d.entry (2 + around)

theorem entriesOf_append (ds ds' : List (Nat × NameDef)) :
    entriesOf (ds ++ ds') = entriesOf ds ++ entriesOf ds' :=
  List.map_append

mutual

/-- A statement adds to the table what it declares, at the depth where it does: the induction is on
the statement, with the number of blocks around it. -/
theorem Stmt.adds (around : Nat) (s : Scopes) : ∀ stmt : Stmt, s.depth = 2 + around →
    s.Adds (stmt.scopesAfter s) (entriesOf (stmt.definitions around)) (stmt.emit s).locals
  | .declare defined initializer span, h => by
    have hadd := Scopes.Adds.add (s := s) (by omega) defined
    rwa [h] at hadd
  | .assign target value span, _ => by
    have hlocals : (emitAssignment s target value).locals = [] := by
      unfold emitAssignment
      cases target.pixel with
      | none =>
        cases target.channel with
        | none =>
          dsimp only
          split <;> rfl
        | some c => rfl
      | some p => cases target.channel <;> rfl
    rw [Stmt.emit, hlocals]
    exact .none rfl
  | .write value span, _ => .none rfl
  | .ret value span, _ => .none rfl
  | .loop branches span, h => by
    have hbranches := adds_branches around s branches h
    rw [Stmt.emit]
    cases hlast : branches.getLast? with
    | none =>
      obtain rfl := List.getLast?_eq_none_iff.1 hlast
      exact hbranches
    | some last => exact hbranches
  | .choose branches span, h => by
    have hbranches := adds_branches around s branches h
    rw [Stmt.emit]
    cases branches with
    | nil => exact hbranches
    | cons branch rest =>
      cases branch
      exact hbranches
  | .block block, h => block.adds around s h

theorem Block.adds (around : Nat) (s : Scopes) : ∀ block : Block, s.depth = 2 + around →
    s.Adds (block.scopesAfter s) (entriesOf (block.definitions around))
      (Java.bodyLocals (block.emit s))
  | .mk body span, h => by
    have hdepth : s.enter.depth = 2 + (around + 1) := congrArg (· + 1) h
    exact adds_body (around + 1) s.enter body hdepth

theorem adds_body (around : Nat) (s : Scopes) : ∀ body : List Stmt, s.depth = 2 + around →
    s.Adds (bodyScopesAfter s body) (entriesOf (bodyDefinitions around body))
      (Java.bodyLocals (emitBody s body))
  | [], _ => .none rfl
  | stmt :: rest, h => by
    have hdepth := (stmt.depth_scopesAfter (s := s) (by omega)).trans h
    rw [bodyDefinitions, entriesOf_append]
    exact (stmt.adds around s h).trans (adds_body around (stmt.scopesAfter s) rest hdepth)

theorem adds_branches (around : Nat) (s : Scopes) : ∀ branches : List Branch,
    s.depth = 2 + around →
    s.Adds (branchesScopesAfter s branches) (entriesOf (branchesDefinitions around branches))
      (Java.branchesLocals (emitBranches s branches))
  | [], _ => .none rfl
  | .mk guard block span :: rest, h => by
    have hdepth := (block.depth_scopesAfter s).trans h
    rw [branchesDefinitions, entriesOf_append]
    exact (block.adds around s h).trans (adds_branches around (block.scopesAfter s) rest hdepth)

end

/-! ## Programs -/

theorem adds_params : ∀ (s : Scopes) (params : List NameDef), s.depth = 1 →
    s.Adds (paramsScopesAfter s params) (params.map (NameDef.entry 1)) (emitParams s params) ∧
      (paramsScopesAfter s params).depth = 1
  | s, [], h => ⟨.none rfl, h⟩
  | s, param :: rest, h => by
    have hadd := Scopes.Adds.add (s := s) (by omega) param
    have hdepth := Stmt.depth_scopesAfter (s := s) (by omega) (.declare param none .zero)
    obtain ⟨hrest, hafter⟩ :=
      adds_params (s.add param.name param.type param.span).2 rest (hdepth.trans h)
    rw [h] at hadd
    exact ⟨hadd.trans hrest, hafter⟩

/-- The table of a program: first its parameters, then the declarations of its body. -/
theorem Program.exists_table (options : Options) (program : Program) :
    ∃ params locals : List Declared,
      (program.compilation options).declared = params ++ locals ∧
      params.map Declared.entry = program.params.map (NameDef.entry 1) ∧
      locals.map Declared.entry = entriesOf (bodyDefinitions 0 program.block.body) ∧
      (program.unit options).params = params.map Declared.javaVariable ∧
      Java.bodyLocals (program.unit options).body = locals.map Declared.javaVariable := by
  obtain ⟨hparams, hdepth⟩ := adds_params Scopes.empty.enter program.params rfl
  obtain ⟨params, htable, hentries, hvars⟩ := hparams
  obtain ⟨name, type, parameters, ⟨body, span⟩, programSpan⟩ := program
  have hinner : (paramsScopesAfter Scopes.empty.enter parameters).enter.depth = 2 + 0 :=
    congrArg (· + 1) hdepth
  obtain ⟨locals, htable', hentries', hvars'⟩ := adds_body 0 _ body hinner
  refine ⟨params, locals, htable'.trans (congrArg (· ++ locals) htable), hentries, hentries',
    hvars.symm, hvars'.symm⟩

/-- The table is the program's declarations, no more and no less: its parameters in order at depth
1, then the declarations of its body in order at depth 2 and one more for each block around them.
The source, which is the text of the unit's pieces up to blanks at the ends of its lines, declares
just these variables in the signature and in the body, in the same order, each under the Java name
of its entry and right behind the Java type of its entry, and no others. -/
theorem compile_table_exact {options : Options} {program : Program} {c : Compilation}
    (h : (compile options program).value = .ok c) :
    let unit := program.unit options
    c.source = unitText options unit ∧ unit.text = unit.code.shown ∧
      Java.trimmedLines c.source = Java.trimmedLines unit.code.shown ∧
      unit.code.declarators = c.declared.map (fun d => (d.type.java ++ " ", d.javaName)) ∧
      ∃ params locals, c.declared = params ++ locals ∧
        params.map Declared.entry = program.params.map (NameDef.entry 1) ∧
        locals.map Declared.entry =
          (bodyDefinitions 0 program.block.body).map (fun (around, d) => d.entry (2 + around)) ∧
        (Java.separated (unit.params.map Java.Param.code)).declarators =
          params.map (fun d => (d.type.java ++ " ", d.javaName)) ∧
        (Java.bodyCode unit.body).declarators =
          locals.map (fun d => (d.type.java ++ " ", d.javaName)) := by
  obtain ⟨hclean, rfl⟩ := accept_eq_ok (compile_value options program ▸ h)
  obtain ⟨params, locals, htable, hparams, hlocals, hsignature, hbody⟩ :=
    program.exists_table options
  refine ⟨rfl, (Java.SourceUnit.shown_code _).symm, trimmedLines_unitText _ _, ?_, params, locals,
    htable, hparams, hlocals, ?_, ?_⟩
  · rw [(program.unit options).declares_code.declarators, hsignature, hbody, htable,
      ← List.map_append, List.map_map]
    rfl
  · rw [(Java.Declares.params _).declarators, hsignature, List.map_map]
    rfl
  · rw [(Java.declares_bodyCode _).declarators, hbody, List.map_map]
    rfl

/-- A program that declares one name as a parameter, in its body, and in a block inside the block of
a loop inside a choice. -/
def layered : Program where
  name := "Layered"
  type := .void
  params := [⟨"a", .int, none, .zero⟩]
  block :=
    let a : Expr := .ident "a" .int .zero
    let positive : Expr := .binary a .gt (.num "0" .zero) .boolean .zero
    let again (line : UInt32) : Stmt :=
      .declare ⟨"a", .int, none, ⟨⟨line, 1⟩, ⟨line, 5⟩⟩⟩ (some a) .zero
    let image : Stmt := .declare ⟨"im", .image, some ⟨a, a, .zero⟩, .zero⟩ none .zero
    let loop : Stmt := .loop [.mk positive (.mk [.block (.mk [again 3] .zero)] .zero) .zero] .zero
    .mk [again 2, .choose [.mk positive (.mk [image, loop] .zero) .zero] .zero, again 4] .zero
  span := .zero

/-- The text that it becomes. -/
def layeredText : String :=
  "import lib.ImageOps;\nimport java.awt.image.BufferedImage;\n\n" ++
  "public class Layered \x7b\npublic static void apply(int a) \x7b\nint a$1 = a;\n" ++
  "if ((a$1 > 0)) \x7b\nBufferedImage im = ImageOps.makeImage(a$1, a$1);\n" ++
  "do \x7b\nif ((a$1 > 0)) \x7b\n\x7b\nint a$2 = a$1;\n\x7d\n\x7d\n\x7d while ((a$1 > 0));\n" ++
  "\x7d else \x7b\n\x7d\nint a$3 = a$1;\n\x7d\n\x7d\n"

theorem layered_table :
    (bodyDefinitions 0 layered.block.body).map (fun (around, d) => (d.name, around)) =
        [("a", 0), ("im", 1), ("a", 3), ("a", 0)] ∧
      ∃ c, (compile bareOptions layered).value = .ok c ∧ c.source = layeredText ∧
        c.declared.map (fun d => (d.type.java, d.javaName, d.depth)) =
          [("int", "a", 1), ("int", "a$1", 2), ("BufferedImage", "im", 3), ("int", "a$2", 5),
            ("int", "a$3", 2)] ∧
        let unit := layered.unit bareOptions
        c.source = unitText bareOptions unit ∧ unit.text = unit.code.shown ∧
          Java.trimmedLines c.source = Java.trimmedLines unit.code.shown ∧
          unit.code.declarators = c.declared.map (fun d => (d.type.java ++ " ", d.javaName)) ∧
          ∃ params locals, c.declared = params ++ locals ∧
            params.map Declared.entry = layered.params.map (NameDef.entry 1) ∧
            locals.map Declared.entry =
              (bodyDefinitions 0 layered.block.body).map (fun (around, d) => d.entry (2 + around)) ∧
            (Java.separated (unit.params.map Java.Param.code)).declarators =
              params.map (fun d => (d.type.java ++ " ", d.javaName)) ∧
            (Java.bodyCode unit.body).declarators =
              locals.map (fun d => (d.type.java ++ " ", d.javaName)) := by
  have hclean : layered.violations bareOptions = [] := by decide +kernel
  have h : (compile bareOptions layered).value = .ok (layered.compilation bareOptions) := by
    rw [compile_value, hclean]
    rfl
  have htext : (layered.compilation bareOptions).source = layeredText := by decide +kernel
  exact ⟨by decide, _, h, htext, by decide +kernel, compile_table_exact h⟩

end PixelJava
