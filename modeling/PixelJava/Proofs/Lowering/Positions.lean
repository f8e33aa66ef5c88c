/-
Positions play no part in code. A program without its positions has the zero span at every node;
besides, the types that targets state and the sizes of parameters are left out, since the declared
type of a variable decides what can be assigned to it and a parameter is made by the caller. Each
function that code is read off by is shown to go along with that: it gives the same for a tree with
and without its positions, up to the spans in the declaration table and the positions of faults.
-/
import PixelJava.Proofs.Lowering.Result

namespace PixelJava

/-! ## Trees without positions -/

def ChannelSelector.bare (c : ChannelSelector) : ChannelSelector :=
  ⟨c.channel, .zero⟩

/-- The expression with the zero span everywhere. -/
def Expr.bare : Expr → Expr
  | .ident name type _ => .ident name type .zero
  | .num text _ => .num text .zero
  | .str text _ => .str text .zero
  | .bool value _ => .bool value .zero
  | .const name type _ => .const name type .zero
  | .cond guard whenTrue whenFalse type _ =>
    .cond guard.bare whenTrue.bare whenFalse.bare type .zero
  | .binary left op right type _ => .binary left.bare op right.bare type .zero
  | .unary op operand type _ => .unary op operand.bare type .zero
  | .select primary channel type _ =>
    .select primary.bare (channel.map ChannelSelector.bare) type .zero
  | .selectAt primary x y _ channel type _ =>
    .selectAt primary.bare x.bare y.bare .zero (channel.map ChannelSelector.bare) type .zero
  | .pixel red green blue _ => .pixel red.bare green.bare blue.bare .zero

def PixelSelector.bare (p : PixelSelector) : PixelSelector :=
  ⟨p.x.bare, p.y.bare, .zero⟩

def Dimension.bare (d : Dimension) : Dimension :=
  ⟨d.width.bare, d.height.bare, .zero⟩

namespace NameDef

def bare (d : NameDef) : NameDef :=
  ⟨d.name, d.type, d.dimension.map Dimension.bare, .zero⟩

/-- A parameter without its position and its size. -/
def bareParam (d : NameDef) : NameDef :=
  ⟨d.name, d.type, none, .zero⟩

end NameDef

/-- The target without its positions and the type it states, in whose place any type could stand. -/
def Target.bare (t : Target) : Target :=
  ⟨t.name, t.pixel.map PixelSelector.bare, t.channel.map ChannelSelector.bare, .void, .zero⟩

mutual

def Stmt.bare : Stmt → Stmt
  | .declare defined initializer _ => .declare defined.bare (initializer.map Expr.bare) .zero
  | .assign target value _ => .assign target.bare value.bare .zero
  | .write value _ => .write value.bare .zero
  | .loop branches _ => .loop (bareBranches branches) .zero
  | .choose branches _ => .choose (bareBranches branches) .zero
  | .ret value _ => .ret value.bare .zero
  | .block block => .block block.bare

def Block.bare : Block → Block
  | .mk body _ => .mk (bareBody body) .zero

def bareBody : List Stmt → List Stmt
  | [] => []
  | stmt :: rest => stmt.bare :: bareBody rest

def bareBranches : List Branch → List Branch
  | [] => []
  | .mk guard block _ :: rest => .mk guard.bare block.bare .zero :: bareBranches rest

end

/-- The program without its positions, the types that targets state and the sizes of parameters. -/
def Program.bare (p : Program) : Program :=
  ⟨p.name, p.type, p.params.map NameDef.bareParam, p.block.bare, .zero⟩

/-- The entry without its position. -/
def Declared.bare (d : Declared) : Declared :=
  { d with span := .zero }

/-- The scopes without the positions in the table. -/
def Scopes.bare (s : Scopes) : Scopes :=
  { s with declared := s.declared.map Declared.bare }

/-- What faults are about, without their positions. -/
def causes (faults : List Fault) : List Cause :=
  faults.map Fault.cause

@[simp] theorem causes_append (v w : List Fault) : causes (v ++ w) = causes v ++ causes w :=
  List.map_append

/-- The cause of a fault does not depend on its position. -/
@[simp] theorem causes_require (holds : Bool) (cause : Cause) (position : Position) :
    causes (require holds cause position) = if holds then [] else [cause] := by
  cases holds <;> rfl

@[simp] theorem causes_levelViolations (limit : UInt64) (level : Nat) (start : Position) :
    causes (levelViolations limit level start) =
      if level ≤ limit.toNat then [] else [.tooDeep limit] := by
  simp [levelViolations]

/-! ## Expressions -/

theorem isSome_bare (channel : Option ChannelSelector) :
    (channel.map ChannelSelector.bare).isSome = channel.isSome :=
  Option.isSome_map

/-- A selector is described without its position. -/
theorem describeSelector_bare (hasPixel : Bool) (channel : Option ChannelSelector) :
    describeSelector hasPixel (channel.map ChannelSelector.bare) =
      describeSelector hasPixel channel := by
  cases hasPixel <;> cases channel <;> rfl

namespace Expr

/-- Positions do not enter into types. -/
@[simp] theorem type_bare (e : Expr) : e.bare.type = e.type := by
  cases e <;> rfl

theorem named_bare {α : Type} (f : String → α) (e : Expr) :
    (e.bare.named?.map fun v => f v.name) = e.named?.map fun v => f v.name := by
  induction e with
  | select primary channel type span ih =>
    cases channel with
    | none => exact ih
    | some c => rfl
  | ident | num | str | bool | const | cond | binary | unary | selectAt | pixel => rfl

/-- Whether a variable can be written in place does not depend on positions. -/
theorem inPlace_bare {α : Type} (f : String → α) (left : Expr) (op : BinaryOp) (right : Expr) :
    ((inPlaceVariable? left.bare op right.bare).map fun v => f v.name) =
      (inPlaceVariable? left op right).map fun v => f v.name := by
  unfold inPlaceVariable?
  rw [type_bare, type_bare]
  split
  · exact named_bare f left
  · rfl

/-- No position of an expression shows in what it is emitted as. -/
theorem emit_bare (names : String → String) (e : Expr) : e.bare.emit names = e.emit names := by
  induction e with
  | ident | num | str | bool | const => rfl
  | cond guard whenTrue whenFalse type span ihg iht ihf => simp only [bare, emit, ihg, iht, ihf]
  | binary left op right type span ihl ihr =>
    simp only [bare, emit, operationOf, type_bare, ihl, ihr, inPlace_bare]
  | unary op operand type span ih => simp only [bare, emit, ih]
  | select primary channel type span ih =>
    cases channel with
    | none => exact ih
    | some c => simp only [bare, Option.map_some, emit, type_bare, ih, ChannelSelector.bare]
  | selectAt primary x y place channel type span ih ihx ihy =>
    cases channel with
    | none => simp only [bare, Option.map_none, emit, ih, ihx, ihy]
    | some c => simp only [bare, Option.map_some, emit, ih, ihx, ihy, ChannelSelector.bare]
  | pixel red green blue span ihr ihg ihb => simp only [bare, emit, ihr, ihg, ihb]

theorem uses_bare (e : Expr) : e.bare.uses = e.uses := by
  induction e with
  | ident | num | str | bool | const => rfl
  | cond guard whenTrue whenFalse type span ihg iht ihf => simp only [bare, uses, ihg, iht, ihf]
  | binary left op right type span ihl ihr =>
    simp only [bare, uses, operationOf, type_bare, ihl, ihr]
  | unary op operand type span ih => exact ih
  | select primary channel type span ih =>
    cases channel with
    | none => exact ih
    | some c => simp only [bare, Option.map_some, uses, type_bare, ih, ChannelSelector.bare]
  | selectAt primary x y place channel type span ih ihx ihy =>
    cases channel with
    | none => simp only [bare, Option.map_none, uses, ih, ihx, ihy]
    | some c => simp only [bare, Option.map_some, uses, ih, ihx, ihy, ChannelSelector.bare]
  | pixel red green blue span ihr ihg ihb => simp only [bare, uses, ihr, ihg, ihb]

/-- The rules that a node breaks do not depend on positions. -/
theorem nodeViolations_bare (limit : UInt64) (bound : String → Bool) (e : Expr) : ∀ level,
    causes (e.bare.nodeViolations limit bound level) =
      causes (e.nodeViolations limit bound level) := by
  induction e with
  | ident | const => exact fun level => by simp only [bare, nodeViolations, causes_require]
  | num | str | bool => exact fun level => rfl
  | cond guard whenTrue whenFalse type span ihg iht ihf =>
    intro level
    simp only [bare, nodeViolations, atLevelViolations, causes_append, causes_levelViolations, ihg,
      iht, ihf]
  | binary left op right type span ihl ihr =>
    intro level
    simp only [bare, nodeViolations, atLevelViolations, causes_append, causes_levelViolations,
      causes_require, type_bare, ihl, ihr]
  | unary op operand type span ih =>
    intro level
    simp only [bare, nodeViolations, atLevelViolations, causes_append, causes_levelViolations,
      causes_require, type_bare, ih]
  | select primary channel type span ih =>
    intro level
    simp only [bare, nodeViolations, atLevelViolations, causes_append, causes_levelViolations,
      causes_require, type_bare, isSome_bare, describeSelector_bare, ih]
  | selectAt primary x y place channel type span ih ihx ihy =>
    intro level
    simp only [bare, nodeViolations, atLevelViolations, causes_append, causes_levelViolations,
      causes_require, type_bare, isSome_bare, describeSelector_bare, ih, ihx, ihy]
  | pixel red green blue span ihr ihg ihb =>
    intro level
    simp only [bare, nodeViolations, atLevelViolations, causes_append, causes_levelViolations, ihr,
      ihg, ihb]

/-- The rules that an expression breaks do not depend on positions. -/
theorem violations_bare (limit : UInt64) (bound : String → Bool) (level : Nat) (e : Expr) :
    causes (e.bare.violations limit bound level) = causes (e.violations limit bound level) := by
  simp only [violations, atLevelViolations, causes_append, causes_levelViolations,
    nodeViolations_bare]

end Expr

/-! ## Scopes -/

namespace Scopes

theorem enter_bare (s : Scopes) : s.bare.enter = s.enter.bare := rfl

theorem exit_bare (s : Scopes) : s.bare.exit = s.exit.bare := rfl

theorem javaNameOf_bare (s : Scopes) : s.bare.javaNameOf = s.javaNameOf := rfl

/-- Positions of declarations do not enter into names. -/
theorem nextName_bare (s : Scopes) (name : String) : s.bare.nextName name = s.nextName name := rfl

theorem opened_bare (s : Scopes) : s.bare.opened = s.opened.bare := by
  obtain ⟨frames, counters, declared⟩ := s
  cases frames <;> rfl

theorem counted_bare (s : Scopes) (name : String) :
    s.bare.counted name = (s.counted name).bare := by
  have hbound : s.bare.isBound name = s.isBound name := rfl
  unfold counted
  rw [hbound]
  split <;> rfl

/-- A binding is found under its name wherever it was declared. -/
theorem bind_bare (s : Scopes) (name javaName : String) (type : Ty) (span : Span) :
    s.bare.bind name javaName type .zero = (s.bind name javaName type span).bare := by
  simp [bind, bare, depth, Declared.bare]

/-- A declaration puts the same name into the frames, whatever its position. -/
theorem add_bare (s : Scopes) (name : String) (type : Ty) (span : Span) :
    (s.bare.add name type .zero).2 = (s.add name type span).2.bare := by
  simp only [add, opened_bare, counted_bare, nextName_bare, bind_bare _ _ _ _ span]

end Scopes

/-! ## Statements -/

/-- Blanking keeps the last branch in its place. -/
theorem getLast?_bareBranches : ∀ branches : List Branch,
    (bareBranches branches).getLast? =
      branches.getLast?.map fun b => .mk b.guard.bare b.block.bare .zero
  | [] => rfl
  | [.mk _ _ _] => rfl
  | .mk _ _ _ :: .mk guard block span :: rest =>
    getLast?_bareBranches (.mk guard block span :: rest)

theorem declarationParts_bare (defined : NameDef) (initializer : Option Expr) :
    declarationParts defined.bare (initializer.map Expr.bare) =
      (declarationParts defined initializer).map Expr.bare := by
  obtain ⟨name, type, dimension, span⟩ := defined
  cases initializer <;> cases dimension <;> rfl

theorem assignmentParts_bare (target : Target) (value : Expr) :
    assignmentParts target.bare value.bare = (assignmentParts target value).map Expr.bare := by
  obtain ⟨name, pixel, channel, type, span⟩ := target
  cases pixel <;> rfl

theorem causes_parts_bare (limit : UInt64) (bound : String → Bool) (level : Nat)
    (parts : List Expr) :
    causes ((parts.map Expr.bare).flatMap (Expr.violations limit bound level)) =
      causes (parts.flatMap (Expr.violations limit bound level)) := by
  induction parts with
  | nil => rfl
  | cons e rest ih =>
    simp only [List.map_cons, List.flatMap_cons, causes_append, Expr.violations_bare, ih]

theorem uses_parts_bare (parts : List Expr) :
    (parts.map Expr.bare).flatMap Expr.uses = parts.flatMap Expr.uses := by
  simp only [List.flatMap_map, Expr.uses_bare]

/-- No position of a declaration shows in what it is emitted as. -/
theorem emitDeclaration_bare (s : Scopes) (defined : NameDef) (initializer : Option Expr) :
    emitDeclaration s.bare defined.bare (initializer.map Expr.bare) =
      emitDeclaration s defined initializer := by
  obtain ⟨name, type, dimension, span⟩ := defined
  cases initializer <;> cases dimension <;>
    simp [emitDeclaration, NameDef.bare, Dimension.bare, Expr.emit_bare] <;> rfl

/-- The type that a target states loses against the declared type of its variable. -/
theorem writesInto_bare (s : Scopes) (target : Target) (value : Expr) :
    writesInto s.bare target.bare value.bare = writesInto s target value := by
  have hinPlace : (value.bare.inPlace?.map fun v => s.javaNameOf v.name) =
      value.inPlace?.map fun v => s.javaNameOf v.name := by
    cases value with
    | binary left op right type span => exact Expr.inPlace_bare s.javaNameOf left op right
    | ident | num | str | bool | const | cond | unary | select | selectAt | pixel => rfl
  have hfind : s.bare.find? target.bare.name = s.find? target.name := rfl
  unfold writesInto
  rw [hfind, Scopes.javaNameOf_bare, hinPlace]
  rfl

/-- No position of an assignment shows in what it is emitted as. -/
theorem emitAssignment_bare (s : Scopes) (target : Target) (value : Expr) :
    emitAssignment s.bare target.bare value.bare = emitAssignment s target value := by
  have hwrites := writesInto_bare s target value
  obtain ⟨name, pixel, channel, type, span⟩ := target
  unfold emitAssignment
  cases pixel with
  | none =>
    cases channel with
    | none =>
      simp only [Target.bare, Option.map_none, Scopes.javaNameOf_bare, Expr.emit_bare] at hwrites ⊢
      simp only [hwrites]
    | some c =>
      simp only [Target.bare, Option.map_none, Option.map_some, ChannelSelector.bare,
        Scopes.javaNameOf_bare, Expr.emit_bare]
  | some p =>
    cases channel with
    | none =>
      simp only [Target.bare, Option.map_none, Option.map_some, PixelSelector.bare,
        Scopes.javaNameOf_bare, Expr.emit_bare]
    | some c =>
      simp only [Target.bare, Option.map_some, PixelSelector.bare, ChannelSelector.bare,
        Scopes.javaNameOf_bare, Expr.emit_bare]

/-- Whether a target can be assigned to does not depend on positions. -/
theorem Target.violations_bare (around : Around) (target : Target) :
    causes (target.bare.violations around) = causes (target.violations around) := by
  have hdescribe (type : Ty) : describeTarget type target.bare = describeTarget type target := by
    simp only [describeTarget, Target.bare, Option.isNone_map, Option.isSome_map,
      describeSelector_bare]
  unfold Target.violations
  cases hfound : around.lookup target.name with
  | none => simp only [Target.bare, hfound]; rfl
  | some type =>
    have hfound' : around.lookup target.bare.name = some type := hfound
    rw [hfound']
    simp only [causes_require, hdescribe]
    simp only [Target.bare, Option.isSome_map]

mutual

/-- A statement without positions declares what it declares with them. -/
theorem Stmt.scopesAfter_bare (s : Scopes) : ∀ stmt : Stmt,
    stmt.bare.scopesAfter s.bare = (stmt.scopesAfter s).bare
  | .declare defined initializer span => s.add_bare defined.name defined.type defined.span
  | .assign .. | .write .. | .ret .. => by simp only [Stmt.bare, Stmt.scopesAfter]
  | .loop branches span | .choose branches span => scopesAfter_bareBranches s branches
  | .block block => block.scopesAfter_bare s

theorem Block.scopesAfter_bare (s : Scopes) : ∀ block : Block,
    block.bare.scopesAfter s.bare = (block.scopesAfter s).bare
  | .mk body span => by
    rw [Block.bare, Block.scopesAfter, s.enter_bare, scopesAfter_bareBody s.enter body,
      Scopes.exit_bare, Block.scopesAfter]

theorem scopesAfter_bareBody (s : Scopes) : ∀ body : List Stmt,
    bodyScopesAfter s.bare (bareBody body) = (bodyScopesAfter s body).bare
  | [] => rfl
  | stmt :: rest => by
    rw [bareBody, bodyScopesAfter, stmt.scopesAfter_bare s,
      scopesAfter_bareBody (stmt.scopesAfter s) rest, bodyScopesAfter]

theorem scopesAfter_bareBranches (s : Scopes) : ∀ branches : List Branch,
    branchesScopesAfter s.bare (bareBranches branches) = (branchesScopesAfter s branches).bare
  | [] => rfl
  | .mk guard block span :: rest => by
    rw [bareBranches, branchesScopesAfter, block.scopesAfter_bare s,
      scopesAfter_bareBranches (block.scopesAfter s) rest, branchesScopesAfter]

end

mutual

/-- No position of a statement shows in what it is emitted as. -/
theorem Stmt.emit_bare (s : Scopes) : ∀ stmt : Stmt, stmt.bare.emit s.bare = stmt.emit s
  | .declare defined initializer span => emitDeclaration_bare s defined initializer
  | .assign target value span => emitAssignment_bare s target value
  | .write value span => by
    simp only [Stmt.bare, Stmt.emit, Expr.type_bare, Scopes.javaNameOf_bare, Expr.emit_bare]
  | .loop branches span => by
    rw [Stmt.bare, Stmt.emit, Stmt.emit, getLast?_bareBranches, emit_bareBranches s branches]
    cases branches.getLast? with
    | none => rfl
    | some last => exact congrArg (Java.Stmt.loop _) (last.guard.emit_bare s.javaNameOf)
  | .choose branches span => by
    simp only [Stmt.bare, Stmt.emit, emit_bareBranches s branches]
  | .ret value span => by simp only [Stmt.bare, Stmt.emit, Scopes.javaNameOf_bare, Expr.emit_bare]
  | .block block => congrArg Java.Stmt.block (block.emit_bare s)

theorem Block.emit_bare (s : Scopes) : ∀ block : Block, block.bare.emit s.bare = block.emit s
  | .mk body _ => emit_bareBody s.enter body

theorem emit_bareBody (s : Scopes) : ∀ body : List Stmt,
    emitBody s.bare (bareBody body) = emitBody s body
  | [] => rfl
  | stmt :: rest => by
    rw [bareBody, emitBody, stmt.emit_bare s, stmt.scopesAfter_bare s,
      emit_bareBody (stmt.scopesAfter s) rest, emitBody]

theorem emit_bareBranches (s : Scopes) : ∀ branches : List Branch,
    emitBranches s.bare (bareBranches branches) = emitBranches s branches
  | [] => rfl
  | .mk guard block span :: rest => by
    rw [bareBranches, emitBranches, block.emit_bare s, block.scopesAfter_bare s,
      emit_bareBranches (block.scopesAfter s) rest, Scopes.javaNameOf_bare, Expr.emit_bare,
      emitBranches]

end

mutual

/-- Positions do not enter into the classes that a statement uses. -/
theorem Stmt.uses_bare : ∀ stmt : Stmt, stmt.bare.uses = stmt.uses
  | .declare defined initializer _ => by
    have hown : declarationUses defined.bare (initializer.map Expr.bare) =
        declarationUses defined initializer := by
      cases initializer <;> simp [declarationUses, NameDef.bare]
    rw [Stmt.bare, Stmt.uses, declarationParts_bare, uses_parts_bare, hown, Stmt.uses]
  | .assign target value span => by
    have hown : target.bare.uses = target.uses := by
      obtain ⟨name, pixel, channel, type, span⟩ := target
      cases pixel <;> cases channel <;> rfl
    rw [Stmt.bare, Stmt.uses, assignmentParts_bare, uses_parts_bare, hown, Stmt.uses]
  | .write value span => by rw [Stmt.bare, Stmt.uses, Expr.uses_bare, Stmt.uses]
  | .loop branches span | .choose branches span => uses_bareBranches branches
  | .ret value span => value.uses_bare
  | .block block => block.uses_bare

theorem Block.uses_bare : ∀ block : Block, block.bare.uses = block.uses
  | .mk body _ => uses_bareBody body

theorem uses_bareBody : ∀ body : List Stmt, bodyUses (bareBody body) = bodyUses body
  | [] => rfl
  | stmt :: rest => by rw [bareBody, bodyUses, stmt.uses_bare, uses_bareBody rest, bodyUses]

theorem uses_bareBranches : ∀ branches : List Branch,
    branchesUses (bareBranches branches) = branchesUses branches
  | [] => rfl
  | .mk guard block span :: rest => by
    rw [bareBranches, branchesUses, guard.uses_bare, block.uses_bare, uses_bareBranches rest,
      branchesUses]

end

theorem Stmt.declares_bare (stmt : Stmt) : stmt.bare.declares = stmt.declares := by
  cases stmt <;> rfl

mutual

/-- The rules that a statement breaks do not depend on positions. -/
theorem Stmt.violations_bare (limit : UInt64) (around : Around) (level : Nat) : ∀ stmt : Stmt,
    causes (stmt.bare.violations limit around level) = causes (stmt.violations limit around level)
  | .declare defined initializer span => by
    simp only [Stmt.bare, Stmt.violations, declarationParts_bare, causes_append, causes_parts_bare,
      causes_require]
    rfl
  | .assign target value span => by
    simp only [Stmt.bare, Stmt.violations, assignmentParts_bare, causes_append, causes_parts_bare,
      Target.violations_bare]
  | .write value span | .ret value span => value.violations_bare limit around.declares level
  | .loop branches span | .choose branches span =>
    violations_bareBranches limit around level branches
  | .block block => block.violations_bare limit around level

theorem Block.violations_bare (limit : UInt64) (around : Around) (level : Nat) : ∀ block : Block,
    causes (block.bare.violations limit around level) = causes (block.violations limit around level)
  | .mk body span => by
    simp only [Block.bare, Block.violations, causes_append, causes_levelViolations,
      violations_bareBody limit around (level + 1) body]

theorem violations_bareBody (limit : UInt64) (around : Around) (level : Nat) : ∀ body : List Stmt,
    causes (bodyViolations limit around level (bareBody body)) =
      causes (bodyViolations limit around level body)
  | [] => rfl
  | stmt :: rest => by
    simp only [bareBody, bodyViolations, causes_append, stmt.violations_bare limit around level,
      stmt.declares_bare, violations_bareBody limit (stmt.declares ++ around) level rest]

theorem violations_bareBranches (limit : UInt64) (around : Around) (level : Nat) :
    ∀ branches : List Branch,
      causes (branchesViolations limit around level (bareBranches branches)) =
        causes (branchesViolations limit around level branches)
  | [] => rfl
  | .mk guard block span :: rest => by
    simp only [bareBranches, branchesViolations, causes_append, Expr.violations_bare,
      block.violations_bare limit around level, violations_bareBranches limit around level rest]

end

/-! ## Programs -/

theorem paramsScopesAfter_bare : ∀ (s : Scopes) (params : List NameDef),
    paramsScopesAfter s.bare (params.map NameDef.bareParam) = (paramsScopesAfter s params).bare
  | s, [] => rfl
  | s, param :: rest => by
    have hrest := paramsScopesAfter_bare (s.add param.name param.type param.span).2 rest
    rw [← s.add_bare] at hrest
    exact hrest

/-- Parameters are emitted alike without their positions. -/
theorem emitParams_bare : ∀ (s : Scopes) (params : List NameDef),
    emitParams s.bare (params.map NameDef.bareParam) = emitParams s params
  | s, [] => rfl
  | s, param :: rest => by
    have hrest := emitParams_bare (s.add param.name param.type param.span).2 rest
    rw [← s.add_bare] at hrest
    exact congrArg (⟨param.type, s.nextName param.name⟩ :: ·) hrest

namespace Program

variable (options : Options) (p : Program)

theorem blockScopes_bare : p.bare.blockScopes = p.blockScopes.bare :=
  paramsScopesAfter_bare Scopes.empty.enter p.params

theorem uses_bare : p.bare.uses = p.uses := by
  have hparams : p.bare.params.flatMap (fun param => typeUses param.type) =
      p.params.flatMap fun param => typeUses param.type := by
    simp only [bare, List.flatMap_map]
    rfl
  rw [uses, hparams, uses]
  exact congrArg (fun libs => _ ++ (libs ++ _)) p.block.uses_bare

/-- A program is emitted alike without its positions. -/
theorem unit_bare : p.bare.unit options = p.unit options := by
  have hparams : emitParams Scopes.empty.enter p.bare.params =
      emitParams Scopes.empty.enter p.params := emitParams_bare Scopes.empty.enter p.params
  have hbody : p.bare.block.emit p.bare.blockScopes = p.block.emit p.blockScopes := by
    rw [blockScopes_bare]
    exact p.block.emit_bare p.blockScopes
  rw [unit, uses_bare, hparams, hbody]
  rfl

theorem violations_bare : causes (p.bare.violations options) = causes (p.violations options) := by
  have hparams : causes (p.bare.params.flatMap NameDef.violations) =
      causes (p.params.flatMap NameDef.violations) := by
    simp only [bare]
    induction p.params with
    | nil => rfl
    | cons param rest ih =>
      simp only [List.map_cons, List.flatMap_cons, causes_append, ih, NameDef.violations,
        causes_require]
      rfl
  have haround : parametersAround p.bare.params = parametersAround p.params := by
    simp only [parametersAround, bare, List.map_map]
    rfl
  simp only [violations, causes_append, causes_require, hparams, haround]
  rw [show p.bare.block = p.block.bare from rfl, Block.violations_bare]
  rfl

/-- What compiling a program without its positions gives differs in the table's positions only. -/
theorem compilation_bare : p.bare.compilation options =
    { p.compilation options with
      declared := (p.compilation options).declared.map Declared.bare } := by
  have htable : p.bare.block.scopesAfter p.bare.blockScopes =
      (p.block.scopesAfter p.blockScopes).bare := by
    rw [blockScopes_bare]
    exact p.block.scopesAfter_bare p.blockScopes
  rw [compilation, unit_bare, htable]
  rfl

end Program

/-- Two programs that are the same but for the spans of their nodes, the types that their targets
state and the sizes of their parameters: with any options, either both compile, to the same class
name, the same source and the same table but for its spans, or both fail with the same cause. -/
theorem compile_ignores_positions {p q : Program} (h : p.bare = q.bare) (options : Options) :
    (∃ c d, (compile options p).value = .ok c ∧ (compile options q).value = .ok d ∧
        c.className = d.className ∧ c.source = d.source ∧
        c.declared.map Declared.bare = d.declared.map Declared.bare) ∨
      ∃ f g, (compile options p).value = .error f ∧ (compile options q).value = .error g ∧
        f.cause = g.cause := by
  have hcauses : causes (p.violations options) = causes (q.violations options) := by
    rw [← p.violations_bare, h, q.violations_bare]
  have hcompilation := p.compilation_bare options
  rw [h, q.compilation_bare, Compilation.mk.injEq] at hcompilation
  obtain ⟨hname, hsource, htable⟩ := hcompilation
  rw [compile_value, compile_value]
  cases hp : p.violations options with
  | nil =>
    rw [hp] at hcauses
    have hq : q.violations options = [] := List.map_eq_nil_iff.1 hcauses.symm
    rw [hq]
    exact .inl ⟨_, _, rfl, rfl, hname.symm, hsource.symm, htable.symm⟩
  | cons f rest =>
    rw [hp] at hcauses
    obtain ⟨g, rest', hq, hcause, -⟩ := List.map_eq_cons_iff.1 hcauses.symm
    rw [hq]
    exact .inr ⟨f, g, rfl, rfl, hcause.symm⟩

/-- A program on one line that sets a channel of a pixel of `name`, where `stated` is the type that
the target states and `size` is the size of the parameter `im`. -/
def tinted (name : String) (line : UInt32) (stated : Ty) (size : Option Dimension) : Program :=
  let place : Span := ⟨⟨line, 1⟩, ⟨line, 9⟩⟩
  let zero : Expr := .num "0" place
  let im : Expr := .ident "im" .image place
  let corner : Target := ⟨name, some ⟨zero, zero, place⟩, some ⟨.red, place⟩, stated, place⟩
  let again : NameDef := ⟨"im", .image, some ⟨zero, zero, place⟩, place⟩
  ⟨"Tinted", .image, [⟨"im", .image, size, place⟩],
    .mk [.assign corner zero place, .declare again (some im) place, .ret im place] place, place⟩

/-- Two programs that compile, and two that do not; the positions differ in their tables and in
their faults. -/
theorem tinted_ignores_positions :
    let size : Dimension := ⟨.num "4" .zero, .num "5" .zero, .zero⟩
    let p := tinted "im" 3 .image none
    let q := tinted "im" 8 .string (some size)
    let p' := tinted "jm" 3 .image none
    let q' := tinted "jm" 8 .string (some size)
    (p.bare = q.bare ∧ ∃ c d, (compile .default p).value = .ok c ∧
        (compile .default q).value = .ok d ∧ c.className = d.className ∧ c.source = d.source ∧
        c.declared.map Declared.bare = d.declared.map Declared.bare ∧ c.declared ≠ d.declared) ∧
      p'.bare = q'.bare ∧ ∃ f g, (compile .default p').value = .error f ∧
        (compile .default q').value = .error g ∧ f.cause = g.cause ∧ f.position ≠ g.position := by
  intro size p q p' q'
  have hp : (compile .default p).value = .ok (p.compilation .default) :=
    compile_of_clean (by decide +kernel)
  have hq : (compile .default q).value = .ok (q.compilation .default) :=
    compile_of_clean (by decide +kernel)
  have hfaults : p'.violations .default = [⟨.unresolved "jm", ⟨3, 1⟩⟩] := by decide +kernel
  have hfaults' : q'.violations .default = [⟨.unresolved "jm", ⟨8, 1⟩⟩] := by decide +kernel
  have hp' : (compile .default p').value = .error ⟨.unresolved "jm", ⟨3, 1⟩⟩ := by
    rw [compile_value, hfaults]; rfl
  have hq' : (compile .default q').value = .error ⟨.unresolved "jm", ⟨8, 1⟩⟩ := by
    rw [compile_value, hfaults']; rfl
  refine ⟨⟨rfl, ?_⟩, rfl, ?_⟩
  · rcases compile_ignores_positions (p := p) (q := q) rfl .default with
      ⟨c, d, hc, hd, hname, hsource, htable⟩ | ⟨f, g, hf, -⟩
    · refine ⟨c, d, hc, hd, hname, hsource, htable, ?_⟩
      rw [← Except.ok.inj (hp.symm.trans hc), ← Except.ok.inj (hq.symm.trans hd)]
      decide +kernel
    · cases hp.symm.trans hf
  · rcases compile_ignores_positions (p := p') (q := q') rfl .default with
      ⟨c, d, hc, -⟩ | ⟨f, g, hf, hg, hcause⟩
    · cases hp'.symm.trans hc
    · refine ⟨f, g, hf, hg, hcause, ?_⟩
      rw [← Except.error.inj (hp'.symm.trans hf), ← Except.error.inj (hq'.symm.trans hg)]
      decide

end PixelJava
