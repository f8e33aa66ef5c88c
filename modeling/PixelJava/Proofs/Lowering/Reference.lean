/-
The references of a program by static scoping. A reference stands for the declaration of its name in
the innermost block around it that has one before it, and there for the latest one; the parameters
are outside all blocks. The initializer and the size of a declaration do not see it. References are
listed where the code has them, in its order and as often as it repeats them: an operation on each
channel repeats its operands, the last guard of a loop stands at its end once more, and a size that
does not become code has no place.
-/
import PixelJava.Proofs.Lowering.Emission
import PixelJava.Proofs.Java.Visibility

namespace PixelJava

/-! ## Expressions -/

/-- The operands of an operation in the order of its code; a pixel before an image changes places
with it. -/
def operands {α : Type} (how : Java.Operation) (leftType : Ty) (left right : List α) : List α :=
  if how = .imagePixel && leftType ≠ .image then how.arrange right left else how.arrange left right

/-- The names that an expression refers to. -/
def Expr.mentions : Expr → List String
  | .ident name _ _ => [name]
  | .num .. | .str .. | .bool .. | .const .. => []
  | .cond guard whenTrue whenFalse _ _ => guard.mentions ++ whenTrue.mentions ++ whenFalse.mentions
  | .binary left op right _ _ =>
    operands (operationOf left op right) left.type left.mentions right.mentions ++
      ((inPlaceVariable? left op right).map (·.name)).toList
  | .unary _ operand _ _ => operand.mentions
  | .select primary _ _ _ => primary.mentions
  | .selectAt primary x y _ _ _ _ => primary.mentions ++ (x.mentions ++ y.mentions)
  | .pixel red green blue _ => red.mentions ++ (green.mentions ++ blue.mentions)

/-! ## Declarations -/

/-- A declaration as a reference sees it; declarations are numbered from 0, parameters first. -/
structure Declaration where
  type : Ty
  number : Nat
  deriving DecidableEq

/-- The declarations that are visible at a node: those of the innermost block first, and in each
block the latest first. -/
abbrev Visible := List (String × Declaration)

/-- A name in the code, with the number of the declaration it stands for. -/
structure Reference where
  name : String
  number? : Option Nat
  deriving DecidableEq

def Visible.refer (visible : Visible) (name : String) : Reference :=
  ⟨name, (visible.lookup name).map (·.number)⟩

/-- What a statement with the next free number declares for those that follow it in its block. -/
def Stmt.binds (next : Nat) : Stmt → Visible
  | .declare defined _ _ => [(defined.name, ⟨defined.type, next⟩)]
  | _ => []

mutual

/-- The names that a statement declares, also in the blocks inside it. -/
def Stmt.declaredNames : Stmt → List String
  | .declare defined _ _ => [defined.name]
  | .assign .. | .write .. | .ret .. => []
  | .loop branches _ | .choose branches _ => branchesDeclaredNames branches
  | .block block => block.declaredNames

def Block.declaredNames : Block → List String
  | .mk body _ => bodyDeclaredNames body

def bodyDeclaredNames : List Stmt → List String
  | [] => []
  | stmt :: rest => stmt.declaredNames ++ bodyDeclaredNames rest

def branchesDeclaredNames : List Branch → List String
  | [] => []
  | .mk _ block _ :: rest => block.declaredNames ++ branchesDeclaredNames rest

end

/-! ## Statements -/

/-- The names that a declaration refers to; only an image is given its size. -/
def declarationMentions (defined : NameDef) (initializer : Option Expr) : List String :=
  initializer.elim [] Expr.mentions ++
    if defined.type = .image then
      defined.dimension.elim [] fun d => d.width.mentions ++ d.height.mentions
    else []

/-- Whether the value is written into the image variable that it is assigned to, so that the target
does not stand in the code. -/
def Visible.rewrites (visible : Visible) (target : Target) (value : Expr) : Bool :=
  (visible.lookup target.name).any (·.type = .image) && value.inPlace?.any (·.name = target.name)

/-- The names that an assignment refers to. A channel is set in the old value of its pixel. -/
def assignmentMentions (visible : Visible) (target : Target) (value : Expr) : List String :=
  match target.pixel, target.channel with
  | none, none =>
    (if visible.rewrites target value then [] else [target.name]) ++ value.mentions
  | none, some _ => [target.name] ++ ([target.name] ++ value.mentions)
  | some p, none => [target.name] ++ (p.x.mentions ++ (p.y.mentions ++ value.mentions))
  | some p, some _ =>
    [target.name] ++ (p.x.mentions ++ (p.y.mentions ++
      ([target.name] ++ (p.x.mentions ++ p.y.mentions) ++ value.mentions)))

mutual

/-- The references of a statement; `next` is the number of its first declaration. -/
def Stmt.references (visible : Visible) (next : Nat) : Stmt → List Reference
  | .declare defined initializer _ => (declarationMentions defined initializer).map visible.refer
  | .assign target value _ => (assignmentMentions visible target value).map visible.refer
  | .write value _ | .ret value _ => value.mentions.map visible.refer
  | .loop branches _ =>
    branchesReferences visible next branches ++
      branches.getLast?.elim [] fun last => last.guard.mentions.map visible.refer
  | .choose branches _ => branchesReferences visible next branches
  | .block block => block.references visible next

def Block.references (visible : Visible) (next : Nat) : Block → List Reference
  | .mk body _ => bodyReferences visible next body

def bodyReferences (visible : Visible) (next : Nat) : List Stmt → List Reference
  | [] => []
  | stmt :: rest =>
    stmt.references visible next ++
      bodyReferences (stmt.binds next ++ visible) (next + stmt.declaredNames.length) rest

def branchesReferences (visible : Visible) (next : Nat) : List Branch → List Reference
  | [] => []
  | .mk guard block _ :: rest =>
    guard.mentions.map visible.refer ++ block.references visible next ++
      branchesReferences visible (next + block.declaredNames.length) rest

end

/-! ## Programs -/

/-- The parameters as declarations; the last one of a name is the one that is seen. -/
def parametersVisible (params : List NameDef) : Visible :=
  (params.zipIdx.map fun (param, n) => (param.name, ⟨param.type, n⟩)).reverse

namespace Program

/-- The names that a program declares, in the order of their numbers. -/
def declaredNames (program : Program) : List String :=
  program.params.map (·.name) ++ program.block.declaredNames

def references (program : Program) : List Reference :=
  program.block.references (parametersVisible program.params) program.params.length

end Program

/-! ## Names of emitted expressions -/

theorem Java.Operation.map_arrange {α β : Type} (f : α → β) (how : Java.Operation)
    (left right : List α) :
    (how.arrange left right).map f = how.arrange (left.map f) (right.map f) := by
  cases how <;> simp [Java.Operation.arrange]

theorem Java.Operation.mem_arrange {α : Type} {a : α} (how : Java.Operation) {left right : List α} :
    a ∈ how.arrange left right ↔ a ∈ left ∨ a ∈ right := by
  cases how <;> simp [Java.Operation.arrange, Channel.all] <;> grind

theorem map_operands {α β : Type} (f : α → β) (how : Java.Operation) (leftType : Ty)
    (left right : List α) :
    (operands how leftType left right).map f =
      operands how leftType (left.map f) (right.map f) := by
  unfold operands
  split <;> exact Java.Operation.map_arrange ..

/-- An operation mentions what its operands mention, however it repeats them. -/
theorem mem_operands {α : Type} {a : α} {how : Java.Operation} {leftType : Ty} {left right : List α} :
    a ∈ operands how leftType left right ↔ a ∈ left ∨ a ∈ right := by
  unfold operands
  split
  · rw [Java.Operation.mem_arrange, or_comm]
  · exact how.mem_arrange

/-- The names in an operation are those of its operands, and the target that it writes to. -/
theorem names_operate (how : Java.Operation) (op : BinaryOp) (leftType : Ty) (left right : Java.Expr)
    (target : Option String) :
    (operate how op leftType left right target).names =
      operands how leftType left.names right.names ++ target.toList := by
  unfold operate operands
  cases target <;> split <;> simp [Java.Expr.names]

/-- The names that an expression is emitted with are those of the variables that it mentions. -/
theorem names_emit (names : String → String) (e : Expr) :
    (e.emit names).names = e.mentions.map names := by
  induction e with
  | ident | num | str | bool | const => rfl
  | cond guard whenTrue whenFalse type span ihg iht ihf =>
    simp only [Expr.emit, Java.Expr.names, Expr.mentions, ihg, iht, ihf, List.map_append]
  | binary left op right type span ihl ihr =>
    simp only [Expr.emit, names_operate, Expr.mentions, ihl, ihr, List.map_append, map_operands]
    cases inPlaceVariable? left op right <;> rfl
  | unary op operand type span ih => exact ih
  | select primary channel type span ih => cases channel <;> exact ih
  | selectAt primary x y place channel type span ih ihx ihy =>
    cases channel <;>
      simp only [Expr.emit, Java.Expr.names, Expr.mentions, ih, ihx, ihy, List.map_append]
  | pixel red green blue span ihr ihg ihb =>
    simp only [Expr.emit, Java.Expr.names, Expr.mentions, ihr, ihg, ihb, List.map_append]

end PixelJava
