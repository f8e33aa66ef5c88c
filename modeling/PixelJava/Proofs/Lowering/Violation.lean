/-
What can be wrong with a program, listed from front to back. The list is read off the tree alone:
names are looked up among the declarations around a node, whose types the tree states. At each node
the nesting comes first, then the check of its own operator or selector, then its parts; the name of
a declaration is checked after its initializer and size. The size of a parameter plays no part.
-/
import PixelJava.Lowering.Program

namespace PixelJava

/-- The fault, unless the condition holds. -/
def require (holds : Bool) (cause : Cause) (position : Position) : List Fault :=
  if holds then [] else [⟨cause, position⟩]

@[simp] theorem require_eq_nil {holds : Bool} {cause : Cause} {position : Position} :
    require holds cause position = [] ↔ holds = true := by
  cases holds <;> simp [require]

/-- A node that stands `level` deep must not be beyond the limit. -/
def levelViolations (limit : UInt64) (level : Nat) (start : Position) : List Fault :=
  require (level ≤ limit.toNat) (.tooDeep limit) start

/-! ## Expressions -/

/-- Whether the selector picks a part that values of the type have. -/
def selectable (type : Ty) (hasPixel hasChannel : Bool) : Bool :=
  match hasPixel, hasChannel with
  | false, false => true
  | false, true => type = .pixel || type = .image
  | true, _ => type = .image

namespace Expr

/-- The violations of `e` with `level` blocks and expressions around it, where `node` gives those
that are not about its nesting. -/
def atLevelViolations (limit : UInt64) (level : Nat) (e : Expr) (node : Nat → List Fault) :
    List Fault :=
  levelViolations limit (level + 1) e.span.start ++ node (level + 1)

/-- The violations of an expression that stands `level` deep, its own nesting apart; `bound` tells
which names are declared around it. -/
def nodeViolations (limit : UInt64) (bound : String → Bool) : Expr → Nat → List Fault
  | .ident name _ span, _ => require (bound name) (.unresolved name) span.start
  | .num .., _ | .str .., _ | .bool .., _ => []
  | .const name _ span, _ =>
    require (Constant.find? name).isSome (.unknownConstant name) span.start
  | .cond guard whenTrue whenFalse _ _, level =>
    guard.atLevelViolations limit level (guard.nodeViolations limit bound) ++
      (whenTrue.atLevelViolations limit level (whenTrue.nodeViolations limit bound) ++
        whenFalse.atLevelViolations limit level (whenFalse.nodeViolations limit bound))
  | .binary left op right _ span, level =>
    require (Java.Operation.find? op left.type right.type).isSome
        (.unsupportedBinary op left.type right.type) span.start ++
      (left.atLevelViolations limit level (left.nodeViolations limit bound) ++
        right.atLevelViolations limit level (right.nodeViolations limit bound))
  | .unary op operand _ span, level =>
    require (op.accepts operand.type) (.unsupportedUnary op operand.type) span.start ++
      operand.atLevelViolations limit level (operand.nodeViolations limit bound)
  | .select primary channel _ span, level =>
    require (selectable primary.type false channel.isSome)
        (.unsupportedSelector primary.type (describeSelector false channel)) span.start ++
      primary.atLevelViolations limit level (primary.nodeViolations limit bound)
  | .selectAt primary x y _ channel _ span, level =>
    require (selectable primary.type true channel.isSome)
        (.unsupportedSelector primary.type (describeSelector true channel)) span.start ++
      (primary.atLevelViolations limit level (primary.nodeViolations limit bound) ++
        (x.atLevelViolations limit level (x.nodeViolations limit bound) ++
          y.atLevelViolations limit level (y.nodeViolations limit bound)))
  | .pixel red green blue _, level =>
    red.atLevelViolations limit level (red.nodeViolations limit bound) ++
      (green.atLevelViolations limit level (green.nodeViolations limit bound) ++
        blue.atLevelViolations limit level (blue.nodeViolations limit bound))

/-- The violations of an expression with `level` blocks and expressions around it. -/
def violations (limit : UInt64) (bound : String → Bool) (level : Nat) (e : Expr) : List Fault :=
  e.atLevelViolations limit level (e.nodeViolations limit bound)

end Expr

/-! ## Statements -/

/-- The declarations around a node, the latest of the innermost block first. -/
abbrev Around := List (String × Ty)

def Around.declares (around : Around) (name : String) : Bool :=
  (around.lookup name).isSome

/-- Whether the part of a variable of the type can be assigned. -/
def assignable (type : Ty) (hasPixel hasChannel : Bool) : Bool :=
  match hasPixel, hasChannel with
  | false, false => true
  | false, true => type = .pixel
  | true, _ => type = .image

/-- What cannot be assigned, in words. -/
def describeTarget (type : Ty) (target : Target) : String :=
  if type = .image && target.pixel.isNone then "a channel selector without coordinates"
  else describeSelector target.pixel.isSome target.channel

/-- The violations of the left side of an assignment, coordinates apart. -/
def Target.violations (around : Around) (target : Target) : List Fault :=
  match around.lookup target.name with
  | none => [⟨.unresolved target.name, target.span.start⟩]
  | some type =>
    require (assignable type target.pixel.isSome target.channel.isSome)
      (.unsupportedTarget target.name (describeTarget type target)) target.span.start

/-- The expressions of a declaration, in the order they are lowered. -/
def declarationParts (defined : NameDef) (initializer : Option Expr) : List Expr :=
  initializer.toList ++ defined.dimension.elim [] fun d => [d.width, d.height]

/-- The expressions of an assignment, in the order they are lowered. -/
def assignmentParts (target : Target) (value : Expr) : List Expr :=
  (target.pixel.elim [] fun p => [p.x, p.y]) ++ [value]

/-- What a statement declares for those that follow it in its block. -/
def Stmt.declares : Stmt → Around
  | .declare defined _ _ => [(defined.name, defined.type)]
  | _ => []

mutual

/-- The violations of a statement with `level` blocks around it. -/
def Stmt.violations (limit : UInt64) (around : Around) (level : Nat) : Stmt → List Fault
  | .declare defined initializer _ =>
    (declarationParts defined initializer).flatMap (Expr.violations limit around.declares level) ++
      require (Java.isSourceName defined.name) (.invalidName defined.name) defined.span.start
  | .assign target value _ =>
    target.violations around ++
      (assignmentParts target value).flatMap (Expr.violations limit around.declares level)
  | .write value _ | .ret value _ => value.violations limit around.declares level
  | .loop branches _ | .choose branches _ => branchesViolations limit around level branches
  | .block block => block.violations limit around level

def Block.violations (limit : UInt64) (around : Around) (level : Nat) : Block → List Fault
  | .mk body span =>
    levelViolations limit (level + 1) span.start ++ bodyViolations limit around (level + 1) body

def bodyViolations (limit : UInt64) (around : Around) (level : Nat) : List Stmt → List Fault
  | [] => []
  | stmt :: rest =>
    stmt.violations limit around level ++
      bodyViolations limit (stmt.declares ++ around) level rest

def branchesViolations (limit : UInt64) (around : Around) (level : Nat) :
    List Branch → List Fault
  | [] => []
  | .mk guard block _ :: rest =>
    guard.violations limit around.declares level ++ (block.violations limit around level ++
      branchesViolations limit around level rest)

end

/-! ## Programs -/

/-- The violations of a parameter: its name has to be one. -/
def NameDef.violations (defined : NameDef) : List Fault :=
  require (Java.isSourceName defined.name) (.invalidName defined.name) defined.span.start

/-- The violations of the options; they have no position. -/
def Options.violations (o : Options) : List Fault :=
  (o.package.elim [] fun package =>
      require (Java.isPackage package) (.invalidName package) .zero) ++
    (require (Java.isPackage o.libraryPackage) (.invalidName o.libraryPackage) .zero ++
      require (Java.isName o.entryPoint) (.invalidName o.entryPoint) .zero)

/-- The declarations that the parameters are, the last one first. -/
def parametersAround (params : List NameDef) : Around :=
  (params.map fun p => (p.name, p.type)).reverse

/-- All violations of a program, in the order in which they are come upon. -/
def Program.violations (options : Options) (program : Program) : List Fault :=
  options.violations ++
    (require (Java.isName program.name) (.invalidName program.name) program.span.start ++
      (program.params.flatMap NameDef.violations ++
        program.block.violations options.maxDepth (parametersAround program.params) 0))

end PixelJava
