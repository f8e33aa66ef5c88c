/-
The code that a tree becomes, read off the tree and the scopes around each node, without a log and
without checks: what is given here for a tree that cannot be lowered means nothing. Besides the code
there are the scopes after a statement and the library classes that a tree uses.
-/
import PixelJava.Proofs.Scope.Invariant
import PixelJava.Proofs.Lowering.Violation

namespace PixelJava

/-- The Java name that a name stands for. -/
def Scopes.javaNameOf (s : Scopes) (name : String) : String :=
  (s.find? name).elim name (·.javaName)

/-! ## Expressions -/

/-- The way to carry out `left op right`. -/
def operationOf (left : Expr) (op : BinaryOp) (right : Expr) : Java.Operation :=
  (Java.Operation.find? op left.type right.type).getD .native

/-- The method that selects a channel of a value of the type. -/
def selectMethod (type : Ty) (channel : Channel) : Java.Method :=
  if type = .image then .extract channel else .channel channel

namespace Expr

/-- The code of an expression, where `names` gives the Java names of its variables. -/
def emit (names : String → String) : Expr → Java.Expr
  | .ident name _ _ => .name (names name)
  | .num text _ | .str text _ => .literal text
  | .bool value _ => .literal (if value then "true" else "false")
  | .const name _ _ => .integer ((Constant.find? name).elim 0 (·.value))
  | .cond guard whenTrue whenFalse _ _ =>
    .cond (guard.emit names) (whenTrue.emit names) (whenFalse.emit names)
  | .binary left op right _ _ =>
    operate (operationOf left op right) op left.type (left.emit names) (right.emit names)
      ((inPlaceVariable? left op right).map fun v => names v.name)
  | .unary op operand _ _ => .unary op (operand.emit names)
  | .select primary none _ _ => primary.emit names
  | .select primary (some c) _ _ =>
    .call1 (selectMethod primary.type c.channel) (primary.emit names)
  | .selectAt primary x y _ none _ _ =>
    .call3 .getPixel (primary.emit names) (x.emit names) (y.emit names)
  | .selectAt primary x y _ (some c) _ _ =>
    .call1 (.channel c.channel) (.call3 .getPixel (primary.emit names) (x.emit names) (y.emit names))
  | .pixel red green blue _ => .call3 .pack (red.emit names) (green.emit names) (blue.emit names)

/-- The library classes that the code of an expression uses. -/
def uses : Expr → List Java.Library
  | .ident .. | .num .. | .str .. | .bool .. | .const .. => []
  | .cond guard whenTrue whenFalse _ _ => guard.uses ++ (whenTrue.uses ++ whenFalse.uses)
  | .binary left op right _ _ =>
    left.uses ++ (right.uses ++ (operationOf left op right).owner?.toList)
  | .unary _ operand _ _ => operand.uses
  | .select primary none _ _ => primary.uses
  | .select primary (some c) _ _ => primary.uses ++ [(selectMethod primary.type c.channel).owner]
  | .selectAt primary x y _ none _ _ =>
    primary.uses ++ (x.uses ++ (y.uses ++ [Java.Method.getPixel.owner]))
  | .selectAt primary x y _ (some c) _ _ =>
    primary.uses ++ (x.uses ++ (y.uses ++
      [Java.Method.getPixel.owner, (Java.Method.channel c.channel).owner]))
  | .pixel red green blue _ =>
    red.uses ++ (green.uses ++ (blue.uses ++ [Java.Method.pack.owner]))

/-- The image variable that the code of an expression as a whole writes into. -/
def inPlace? : Expr → Option Variable
  | .binary left op right _ _ => inPlaceVariable? left op right
  | _ => none

end Expr

/-! ## Statements -/

/-- The code of a declaration. -/
def emitDeclaration (s : Scopes) (defined : NameDef) (initializer : Option Expr) : Java.Stmt :=
  declaration defined.type (s.nextName defined.name)
    (initializer.map fun e => (e.type, e.emit s.javaNameOf))
    (defined.dimension.map fun d => (d.width.emit s.javaNameOf, d.height.emit s.javaNameOf))

/-- Whether the code of `value` writes into the image variable that it is assigned to. -/
def writesInto (s : Scopes) (target : Target) (value : Expr) : Bool :=
  (s.find? target.name).any (·.type = .image) &&
    (value.inPlace?.map fun v => s.javaNameOf v.name) == some (s.javaNameOf target.name)

/-- The code of an assignment. -/
def emitAssignment (s : Scopes) (target : Target) (value : Expr) : Java.Stmt :=
  let name := s.javaNameOf target.name
  let emit := Expr.emit s.javaNameOf
  match target.pixel, target.channel with
  | none, none =>
    if writesInto s target value then .perform (emit value) else .assign name (emit value)
  | none, some c => .assign name (.call2 (.setChannel c.channel) (.name name) (emit value))
  | some p, none => .setPixel name (emit p.x) (emit p.y) (emit value)
  | some p, some c =>
    .setPixel name (emit p.x) (emit p.y) (.call2 (.setChannel c.channel)
      (.call3 .getPixel (.name name) (emit p.x) (emit p.y)) (emit value))

mutual

/-- The scopes after a statement. -/
def Stmt.scopesAfter (s : Scopes) : Stmt → Scopes
  | .declare defined _ _ => (s.add defined.name defined.type defined.span).2
  | .assign .. | .write .. | .ret .. => s
  | .loop branches _ | .choose branches _ => branchesScopesAfter s branches
  | .block block => block.scopesAfter s

def Block.scopesAfter (s : Scopes) : Block → Scopes
  | .mk body _ => (bodyScopesAfter s.enter body).exit

def bodyScopesAfter (s : Scopes) : List Stmt → Scopes
  | [] => s
  | stmt :: rest => bodyScopesAfter (stmt.scopesAfter s) rest

def branchesScopesAfter (s : Scopes) : List Branch → Scopes
  | [] => s
  | .mk _ block _ :: rest => branchesScopesAfter (block.scopesAfter s) rest

end

mutual

/-- The code of a statement. -/
def Stmt.emit (s : Scopes) : Stmt → Java.Stmt
  | .declare defined initializer _ => emitDeclaration s defined initializer
  | .assign target value _ => emitAssignment s target value
  | .write value _ =>
    .perform (.call1 (if value.type = .pixel then .writePixel else .write)
      (value.emit s.javaNameOf))
  | .loop branches _ =>
    match branches.getLast? with
    | none => .nothing
    | some last => .loop (emitBranches s branches) (last.guard.emit s.javaNameOf)
  | .choose branches _ =>
    if (emitBranches s branches).isEmpty then .nothing else .choose (emitBranches s branches)
  | .ret value _ => .ret (value.emit s.javaNameOf)
  | .block block => .block (block.emit s)

def Block.emit (s : Scopes) : Block → List Java.Stmt
  | .mk body _ => emitBody s.enter body

def emitBody (s : Scopes) : List Stmt → List Java.Stmt
  | [] => []
  | stmt :: rest => stmt.emit s :: emitBody (stmt.scopesAfter s) rest

def emitBranches (s : Scopes) : List Branch → List Java.Branch
  | [] => []
  | .mk guard block _ :: rest =>
    .mk (guard.emit s.javaNameOf) (block.emit s) :: emitBranches (block.scopesAfter s) rest

end

/-! ## Library classes of statements -/

/-- The class of a declared type. -/
def typeUses (type : Ty) : List Java.Library :=
  if type = .image then [.raster] else []

def declarationUses (defined : NameDef) (initializer : Option Expr) : List Java.Library :=
  typeUses defined.type ++
    valueUses defined.type (initializer.map Expr.type) defined.dimension.isSome

def Target.uses (target : Target) : List Java.Library :=
  (if target.pixel.isSome then [Java.Method.setPixel.owner] else []) ++
    target.channel.elim [] fun c => [(Java.Method.setChannel c.channel).owner]

mutual

/-- The library classes that the code of a statement uses. -/
def Stmt.uses : Stmt → List Java.Library
  | .declare defined initializer _ =>
    (declarationParts defined initializer).flatMap Expr.uses ++ declarationUses defined initializer
  | .assign target value _ => (assignmentParts target value).flatMap Expr.uses ++ target.uses
  | .write value _ => value.uses ++ [Java.Method.write.owner]
  | .loop branches _ | .choose branches _ => branchesUses branches
  | .ret value _ => value.uses
  | .block block => block.uses

def Block.uses : Block → List Java.Library
  | .mk body _ => bodyUses body

def bodyUses : List Stmt → List Java.Library
  | [] => []
  | stmt :: rest => stmt.uses ++ bodyUses rest

def branchesUses : List Branch → List Java.Library
  | [] => []
  | .mk guard block _ :: rest => guard.uses ++ (block.uses ++ branchesUses rest)

end

/-! ## Programs -/

def paramsScopesAfter (s : Scopes) : List NameDef → Scopes
  | [] => s
  | param :: rest => paramsScopesAfter (s.add param.name param.type param.span).2 rest

def emitParams (s : Scopes) : List NameDef → List Java.Param
  | [] => []
  | param :: rest =>
    ⟨param.type, s.nextName param.name⟩ ::
      emitParams (s.add param.name param.type param.span).2 rest

namespace Program

/-- The scopes around the block of a program: one frame with the parameters. -/
def blockScopes (program : Program) : Scopes :=
  paramsScopesAfter Scopes.empty.enter program.params

def uses (program : Program) : List Java.Library :=
  program.params.flatMap (fun param => typeUses param.type) ++
    (program.block.uses ++ typeUses program.type)

/-- The unit that a program becomes. -/
def unit (options : Options) (program : Program) : Java.SourceUnit :=
  sourceUnit options program program.uses (emitParams Scopes.empty.enter program.params)
    (program.block.emit program.blockScopes)

/-- What compiling a program gives. -/
def compilation (options : Options) (program : Program) : Compilation :=
  ⟨program.name, unitText options (program.unit options),
    (program.block.scopesAfter program.blockScopes).declared⟩

end Program

end PixelJava
