/-
Statements in Java. A block opens a scope and closes it again, also when one of its statements
cannot be lowered. The guard that ends a loop is lowered a second time, after the blocks, where the
same names are visible as before.
-/
import PixelJava.Lowering.Expr
import PixelJava.Tree.Stmt

namespace PixelJava

open LowerM

variable {limit : UInt64}

/-! ## Declarations -/

/-- The value of a declared image: a string is an address to read from, a size resizes the image
or, alone, makes an empty one. -/
def imageValue (initializer : Option (Ty × Java.Expr)) (size : Option (Java.Expr × Java.Expr)) :
    Option Java.Expr :=
  let image := initializer.map fun (type, value) =>
    if type = .string then .call1 .readImage value else value
  match image, size with
  | some image, some (width, height) => some (.call3 .copyAndResize image width height)
  | none, some (width, height) => some (.call2 .makeImage width height)
  | image, none => image

/-- The library classes that the value of a declared variable adds to those of its parts; only an
image adds some. -/
def valueUses (type : Ty) (initializer : Option Ty) (sized : Bool) : List Java.Library :=
  if type = .image then
    (if initializer = some .string then [Java.Method.readImage.owner] else []) ++
      if sized then [Java.Method.makeImage.owner] else []
  else []

/-- A declaration of `name`. A size given to a variable that is no image is not written. -/
def declaration (type : Ty) (name : String) (value : Option (Ty × Java.Expr))
    (size : Option (Java.Expr × Java.Expr)) : Java.Stmt :=
  .declare type name (if type = .image then imageValue value size else value.map (·.2))

/-- Lowers a declaration. Its initializer and its size do not see the declared name. -/
def lowerDeclaration (defined : NameDef) (initializer : Option Expr) : LowerM limit Java.Stmt := do
  let value ← initializer.mapM fun e => return (e.type, ← e.lower)
  let size ← defined.dimension.mapM fun d => return (← d.width.lower, ← d.height.lower)
  useType defined.type
  let name ← declare defined.name defined.type defined.span
  use (valueUses defined.type (initializer.map Expr.type) defined.dimension.isSome)
  return declaration defined.type name value size

/-! ## Assignments -/

/-- Lowers an assignment to a part of the variable `name`, which has the given type. -/
def lowerPartAssignment (target : Target) (type : Ty) (name : String) (value : Expr) :
    LowerM limit Java.Stmt :=
  match type, target.pixel, target.channel with
  | .pixel, none, some c => do
    let value ← value.lower
    use [(Java.Method.setChannel c.channel).owner]
    return .assign name (.call2 (.setChannel c.channel) (.name name) value)
  | .image, some p, none => do
    let x ← p.x.lower
    let y ← p.y.lower
    let value ← value.lower
    use [Java.Method.setPixel.owner]
    return .setPixel name x y value
  | .image, some p, some c => do
    let x ← p.x.lower
    let y ← p.y.lower
    let value ← value.lower
    use [Java.Method.setPixel.owner, (Java.Method.setChannel c.channel).owner]
    let old := .call3 .getPixel (.name name) x y
    return .setPixel name x y (.call2 (.setChannel c.channel) old value)
  | .image, none, some _ =>
    throw ⟨.unsupportedTarget target.name "a channel selector without coordinates",
      target.span.start⟩
  | _, pixel, channel =>
    throw ⟨.unsupportedTarget target.name (describeSelector pixel.isSome channel),
      target.span.start⟩

/-- Whether lowering `value` has already written it into the image variable `name`. -/
def isWritten (scopes : Scopes) (type : Ty) (name : String) (value : Expr) : Except Fault Bool :=
  match type, value with
  | .image, .binary left op right _ _ => (· == some name) <$> inPlaceTarget scopes left op right
  | _, _ => return false

/-- Lowers an assignment. An image operation that has already written its result into the variable
stands alone. -/
def lowerAssignment (target : Target) (value : Expr) : LowerM limit Java.Stmt := do
  let binding ← resolve target.name target.span
  if target.pixel.isSome || target.channel.isSome then
    lowerPartAssignment target binding.type binding.javaName value
  else
    let lowered ← value.lower
    let written ← MonadExcept.ofExcept
      (isWritten (← scopes) binding.type binding.javaName value)
    return if written then .perform lowered else .assign binding.javaName lowered

/-! ## Statements and blocks -/

mutual

/-- Lowers a statement. -/
def Stmt.lower : Stmt → LowerM limit Java.Stmt
  | .declare defined initializer _ => do
    note .trace ("lowering declaration of `" ++ defined.name ++ "`")
    lowerDeclaration defined initializer
  | .assign target value _ => do
    note .trace ("lowering assignment to `" ++ target.name ++ "`")
    lowerAssignment target value
  | .write value _ => do
    note .trace "lowering write"
    let lowered ← value.lower
    use [Java.Method.write.owner]
    return .perform (.call1 (if value.type = .pixel then .writePixel else .write) lowered)
  | .loop branches _ => do
    let lowered ← lowerBranches branches
    match branches.getLast? with
    | none => return .nothing
    | some last => return .loop lowered (← last.guard.lower)
  | .choose branches _ => do
    let lowered ← lowerBranches branches
    return if lowered.isEmpty then .nothing else .choose lowered
  | .ret value _ => do
    note .trace "lowering return"
    return .ret (← value.lower)
  | .block block => return .block (← block.lower)

/-- Lowers the statements of a block, one level deeper and in a scope of their own. -/
def Block.lower : Block → LowerM limit (List Java.Stmt)
  | .mk body span => nested span.start (inScope (lowerBody body))

/-- Lowers statements one after the other, in the current scope. -/
def lowerBody : List Stmt → LowerM limit (List Java.Stmt)
  | [] => return []
  | stmt :: rest => do
    let lowered ← stmt.lower
    return lowered :: (← lowerBody rest)

def lowerBranches : List Branch → LowerM limit (List Java.Branch)
  | [] => return []
  | .mk guard block _ :: rest => do
    let guard ← guard.lower
    let body ← block.lower
    return .mk guard body :: (← lowerBranches rest)

end

/-- Lowers the statements of a block in a scope of their own, on the level of the block. -/
def Block.lowerHere (block : Block) : LowerM limit (List Java.Stmt) :=
  inScope (lowerBody block.body)

end PixelJava
