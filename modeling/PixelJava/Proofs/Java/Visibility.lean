/-
Which declarations are visible where a variable is used, found by going over the pieces of code from
front to back. A parameter or a local is visible from its declaration on, up to the mark that closes
its scope; so a local is visible in its own initializer already. Declarations are numbered from 0 in
the order in which they stand in the text.
-/
import PixelJava.Proofs.Java.Code
import Mathlib.Data.List.Forall2

namespace PixelJava.Java

/-! ## Scanning -/

/-- A variable in use, with the numbers and the names of the declarations that are visible there,
the latest one first. -/
structure Use where
  id : String
  visible : List (Nat × String)
  deriving DecidableEq

/-- What is known after some pieces of code. -/
structure Scan where
  /-- The declarations of the innermost open scope, the latest one first. -/
  inner : List (Nat × String)
  /-- Those of the scopes around it. -/
  outer : List (List (Nat × String))
  /-- The names of all declarations, in their order. -/
  declared : List String
  uses : List Use
  deriving DecidableEq

namespace Scan

def start : Scan :=
  ⟨[], [], [], []⟩

def visible (st : Scan) : List (Nat × String) :=
  st.inner ++ st.outer.flatten

def opened (st : Scan) : Scan :=
  { st with inner := [], outer := st.inner :: st.outer }

def closed (st : Scan) : Scan :=
  { st with inner := st.outer.headD [], outer := st.outer.tail }

def step (st : Scan) : Piece → Scan
  | .text _ => st
  | .use id => { st with uses := st.uses ++ [⟨id, st.visible⟩] }
  | .declare id =>
    { st with
      inner := (st.declared.length, id) :: st.inner
      declared := st.declared ++ [id] }
  | .opens _ => st.opened
  | .closes _ => st.closed

/-- The scan with further uses where it stands. -/
def withUses (st : Scan) (ids : List String) : Scan :=
  { st with uses := st.uses ++ ids.map fun id => ⟨id, st.visible⟩ }

end Scan

def Code.scan (code : Code) (st : Scan) : Scan :=
  code.foldl Scan.step st

/-- Code is scanned part by part. -/
theorem Code.scan_append (code code' : Code) (st : Scan) :
    Code.scan (code ++ code') st = code'.scan (code.scan st) :=
  List.foldl_append

/-- What is enclosed is scanned in a frame of its own. -/
theorem Code.scan_enclosed (opening closing : String) (code : Code) (st : Scan) :
    (enclosed opening closing code).scan st = (code.scan st.opened).closed := by
  rw [enclosed, scan_append, scan_append]
  rfl

theorem Scan.closed_of_outer {st : Scan} {frame : List (Nat × String)}
    {rest : List (List (Nat × String))} (h : st.outer = frame :: rest) :
    st.closed = { st with inner := frame, outer := rest } := by
  rw [closed, h]
  rfl

/-! ## Code of expressions -/

/-- The code opens and closes no scope and declares nothing; it uses the variables `ids`, in this
order. -/
def Shows (code : Code) (ids : List String) : Prop :=
  ∀ st : Scan, code.scan st = st.withUses ids

namespace Shows

variable {code code' left right : Code} {ids ids' ls rs : List String}

theorem nil : Shows [] [] := by
  intro st
  simp [Code.scan, Scan.withUses]

theorem use (id : String) : Shows [.use id] [id] :=
  fun _ => rfl

/-- Code uses what its parts use. -/
theorem append (h : Shows code ids) (h' : Shows code' ids') : Shows (code ++ code') (ids ++ ids') := by
  intro st
  rw [Code.scan_append, h, h', Scan.withUses, Scan.withUses, Scan.withUses, List.map_append,
    ← List.append_assoc]
  rfl

theorem plain (text : String) : Shows (Java.plain text) [] :=
  nil

theorem after (text : String) (h : Shows code ids) : Shows (Java.plain text ++ code) ids :=
  (plain text).append h

theorem before (h : Shows code ids) (text : String) : Shows (code ++ Java.plain text) ids := by
  have := h.append (plain text)
  rwa [List.append_nil] at this

/-- Commas use nothing. -/
theorem separated {codes : List Code} {idss : List (List String)}
    (h : List.Forall₂ Shows codes idss) : Shows (Java.separated codes) idss.flatten := by
  induction h with
  | nil => exact nil
  | @cons code ids codes idss hcode hrest ih =>
    cases hrest with
    | nil => simpa [Java.separated] using hcode
    | cons => exact (hcode.before ", ").append ih

theorem method (method : Method) {codes : List Code} {idss : List (List String)}
    (h : List.Forall₂ Shows codes idss) : Shows (method.code codes) idss.flatten :=
  ((separated h).after _).before _

theorem unary (op : UnaryOp) (h : Shows code ids) : Shows (unaryCode op code) ids := by
  cases op <;> exact (h.after _).before _

end Shows

/-- The operands of an operation as its text has them: one after the other, and as often as there
are channels if the channels are computed one by one. -/
def Operation.arrange {α : Type} (how : Operation) (left right : List α) : List α :=
  match how with
  | .pixelDivide | .pixelScale | .pixelNumber => (Channel.all.map fun _ => left ++ right).flatten
  | _ => left ++ right

namespace Shows

variable {left right : Code} {ls rs : List String}

theorem image (method operator : String) (hl : Shows left ls) (hr : Shows right rs) :
    Shows (Operation.imageCode method operator left right) (ls ++ rs) := by
  have h := separated (.cons (plain (Library.images.name ++ "." ++ operator))
    (.cons hl (.cons hr .nil)))
  simp only [List.flatten_cons, List.flatten_nil, List.nil_append, List.append_nil] at h
  exact (h.after _).before _

theorem clamped (hl : Shows left ls) : Shows (Operation.clampedCode left) ls :=
  (hl.after _).before _

/-- What is done to each channel uses its operands once for each. -/
theorem perChannel {f : Code → Code} (hl : Shows left ls)
    (hf : ∀ c, Shows c ls → Shows (f c) (ls ++ rs)) :
    Shows (Operation.perChannelCode left f) (Channel.all.map fun _ => ls ++ rs).flatten := by
  refine method _ (List.forall₂_map_left_iff.2 (List.forall₂_map_right_iff.2 ?_))
  refine List.forall₂_same.2 fun c _ => hf _ ?_
  simpa using method (.channel c) (.cons hl .nil)

/-- An operation uses its operands as often as it repeats them. -/
theorem operation (how : Operation) (op : BinaryOp) (hl : Shows left ls) (hr : Shows right rs) :
    Shows (how.code op left right) (how.arrange ls rs) := by
  unfold Operation.code Operation.arrange
  cases how with
  | imageEquals | imageImage | imageScale | imageNumber | imagePixel | pixelEquals | pixelPixel =>
    exact image _ _ hl hr
  | pixelDivide => exact perChannel hl fun c hc => (hc.before _).append hr
  | pixelScale | pixelNumber =>
    dsimp only
    refine perChannel hl fun c hc => clamped ?_
    exact (((hc.before _).before _).before _).append hr
  | stringEquals => exact ((hl.before _).append hr).before _
  | power => exact (((hl.after _).before _).append hr).before _
  | native => exact (((((hl.after _).before _).before _).before _).append hr).before _

end Shows

/-- The variables of an expression, in the order and as often as its text has them. -/
def Expr.names : Expr → List String
  | .name id => [id]
  | .literal _ | .integer _ => []
  | .cond guard whenTrue whenFalse => guard.names ++ whenTrue.names ++ whenFalse.names
  | .unary _ operand => operand.names
  | .binary how _ left right => how.arrange left.names right.names
  | .call1 _ a => a.names
  | .call2 _ a b => a.names ++ b.names
  | .call3 _ a b c => a.names ++ (b.names ++ c.names)

/-- An expression uses its names, in the order and as often as they are written. -/
theorem Expr.shows_code : ∀ e : Expr, Shows e.code e.names
  | .name id => .use id
  | .literal text => .plain text
  | .integer n => .plain _
  | .cond guard whenTrue whenFalse =>
    ((((guard.shows_code.after _).before _).append whenTrue.shows_code).before _ |>.append
      whenFalse.shows_code).before _
  | .unary op operand => operand.shows_code.unary op
  | .binary how op left right => .operation how op left.shows_code right.shows_code
  | .call1 method a => by
    simpa [Expr.code, Expr.names] using Shows.method method (.cons a.shows_code .nil)
  | .call2 method a b => by
    simpa [Expr.code, Expr.names] using Shows.method method (.cons a.shows_code (.cons b.shows_code .nil))
  | .call3 method a b c => by
    simpa [Expr.code, Expr.names] using
      Shows.method method (.cons a.shows_code (.cons b.shows_code (.cons c.shows_code .nil)))

/-! ## Code of statements without declarations -/

theorem shows_perform (value : Expr) : Shows (Stmt.perform value).code value.names :=
  value.shows_code.before _

/-- An assignment uses the variable that it assigns to. -/
theorem shows_assign (name : String) (value : Expr) :
    Shows (Stmt.assign name value).code ([name] ++ value.names) :=
  (((Shows.use name).before _).append value.shows_code).before _

/-- Setting a pixel uses the image that it is set in. -/
theorem shows_setPixel (image : String) (x y value : Expr) :
    Shows (Stmt.setPixel image x y value).code
      ([image] ++ (x.names ++ (y.names ++ value.names))) := by
  have h := Shows.method .setPixel (.cons (.use image) (.cons x.shows_code
    (.cons y.shows_code (.cons value.shows_code .nil))))
  simp only [List.flatten_cons, List.flatten_nil, List.append_nil] at h
  exact h.before _

end PixelJava.Java
