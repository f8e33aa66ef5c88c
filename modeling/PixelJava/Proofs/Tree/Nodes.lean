/-
The nodes of trees: the expressions in an expression, itself included, and the statements in a
statement or a block, each with the expressions that stand directly in it. What is asked of literals
is asked of the nodes that are literals.
-/
import PixelJava.Proofs.Lowering.Violation

namespace PixelJava

/-! ## Expressions -/

namespace Expr

/-- The expressions that an expression is made of, itself included. -/
def nodes : Expr → List Expr
  | .ident name type span => [.ident name type span]
  | .num text span => [.num text span]
  | .str text span => [.str text span]
  | .bool value span => [.bool value span]
  | .const name type span => [.const name type span]
  | .cond guard whenTrue whenFalse type span =>
    .cond guard whenTrue whenFalse type span ::
      (guard.nodes ++ (whenTrue.nodes ++ whenFalse.nodes))
  | .binary left op right type span =>
    .binary left op right type span :: (left.nodes ++ right.nodes)
  | .unary op operand type span => .unary op operand type span :: operand.nodes
  | .select primary channel type span => .select primary channel type span :: primary.nodes
  | .selectAt primary x y place channel type span =>
    .selectAt primary x y place channel type span :: (primary.nodes ++ (x.nodes ++ y.nodes))
  | .pixel red green blue span =>
    .pixel red green blue span :: (red.nodes ++ (green.nodes ++ blue.nodes))

/-- Whether a literal has a text of the right kind; other expressions pass. -/
def literalIs (num str : String → Bool) : Expr → Bool
  | .num text _ => num text
  | .str text _ => str text
  | _ => true

/-- Whether the texts of all numbers are as `num` says and those of all strings as `str` says. -/
def literalsAre (num str : String → Bool) (e : Expr) : Bool :=
  e.nodes.all (literalIs num str)

theorem mem_nodes_self (e : Expr) : e ∈ e.nodes := by
  cases e <;> exact List.mem_cons_self

/-- The nodes of a node are nodes. -/
theorem nodes_subset {node e : Expr} (h : node ∈ e.nodes) : node.nodes ⊆ e.nodes := by
  induction e with
  | ident | num | str | bool | const =>
    obtain rfl := List.mem_singleton.1 h
    exact List.Subset.refl _
  | cond | binary | unary | select | selectAt | pixel =>
    rcases List.mem_cons.1 h with rfl | h
    · exact List.Subset.refl _
    · intro x hx
      simp only [nodes, List.mem_cons, List.mem_append]
      grind

theorem literalsAre_of_node {num str : String → Bool} {node e : Expr} (h : node ∈ e.nodes)
    (hlit : e.literalsAre num str = true) : node.literalsAre num str = true := by
  unfold literalsAre at *
  rw [List.all_eq_true] at *
  exact fun x hx => hlit x (nodes_subset h hx)

end Expr

/-! ## Statements -/

mutual

/-- The statements that a statement is made of, itself included. -/
def Stmt.nodes : Stmt → List Stmt
  | .declare defined initializer span => [.declare defined initializer span]
  | .assign target value span => [.assign target value span]
  | .write value span => [.write value span]
  | .loop branches span => .loop branches span :: branchesNodes branches
  | .choose branches span => .choose branches span :: branchesNodes branches
  | .ret value span => [.ret value span]
  | .block block => .block block :: block.nodes

def Block.nodes : Block → List Stmt
  | .mk body _ => bodyNodes body

def bodyNodes : List Stmt → List Stmt
  | [] => []
  | stmt :: rest => stmt.nodes ++ bodyNodes rest

def branchesNodes : List Branch → List Stmt
  | [] => []
  | .mk _ block _ :: rest => block.nodes ++ branchesNodes rest

end

/-- The expressions that stand directly in a statement. -/
def Stmt.parts : Stmt → List Expr
  | .declare defined initializer _ => declarationParts defined initializer
  | .assign target value _ => assignmentParts target value
  | .write value _ | .ret value _ => [value]
  | .loop branches _ | .choose branches _ => branches.map Branch.guard
  | .block _ => []

end PixelJava
