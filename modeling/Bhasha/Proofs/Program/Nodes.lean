import Bhasha.Program.Equality

/-! The nodes of a tree: the statements, tests and expressions that stand in it. What a block reads,
writes, calls or declares is said of its nodes. A function does not run where it is declared, so the
nodes of its body are told apart from those of the block around it (`Block.ownNodes`). -/

namespace Bhasha

inductive Node where
  | expr (e : Expr)
  | test (c : Condition)
  | stmt (s : Stmt)
  deriving DecidableEq

mutual
def Expr.nodes (e : Expr) : List Node :=
  .expr e ::
    match e with
    | .binary _ left right => left.nodes ++ right.nodes
    | .call _ args => Expr.allNodes args
    | .number _ | .string _ | .var _ => []
termination_by structural e

def Expr.allNodes : List Expr → List Node
  | [] => []
  | e :: es => e.nodes ++ Expr.allNodes es
termination_by structural es => es
end

def Condition.nodes (c : Condition) : List Node := .test c :: (c.left.nodes ++ c.right.nodes)

mutual
/-- With `deep`, also the nodes in the bodies of the functions that are declared here. -/
def Stmt.nodes (deep : Bool) (s : Stmt) : List Node :=
  .stmt s ::
    match s with
    | .declare _ value | .assign _ value | .print value | .ret value => value.nodes
    | .cond test yes none => test.nodes ++ Stmt.allNodes deep yes
    | .cond test yes (some no) => test.nodes ++ (Stmt.allNodes deep yes ++ Stmt.allNodes deep no)
    | .whileLoop test body => test.nodes ++ Stmt.allNodes deep body
    | .forLoop init test step body =>
      init.nodes deep ++ (test.nodes ++ (step.nodes deep ++ Stmt.allNodes deep body))
    | .function _ _ body => if deep then Stmt.allNodes deep body else []
termination_by structural s

def Stmt.allNodes (deep : Bool) : List Stmt → List Node
  | [] => []
  | s :: ss => s.nodes deep ++ Stmt.allNodes deep ss
termination_by structural ss => ss
end

/-- All nodes of a block, at any nesting. -/
def Block.nodes (b : Block) : List Node := Stmt.allNodes true b

/-- The nodes of a block at any nesting of conditionals and loops, but outside the functions that
it declares. -/
def Block.ownNodes (b : Block) : List Node := Stmt.allNodes false b

end Bhasha
