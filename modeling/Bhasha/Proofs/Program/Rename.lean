import Bhasha.Program.Basic

/-! Renaming a tree. Variables and functions have their names in two spaces, so a renaming maps them
apart, and the same spelling may go two ways. No two names of a space become one. -/

namespace Bhasha

structure Renaming where
  /-- For variables and parameters. -/
  var : String → String
  /-- For functions. -/
  function : String → String
  var_injective : Function.Injective var
  function_injective : Function.Injective function

variable (ρ : Renaming)

mutual
def Expr.rename : Expr → Expr
  | .number text => .number text
  | .string text => .string text
  | .var name => .var (ρ.var name)
  | .binary op left right => .binary op left.rename right.rename
  | .call name args => .call (ρ.function name) (Expr.renameAll args)
termination_by structural e => e

def Expr.renameAll : List Expr → List Expr
  | [] => []
  | e :: es => e.rename :: Expr.renameAll es
termination_by structural es => es
end

def Condition.rename (c : Condition) : Condition := ⟨c.left.rename ρ, c.op, c.right.rename ρ⟩

mutual
def Stmt.rename : Stmt → Stmt
  | .declare name value => .declare (ρ.var name) (value.rename ρ)
  | .assign name value => .assign (ρ.var name) (value.rename ρ)
  | .print value => .print (value.rename ρ)
  | .cond test yes none => .cond (test.rename ρ) (Stmt.renameAll yes) none
  | .cond test yes (some no) =>
    .cond (test.rename ρ) (Stmt.renameAll yes) (some (Stmt.renameAll no))
  | .whileLoop test body => .whileLoop (test.rename ρ) (Stmt.renameAll body)
  | .forLoop init test step body =>
    .forLoop init.rename (test.rename ρ) step.rename (Stmt.renameAll body)
  | .function name params body =>
    .function (ρ.function name) (params.map ρ.var) (Stmt.renameAll body)
  | .ret value => .ret (value.rename ρ)
termination_by structural s => s

def Stmt.renameAll : List Stmt → List Stmt
  | [] => []
  | s :: ss => s.rename :: Stmt.renameAll ss
termination_by structural ss => ss
end

/-- All variables, parameters and functions of a block renamed, the functions that it declares
included. -/
def Block.rename (b : Block) : Block := Stmt.renameAll ρ b

def Function.rename (f : Function) : Function := ⟨f.params.map ρ.var, f.body.rename ρ⟩

@[simp] theorem Expr.length_renameAll (args : List Expr) :
    (Expr.renameAll ρ args).length = args.length := by
  induction args with
  | nil => rfl
  | cons e es ih => rw [Expr.renameAll, List.length_cons, List.length_cons, ih]

end Bhasha
