import Bhasha.Operator

/-! The tree of a script. Number literals keep their digits as written. -/

namespace Bhasha

inductive Expr where
  | number (text : String)
  | string (text : String)
  | var (name : String)
  | binary (op : Operator) (left right : Expr)
  | call (name : String) (args : List Expr)

def Expr.isBinary : Expr → Bool
  | binary .. => true
  | _ => false

structure Condition where
  left : Expr
  op : Operator
  right : Expr

inductive Stmt where
  | declare (name : String) (value : Expr)
  | assign (name : String) (value : Expr)
  | print (value : Expr)
  | cond (test : Condition) (yes : List Stmt) (no : Option (List Stmt))
  | whileLoop (test : Condition) (body : List Stmt)
  | forLoop (init : Stmt) (test : Condition) (step : Stmt) (body : List Stmt)
  | function (name : String) (params : List String) (body : List Stmt)
  | ret (value : Expr)

abbrev Block := List Stmt

/-- A declared function, apart from its name. -/
structure Function where
  params : List String
  body : Block

end Bhasha
