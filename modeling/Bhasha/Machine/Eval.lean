import Bhasha.Machine.Basic

/-! Evaluation of expressions, and calls. How the body of a function runs is an argument, the only
step that does not go down in the tree. -/

namespace Bhasha

namespace Flow

/-- The value given back, if there is one. -/
def value? : Flow → Option Value
  | normal => none
  | ret v => some v

end Flow

namespace Machine

/-- The state in which a call of `name` binds its arguments. -/
def enter (m : Machine) (name : String) : Machine :=
  { m with depth := m.depth + 1, events := .calling name (m.depth + 1) :: m.events }

/-- The state after a call that was entered from `caller`: its variables are back. -/
def leave (m caller : Machine) : Machine :=
  { m with depth := m.depth - 1, vars := caller.vars }

end Machine

/-- Calls a function: finds it, checks the number of arguments and the depth, binds the parameters,
runs the body, and puts the variables back, whether the body failed or not. -/
def invoke (run : Block → Run Flow) (name : String) (count : Nat)
    (bindAll : List String → Run Unit) : Run (Option Value) := fun m =>
  match m.functions.find? name with
  | none => some (.error (.undefinedFunction name), m)
  | some f =>
    if count ≠ f.params.length then
      some (.error (.argumentCountMismatch name f.params.length count), m)
    else if m.limit ≤ m.depth then
      some (.error (.callDepthExceeded name m.limit), m)
    else
      match (bindAll f.params >>= fun _ => run f.body) (m.enter name) with
      | some (result, m') => some (result.map Flow.value?, m'.leave m)
      | none => none

mutual
def evalWith (run : Block → Run Flow) : Expr → Run Value
  | .number text =>
    match Integer.parse? text with
    | some n => pure (.int n)
    | none => .fail (.literalTooLarge text)
  | .string text => pure (.str text)
  | .var name => .look name
  | .binary op left right => do
    let a ← evalWith run left
    let b ← evalWith run right
    .ofExcept (a.combine op b)
  | .call name args => do
    match ← invoke run name args.length fun params => bindWith run params args with
    | some v => pure v
    | none => .fail (.missingValue name)
termination_by structural e => e

/-- Binds parameters to arguments in order. Each argument sees the parameters bound before it. -/
def bindWith (run : Block → Run Flow) (params : List String) : List Expr → Run Unit
  | [] => pure ()
  | arg :: args =>
    match params with
    | [] => pure ()
    | param :: params => do
      let v ← evalWith run arg
      .assign param v
      bindWith run params args
termination_by structural args => args
end

/-- Both sides have to be integers, the left one before the right one is looked at. -/
def testWith (run : Block → Run Flow) (c : Condition) : Run Bool := do
  let left ← evalWith run c.left
  let a ← .ofExcept (left.asInteger "Condition")
  let right ← evalWith run c.right
  let b ← .ofExcept (right.asInteger "Condition")
  .ofExcept (Integer.compare c.op a b)

end Bhasha
