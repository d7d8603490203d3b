import Bhasha.Error
import Bhasha.Integer

/-! Values at run time and what the operators make of them. `+` joins texts as soon as one side is
a string. The other operators work on integers and read a string as a number; comparisons do not. -/

namespace Bhasha

inductive Value where
  | int (n : Integer)
  | str (s : String)
  deriving DecidableEq

namespace Integer

/-- The exact result `i`, unless it leaves the range. -/
def checked (op : Operator) (i : Int) : Except RunError Integer :=
  match ofInt? i with
  | some n => .ok n
  | none => .error (.overflow op)

/-- Division goes toward zero. A remainder needs a quotient in range, as the quotient does. -/
def combine (op : Operator) (a b : Integer) : Except RunError Integer :=
  match op with
  | .add => checked op (a.val + b.val)
  | .sub => checked op (a.val - b.val)
  | .mul => checked op (a.val * b.val)
  | .div => if b.val = 0 then .error .divisionByZero else checked op (a.val.tdiv b.val)
  | .rem =>
    if b.val = 0 then .error .divisionByZero
    else (checked op (a.val.tdiv b.val)).bind fun _ => checked op (a.val.tmod b.val)
  | _ => .error (.unknownOperator op)

/-- `!=` is no comparison of the language, though it is scanned. -/
def compare (op : Operator) (a b : Integer) : Except RunError Bool :=
  match op with
  | .less => .ok (a.val < b.val)
  | .greater => .ok (b.val < a.val)
  | .lessEqual => .ok (a.val ≤ b.val)
  | .greaterEqual => .ok (b.val ≤ a.val)
  | .equal => .ok (a.val = b.val)
  | _ => .error (.unknownOperator op)

end Integer

namespace Value

def text : Value → String
  | int n => n.text
  | str s => s

def isStr : Value → Bool
  | int _ => false
  | str _ => true

/-- The integer of a value that is one; `context` says in the error what needed it. -/
def asInteger (context : String) : Value → Except RunError Integer
  | int n => .ok n
  | str s => .error (.expectedInteger context s)

/-- The integer of a value, a string being read as a number. -/
def readInteger (context : String) : Value → Except RunError Integer
  | int n => .ok n
  | str s =>
    match Integer.parse? s with
    | some n => .ok n
    | none => .error (.expectedInteger context s)

/-- What an operator makes of two values. The left one is read first. -/
def combine (op : Operator) (left right : Value) : Except RunError Value :=
  if !op.combines then .error (.unknownOperator op)
  else if op = .add ∧ (left.isStr ∨ right.isStr) then .ok (.str (left.text ++ right.text))
  else do
    let context := "Operator '" ++ op.text ++ "'"
    let a ← left.readInteger context
    let b ← right.readInteger context
    return .int (← Integer.combine op a b)

end Value

end Bhasha
