/-! The operators of the language and how they are spelled. -/

namespace Bhasha

inductive Operator where
  | add | sub | mul | div | rem
  | assign
  | equal | notEqual | less | greater | lessEqual | greaterEqual
  deriving DecidableEq

namespace Operator

def text : Operator → String
  | add => "+"
  | sub => "-"
  | mul => "*"
  | div => "/"
  | rem => "%"
  | assign => "="
  | equal => "=="
  | notEqual => "!="
  | less => "<"
  | greater => ">"
  | lessEqual => "<="
  | greaterEqual => ">="

/-- The operators that join two operands of a written expression. `%` is scanned but joins none. -/
def isArithmetic : Operator → Bool
  | add | sub | mul | div => true
  | _ => false

theorem isArithmetic_iff (op : Operator) :
    op.isArithmetic = true ↔ op ∈ [add, sub, mul, div] := by
  cases op <;> decide

/-- The operators that make a value of two values. -/
def combines : Operator → Bool
  | add | sub | mul | div | rem => true
  | _ => false

theorem combines_iff (op : Operator) :
    op.combines = true ↔ op ∈ [add, sub, mul, div, rem] := by
  cases op <;> decide

end Operator

end Bhasha
