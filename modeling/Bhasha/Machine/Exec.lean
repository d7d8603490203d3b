import Bhasha.Machine.Eval

/-! Execution of statements, and the entry points of the machine. Two things are bounded by no tree:
how deep calls nest and how often a loop goes round. The first argument of the entry points bounds
both, and a run that needs more does not finish. -/

namespace Bhasha

/-- The name of a kind of statement in what is recorded. -/
def Stmt.kind : Stmt → String
  | declare .. => "declaration"
  | assign .. => "assignment"
  | print _ => "print"
  | cond .. => "if"
  | whileLoop .. => "while"
  | forLoop .. => "for"
  | function .. => "function declaration"
  | ret _ => "return"

/-- Goes round at most so many times, until the test fails or the body gives back a value. -/
def loop (test : Run Bool) (body : Run Flow) (step : Run Unit) : Nat → Run Flow
  | 0 => .unfinished
  | rounds + 1 => do
    if ← test then
      match ← body with
      | .normal => do
        step
        loop test body step rounds
      | .ret v => pure (.ret v)
    else
      pure .normal

/-- A loop with a counter. What its step gives back is dropped. -/
def countedLoop (init : Run Flow) (test : Run Bool) (body step : Run Flow) (rounds : Nat) :
    Run Flow := do
  match ← init with
  | .normal => loop test body (do let _ ← step) rounds
  | .ret v => pure (.ret v)

mutual
def execWith (run : Block → Run Flow) (rounds : Nat) (s : Stmt) : Run Flow := do
  .note (.executing s.kind)
  match s with
  | .declare name value | .assign name value =>
    let v ← evalWith run value
    .assign name v
    pure .normal
  | .print value =>
    let v ← evalWith run value
    .print v
    pure .normal
  | .cond test yes none =>
    if ← testWith run test then execAllWith run rounds yes else pure .normal
  | .cond test yes (some no) =>
    if ← testWith run test then execAllWith run rounds yes else execAllWith run rounds no
  | .whileLoop test body =>
    loop (testWith run test) (execAllWith run rounds body) (pure ()) rounds
  | .forLoop init test step body =>
    countedLoop (execWith run rounds init) (testWith run test) (execAllWith run rounds body)
      (execWith run rounds step) rounds
  | .function name params body =>
    .declare name ⟨params, body⟩
    pure .normal
  | .ret value =>
    let v ← evalWith run value
    pure (.ret v)
termination_by structural s

/-- Statements in order, until one gives back a value. -/
def execAllWith (run : Block → Run Flow) (rounds : Nat) : List Stmt → Run Flow
  | [] => pure .normal
  | s :: ss => do
    match ← execWith run rounds s with
    | .normal => execAllWith run rounds ss
    | .ret v => pure (.ret v)
termination_by structural ss => ss
end

def execBlock : Nat → Block → Run Flow
  | 0, _ => .unfinished
  | n + 1, b => execAllWith (execBlock n) n b

def eval (n : Nat) (e : Expr) : Run Value := evalWith (execBlock n) e

def test (n : Nat) (c : Condition) : Run Bool := testWith (execBlock n) c

def call (n : Nat) (name : String) (args : List Expr) : Run (Option Value) :=
  invoke (execBlock n) name args.length fun params => bindWith (execBlock n) params args

def exec (n : Nat) (s : Stmt) : Run Flow := execWith (execBlock n) n s

def execWhile (n : Nat) (test : Condition) (body : Block) : Run Flow :=
  loop (testWith (execBlock n) test) (execAllWith (execBlock n) n body) (pure ()) n

def execFor (n : Nat) (init : Stmt) (test : Condition) (step : Stmt) (body : Block) : Run Flow :=
  countedLoop (exec n init) (testWith (execBlock n) test) (execAllWith (execBlock n) n body)
    (exec n step) n

/-- A loop, as a statement, runs behind its record. -/
theorem exec_whileLoop (n : Nat) (test : Condition) (body : Block) :
    exec n (.whileLoop test body) =
      (Run.note (.executing "while") >>= fun _ => execWhile n test body) := by
  rw [exec, execWith]
  rfl

theorem exec_forLoop (n : Nat) (init : Stmt) (test : Condition) (step : Stmt) (body : Block) :
    exec n (.forLoop init test step body) =
      (Run.note (.executing "for") >>= fun _ => execFor n init test step body) := by
  rw [exec, execWith]
  rfl

/-- Runs a whole program. -/
def runProgram (n : Nat) (program : Block) : Run Unit := do
  .note (.running program.length)
  match ← execBlock n program with
  | .normal => pure ()
  | .ret _ => .fail .returnOutsideFunction

end Bhasha
