import Bhasha.Grammar.Program
import Bhasha.Machine.Exec
import Bhasha.Program.Layout

/-! A script from its text to what it prints. The work stops at the first error, and whatever was
recorded and printed before it is kept. -/

namespace Bhasha

/-- What came of a script. -/
structure Report where
  events : List Event
  output : String
  failure : Option Error

/-- How many calls may run at once when nobody says otherwise. -/
def defaultLimit : Nat := 200

/-- A bound on loops and nested calls that no run gets through in any time. -/
def ample : Nat := 0x4000000000000000

/-- Runs a program on a new machine. -/
def execute (bound limit : Nat) (program : Block) : Option Report :=
  (runProgram bound program (.start limit)).map fun (result, m) =>
    { events := m.events.reverse
      output := m.output
      failure :=
        match result with
        | .ok () => none
        | .error e => some (.run e) }

/-- What to make of a script. -/
inductive Task where
  | listTokens
  | printTree
  | run (limit : Nat)
  deriving DecidableEq

/-- A number right-aligned in four columns, then the token. -/
def listing (l : Lexeme) : String :=
  let line := l.line.repr
  String.ofList (List.replicate (4 - line.length) ' ') ++ line ++ "  " ++ l.token.describe ++ "\n"

def Scan.Result.events (r : Scan.Result) : List Event :=
  r.lexemes.map .token ++
    match r.fault with
    | none => [.scanned r.lexemes.length]
    | some _ => []

namespace Task

/-- What is left to do with the tokens; `seen` was recorded before. -/
def ofTokens (bound : Nat) (task : Task) (seen : List Event) (ts : List Lexeme) : Option Report :=
  if task = .listTokens then some ⟨seen, String.join (ts.map listing), none⟩
  else
    match parse ts with
    | .error e => some ⟨seen, "", some (.parse e)⟩
    | .ok program =>
      let seen := seen ++ [.parsed program.length]
      match task with
      | .run limit =>
        (execute bound limit program).map fun r => { r with events := seen ++ r.events }
      | _ => some ⟨seen, Block.canonical program, none⟩

/-- `none` when the run needs more than `bound` rounds of a loop or nested calls. -/
def perform (bound : Nat) (task : Task) (source : String) : Option Report :=
  let scanned := scanAll source
  match scanned.fault with
  | some e => some ⟨scanned.events, "", some (.scan e)⟩
  | none => task.ofTokens bound scanned.events scanned.lexemes

end Task

def interpret (bound limit : Nat) (source : String) : Option Report :=
  (Task.run limit).perform bound source

end Bhasha
