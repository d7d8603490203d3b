import Bhasha.Event
import Bhasha.Program.Basic
import Bhasha.Store
import Bhasha.Value

/-! The machine that runs a program, and computations on it. A computation may not finish; if it
does, it ends in a value or an error, and the machine goes on from the state it left either way. -/

namespace Bhasha

structure Machine where
  /-- The one store of variables, which the program and every call share. -/
  vars : Store Value
  functions : Store Function
  output : String
  /-- How many calls are running. -/
  depth : Nat
  /-- How many calls may run at once. -/
  limit : Nat
  /-- What was recorded, the latest first. -/
  events : List Event

def Machine.start (limit : Nat) : Machine := ⟨.empty, .empty, "", 0, limit, []⟩

/-- How a statement ended: by going on, or by giving back a value to the running call. -/
inductive Flow where
  | normal
  | ret (value : Value)
  deriving DecidableEq

def Run (α : Type) : Type := Machine → Option (Except RunError α × Machine)

namespace Run

variable {α β : Type}

def andThen (x : Run α) (f : α → Run β) : Run β := fun m =>
  match x m with
  | some (.ok a, m) => f a m
  | some (.error e, m) => some (.error e, m)
  | none => none

instance : Monad Run where
  pure a := fun m => some (.ok a, m)
  bind := andThen

@[simp] theorem pure_apply (a : α) (m : Machine) : (pure a : Run α) m = some (.ok a, m) := rfl

theorem bind_apply (x : Run α) (f : α → Run β) (m : Machine) :
    (x >>= f) m =
      match x m with
      | some (.ok a, m) => f a m
      | some (.error e, m) => some (.error e, m)
      | none => none :=
  rfl

/-- The computation that does not finish. -/
def unfinished : Run α := fun _ => none

def fail (e : RunError) : Run α := fun m => some (.error e, m)

def ofExcept (r : Except RunError α) : Run α := fun m => some (r, m)

def modify (f : Machine → Machine) : Run Unit := fun m => some (.ok (), f m)

def note (e : Event) : Run Unit := modify fun m => { m with events := e :: m.events }

def assign (name : String) (value : Value) : Run Unit :=
  modify fun m => { m with vars := m.vars.insert name value }

def look (name : String) : Run Value := fun m =>
  match m.vars.find? name with
  | some v => some (.ok v, m)
  | none => some (.error (.undefinedVariable name), m)

/-- Adds one line to the output. -/
def print (value : Value) : Run Unit :=
  modify fun m => { m with output := m.output ++ value.text ++ "\n" }

/-- A later declaration replaces an earlier one. -/
def declare (name : String) (f : Function) : Run Unit := do
  note (.declaring name f.params)
  modify fun m => { m with functions := m.functions.insert name f }

end Run

end Bhasha
