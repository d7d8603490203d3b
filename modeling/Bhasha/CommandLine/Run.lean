import Bhasha.CommandLine.Options
import Bhasha.Report

/-! One run of the command. How a script is read from its path is an argument, so all but the
reading is a function of the arguments. -/

namespace Bhasha.CommandLine

/-- Why a script cannot be read. -/
inductive ReadError where
  | notFound
  | notDirectory
  | isDirectory
  | notText
  | other (reason : String)
  deriving DecidableEq

def ReadError.reason : ReadError → String
  | notFound => "No such file or directory (os error 2)"
  | notDirectory => "Not a directory (os error 20)"
  | isDirectory => "Is a directory (os error 21)"
  | notText => "stream did not contain valid UTF-8"
  | other reason => reason

/-- What the command leaves: its exit status, both streams, and the records it shows. -/
structure Outcome where
  status : Nat
  stdout : String
  stderr : String
  events : List Event

def versionText : String := "chapa 0.1.0\n"

def errorText (message : String) : String := "error: " ++ message ++ "\n"

/-- Help and misuse show in the status alone. -/
def Stop.outcome : Stop → Outcome
  | help => ⟨0, "", "", []⟩
  | version => ⟨0, versionText, "", []⟩
  | misuse => ⟨2, "", "", []⟩

def status : Error → Nat
  | .scan _ | .parse _ => 65
  | .run _ => 70

/-- What is shown at each count of `-v`. -/
def shown (verbosity : Nat) (e : Event) : Bool :=
  match verbosity with
  | 0 | 1 => false
  | 2 => Level.debug.shows e
  | _ => Level.trace.shows e

def Options.task (o : Options) : Task :=
  if o.tokens then .listTokens
  else if o.tree then .printTree
  else .run (o.limit.getD defaultLimit)

def Options.report (o : Options) (r : Report) : Outcome :=
  let events := r.events.filter (shown o.verbosity)
  match r.failure with
  | none => ⟨0, r.output, "", events⟩
  | some e => ⟨status e, r.output, errorText e.message, events⟩

def unreadable (path : String) (e : ReadError) : Outcome :=
  ⟨74, "", errorText ("Failed to read the script '" ++ path ++ "': " ++ e.reason), []⟩

/-- The run that the options ask for, given the text to run. -/
def Options.perform (o : Options) (bound : Nat) (source : String) : Option Outcome :=
  (o.task.perform bound source).map o.report

/-- Runs the command. The script is read only when the arguments name one. -/
def run {m : Type → Type} [Monad m] (read : String → m (Except ReadError String)) (bound : Nat)
    (args : List String) : m (Option Outcome) :=
  match Options.ofArgs args with
  | .error stop => pure (some stop.outcome)
  | .ok o =>
    match o.source, o.script with
    | some source, _ => pure (o.perform bound source)
    | none, some path => do
      match ← read path with
      | .ok source => pure (o.perform bound source)
      | .error e => pure (some (unreadable path e))
    | none, none => pure (some Stop.misuse.outcome)

end Bhasha.CommandLine
