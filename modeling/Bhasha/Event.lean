import Bhasha.Token.Basic

/-! What is recorded while a script is scanned, parsed and run. -/

namespace Bhasha

inductive Level where
  | debug
  | trace
  deriving DecidableEq

def Level.name : Level → String
  | debug => "DEBUG"
  | trace => "TRACE"

inductive Event where
  | token (l : Lexeme)
  | scanned (tokens : Nat)
  | parsed (statements : Nat)
  | running (statements : Nat)
  | executing (kind : String)
  | declaring (function : String) (params : List String)
  | calling (function : String) (depth : Nat)
  deriving DecidableEq

namespace Event

def level : Event → Level
  | token _ | executing _ => .trace
  | _ => .debug

def text : Event → String
  | token l => "token " ++ l.token.describe ++ " on line " ++ l.line.repr
  | scanned n => "scanned " ++ n.repr ++ " tokens"
  | parsed n => "parsed " ++ n.repr ++ " top-level statements"
  | running n => "running " ++ n.repr ++ " top-level statements"
  | executing kind => "executing " ++ kind
  | declaring name params => "declaring " ++ name ++ "(" ++ ", ".intercalate params ++ ")"
  | calling name depth => "calling " ++ name ++ " at depth " ++ depth.repr

/-- The text behind the name of its level. -/
def line (e : Event) : String := e.level.name ++ " " ++ e.text

end Event

/-- Whether an event is shown to one who asked for this level: `trace` shows all. -/
def Level.shows : Level → Event → Bool
  | trace, _ => true
  | debug, e => e.level = .debug

end Bhasha
