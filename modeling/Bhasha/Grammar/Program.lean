import Bhasha.Grammar.Statement
import Bhasha.Token.Scan

/-! Whole scripts: a block that takes every token. -/

namespace Bhasha

/-- Moves an error at the end of the input to the given line. -/
def ParseError.endingOn (line : Nat) : ParseError → ParseError
  | unexpectedEndOfInput expected _ => unexpectedEndOfInput expected line
  | e => e

/-- The line of the last token, or 1 when there is none. -/
def lastLine (ts : List Lexeme) : Nat :=
  match ts.getLast? with
  | some l => l.line
  | none => 1

def parse (ts : List Lexeme) : Except ParseError Block :=
  match Parser.block ts with
  | (.error e, _) => .error (e.endingOn (lastLine ts))
  | (.ok _, l :: _) => .error (.unexpectedTrailingTokens l.token l.line)
  | (.ok program, []) => .ok program

/-- The tree of a source text. -/
def readProgram (source : String) : Except Error Block :=
  match scan source with
  | .error e => .error (.scan e)
  | .ok ts =>
    match parse ts with
    | .error e => .error (.parse e)
    | .ok program => .ok program

end Bhasha
