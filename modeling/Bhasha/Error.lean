import Bhasha.Token.Basic

/-! What can go wrong with a script: while it is scanned, while it is parsed, and while it runs.
Each cause has one message. -/

namespace Bhasha

inductive ScanError where
  | unexpectedCharacter (found : Char) (line : Nat)
  | unterminatedString (line : Nat)
  deriving DecidableEq

/-- What the grammar allows at the place of an error. -/
inductive Expected where
  | token (t : Token)
  | statement
  | expression
  | identifier
  | comparand
  | comparison
  /-- The end of an item in a list that `closing` ends. -/
  | separator (closing : Token)
  deriving DecidableEq

inductive ParseError where
  | unexpectedToken (expected : Expected) (found : Token) (line : Nat)
  | unexpectedEndOfInput (expected : Expected) (line : Nat)
  | unexpectedTrailingTokens (found : Token) (line : Nat)
  deriving DecidableEq

inductive RunError where
  | undefinedVariable (name : String)
  | undefinedFunction (name : String)
  | argumentCountMismatch (name : String) (expected found : Nat)
  | expectedInteger (context found : String)
  | literalTooLarge (literal : String)
  | unknownOperator (op : Operator)
  | divisionByZero
  | overflow (op : Operator)
  | missingValue (function : String)
  | returnOutsideFunction
  | callDepthExceeded (function : String) (limit : Nat)
  deriving DecidableEq

inductive Error where
  | scan (e : ScanError)
  | parse (e : ParseError)
  | run (e : RunError)
  deriving DecidableEq

def onLine (line : Nat) (text : String) : String :=
  "Error on line " ++ line.repr ++ ": " ++ text

namespace ScanError

def line : ScanError → Nat
  | unexpectedCharacter _ line => line
  | unterminatedString line => line

def message : ScanError → String
  | unexpectedCharacter c line => onLine line ("Unexpected character '" ++ c.toString ++ "'.")
  | unterminatedString line => onLine line "Unterminated string literal."

end ScanError

def Expected.describe : Expected → String
  | token t => t.describe
  | statement => "a statement"
  | expression => "an expression"
  | identifier => "an identifier"
  | comparand => "a number or identifier"
  | comparison => "a comparison operator"
  | separator closing => Token.comma.describe ++ " or " ++ closing.describe

namespace ParseError

def line : ParseError → Nat
  | unexpectedToken _ _ line => line
  | unexpectedEndOfInput _ line => line
  | unexpectedTrailingTokens _ line => line

def message : ParseError → String
  | unexpectedToken expected found line =>
    onLine line ("Expected " ++ expected.describe ++ " but found " ++ found.describe ++ ".")
  | unexpectedEndOfInput expected line =>
    onLine line ("Unexpected end of input. Expected " ++ expected.describe ++ ".")
  | unexpectedTrailingTokens found line =>
    onLine line ("Unexpected " ++ found.describe ++ " after the end of the program.")

end ParseError

namespace RunError

def detail : RunError → String
  | undefinedVariable name => "Undefined variable '" ++ name ++ "'."
  | undefinedFunction name => "Function not defined: '" ++ name ++ "'."
  | argumentCountMismatch name expected found =>
    "Argument count mismatch for function '" ++ name ++ "': expected " ++ expected.repr ++
      ", found " ++ found.repr ++ "."
  | expectedInteger context found =>
    context ++ " needs an integer, found \"" ++ found ++ "\"."
  | literalTooLarge literal => "Number literal " ++ literal ++ " is too large."
  | unknownOperator op => "Unknown operator '" ++ op.text ++ "'."
  | divisionByZero => "Division by zero."
  | overflow op => "Integer overflow while evaluating '" ++ op.text ++ "'."
  | missingValue function => "Function '" ++ function ++ "' did not return a value."
  | returnOutsideFunction => "'" ++ Token.ret.lexeme ++ "' outside of a function."
  | callDepthExceeded function limit =>
    "Calling '" ++ function ++ "' exceeded the maximum call depth of " ++ limit.repr ++ "."

def message (e : RunError) : String := "Runtime error: " ++ e.detail

end RunError

def Error.message : Error → String
  | scan e => e.message
  | parse e => e.message
  | run e => e.message

end Bhasha
