import Bhasha.Operator

/-! Tokens of a script, their spelling, and how messages name them. -/

namespace Bhasha

inductive Token where
  | declare
  | print
  | cond
  | otherwise
  | whileLoop
  | endLoop
  | forLoop
  | function
  | ret
  | string (text : String)
  | number (text : String)
  | identifier (name : String)
  | operator (op : Operator)
  | leftParen
  | rightParen
  | leftBrace
  | rightBrace
  | semicolon
  | comma
  | comment
  | newline
  | ignored
  deriving DecidableEq

namespace Token

/-- The keywords written as one word. -/
def wordKeywords : List Token :=
  [print, cond, otherwise, whileLoop, endLoop, forLoop, function, ret]

/-- The bare content of a token: a string without its quotes. The three kinds of skipped text have
none. -/
def lexeme : Token → String
  | declare => "he aahe"
  | print => "chapa"
  | cond => "jar"
  | otherwise => "nahitar"
  | whileLoop => "joparyant"
  | endLoop => "sampel"
  | forLoop => "paryant"
  | function => "karya"
  | ret => "parat"
  | string text => text
  | number text => text
  | identifier name => name
  | operator op => op.text
  | leftParen => "("
  | rightParen => ")"
  | leftBrace => "\x7b"
  | rightBrace => "\x7d"
  | semicolon => ";"
  | comma => ","
  | comment | newline | ignored => ""

/-- How a message names the token. -/
def describe : Token → String
  | string text => "string \"" ++ text ++ "\""
  | number text => "number " ++ text
  | identifier name => "identifier '" ++ name ++ "'"
  | operator op => "operator '" ++ op.text ++ "'"
  | t => "'" ++ t.lexeme ++ "'"

end Token

/-- A token and the line it starts on. -/
structure Lexeme where
  token : Token
  line : Nat
  deriving DecidableEq

end Bhasha
