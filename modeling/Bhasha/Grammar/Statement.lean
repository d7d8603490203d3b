import Bhasha.Grammar.Expression

/-! Statements and blocks. A block ends before `nahitar`, `sampel`, a closing brace or the end of
the input, and braces around the body of a conditional or loop may be left out. -/

namespace Bhasha.Parser

/-- A name, `=` and its new value. -/
def binding : Parser (String × Expr) := do
  let name ← identifier
  expect (.operator .assign)
  return (name, ← expression)

def declaration : Parser Stmt := do
  expect .declare
  let (name, value) ← binding
  expect .semicolon
  return .declare name value

/-- An assignment without its semicolon. -/
def assignmentClause : Parser Stmt := do
  let (name, value) ← binding
  return .assign name value

def assignment : Parser Stmt := do
  let s ← assignmentClause
  expect .semicolon
  return s

def print : Parser Stmt := do
  expect .print
  expect .leftParen
  let value ← expression
  expect .rightParen
  expect .semicolon
  return .print value

def ret : Parser Stmt := do
  expect .ret
  let value ← expression
  expect .semicolon
  return .ret value

def comparand : Parser Expr :=
  next .comparand fun
    | .number text => some (.number text)
    | .identifier name => some (.var name)
    | _ => none

/-- Any operator is read here; whether it compares shows at run time. -/
def comparison : Parser Operator :=
  next .comparison fun
    | .operator op => some op
    | _ => none

def condition : Parser Condition := do
  let left ← comparand
  let op ← comparison
  return ⟨left, op, ← comparand⟩

def header : Parser Condition := do
  expect .leftParen
  let test ← condition
  expect .rightParen
  return test

/-- A block with or without braces. What holds a block takes the parser of blocks as an argument. -/
def bodyWith (block : Parser Block) : Parser Block := do
  match ← next? (only .leftBrace) with
  | some () =>
    let b ← block
    expect .rightBrace
    return b
  | none => block

def conditionalWith (block : Parser Block) : Parser Stmt := do
  expect .cond
  let test ← header
  let yes ← bodyWith block
  match ← next? (only .otherwise) with
  | some () => return .cond test yes (some (← bodyWith block))
  | none => return .cond test yes none

def whileLoopWith (block : Parser Block) : Parser Stmt := do
  expect .whileLoop
  let test ← header
  let body ← bodyWith block
  expect .endLoop
  return .whileLoop test body

/-- A second semicolon after the declaration and one after the step do no harm. -/
def forLoopWith (block : Parser Block) : Parser Stmt := do
  expect .forLoop
  expect .leftParen
  let init ← declaration
  skip .semicolon
  let test ← condition
  expect .semicolon
  let step ← assignmentClause
  skip .semicolon
  expect .rightParen
  let body ← bodyWith block
  expect .endLoop
  return .forLoop init test step body

def parameters : Parser (List String) := fun ts => list identifier .rightParen (ts.length + 1) ts

/-- A function, whose braces are needed. -/
def functionWith (block : Parser Block) : Parser Stmt := do
  expect .function
  let name ← identifier
  expect .leftParen
  let params ← parameters
  expect .leftBrace
  let body ← block
  expect .rightBrace
  return .function name params body

def statementWith (block : Parser Block) : Parser Stmt := do
  match ← peek with
  | none => fail (.unexpectedEndOfInput .statement 0)
  | some l =>
    match l.token with
    | .declare => declaration
    | .print => print
    | .cond => conditionalWith block
    | .whileLoop => whileLoopWith block
    | .forLoop => forLoopWith block
    | .ret => ret
    | .identifier _ => assignment
    | .function => functionWith block
    | found => fail (.unexpectedToken .statement found l.line)

/-- The tokens before which a block ends. -/
def closesBlock : Token → Bool
  | .otherwise | .endLoop | .rightBrace => true
  | _ => false

/-- Each statement takes a token and each nested block comes after one, so a bound above the number
of tokens is never reached. -/
def blockAt : Nat → Parser Block
  | 0 => pure []
  | n + 1 => do
    match ← peek with
    | none => return []
    | some l =>
      if closesBlock l.token then return []
      else
        let s ← statementWith (blockAt n)
        return s :: (← blockAt n)

def block : Parser Block := fun ts => blockAt (ts.length + 1) ts

def body : Parser Block := bodyWith block

def conditional : Parser Stmt := conditionalWith block

def whileLoop : Parser Stmt := whileLoopWith block

def forLoop : Parser Stmt := forLoopWith block

def statement : Parser Stmt := statementWith block

end Bhasha.Parser
