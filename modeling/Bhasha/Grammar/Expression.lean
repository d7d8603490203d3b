import Bhasha.Grammar.Parser
import Bhasha.Program.Basic

/-! Expressions: operands joined by `+ - * /`, all of one rank and grouped to the left. Parsing goes
down one level for each parenthesis and each call, and a level takes at least one token, so a bound
above the number of tokens is never reached. -/

namespace Bhasha.Parser

/-- How an operand may begin. -/
inductive Opening where
  | literal (e : Expr)
  | name (name : String)
  | group

def opening : Token → Option Opening
  | .string text => some (.literal (.string text))
  | .number text => some (.literal (.number text))
  | .identifier name => some (.name name)
  | .leftParen => some .group
  | _ => none

def arithmetic : Token → Option Operator
  | .operator op => if op.isArithmetic then some op else none
  | _ => none

/-- One operand, given how to read an expression inside it. -/
def operand (inner : Parser Expr) (bound : Nat) : Parser Expr := do
  match ← next .expression opening with
  | .literal e => return e
  | .name name =>
    match ← next? (only .leftParen) with
    | some () => return .call name (← list inner .rightParen bound)
    | none => return .var name
  | .group =>
    let e ← inner
    expect .rightParen
    return e

/-- Goes on from the left operand as long as an operator follows. -/
def chain (right : Parser Expr) : Nat → Expr → Parser Expr
  | 0, left => pure left
  | n + 1, left => do
    match ← next? arithmetic with
    | some op => chain right n (.binary op left (← right))
    | none => return left

def expressionAt : Nat → Parser Expr
  | 0 => fail (.unexpectedEndOfInput .expression 0)
  | n + 1 => do
    let left ← operand (expressionAt n) n
    chain (operand (expressionAt n) n) n left

def expression : Parser Expr := fun ts => expressionAt (ts.length + 1) ts

end Bhasha.Parser
