import Bhasha.Error

/-! Parsers read tokens from the front of a list and give back the tokens they left, also when they
fail. A token that was fetched is gone even if it was the wrong one; a token that was only looked at
stays. -/

namespace Bhasha

def Parser (α : Type) : Type := List Lexeme → Except ParseError α × List Lexeme

namespace Parser

variable {α β : Type}

def andThen (p : Parser α) (f : α → Parser β) : Parser β := fun ts =>
  match p ts with
  | (.ok a, rest) => f a rest
  | (.error e, rest) => (.error e, rest)

instance : Monad Parser where
  pure a := fun ts => (.ok a, ts)
  bind := andThen

@[simp] theorem pure_apply (a : α) (ts : List Lexeme) : (pure a : Parser α) ts = (.ok a, ts) := rfl

theorem bind_apply (p : Parser α) (f : α → Parser β) (ts : List Lexeme) :
    (p >>= f) ts =
      match p ts with
      | (.ok a, rest) => f a rest
      | (.error e, rest) => (.error e, rest) :=
  rfl

def fail (e : ParseError) : Parser α := fun ts => (.error e, ts)

/-- The next token, which stays. -/
def peek : Parser (Option Lexeme) := fun ts => (.ok ts.head?, ts)

/-- Fetches the next token, which `accept` has to know. The end of the input has no line of its own:
line 0 stands there. -/
def next (expected : Expected) (accept : Token → Option α) : Parser α
  | [] => (.error (.unexpectedEndOfInput expected 0), [])
  | l :: ts =>
    match accept l.token with
    | some a => (.ok a, ts)
    | none => (.error (.unexpectedToken expected l.token l.line), ts)

/-- Fetches the next token if `accept` knows it, and leaves it otherwise. -/
def next? (accept : Token → Option α) : Parser (Option α)
  | [] => (.ok none, [])
  | l :: ts =>
    match accept l.token with
    | some a => (.ok (some a), ts)
    | none => (.ok none, l :: ts)

/-- Knows one token. -/
def only (t u : Token) : Option Unit := if u = t then some () else none

def expect (t : Token) : Parser Unit := next (.token t) (only t)

/-- Fetches the token if it is next. -/
def skip (t : Token) : Parser Unit := do
  let _ ← next? (only t)

def identifier : Parser String :=
  next .identifier fun
    | .identifier name => some name
    | _ => none

/-- Whether a list goes on after an item. -/
def continues (closing : Token) : Token → Option Bool := fun t =>
  if t = .comma then some true else if t = closing then some false else none

/-- Items with commas between them, up to and with the closing token. The first argument bounds
their number. -/
def items (item : Parser α) (closing : Token) : Nat → Parser (List α)
  | 0 => pure []
  | n + 1 => do
    let first ← item
    if ← next (.separator closing) (continues closing) then
      return first :: (← items item closing n)
    else
      return [first]

/-- As `items`, but there may be none. -/
def list (item : Parser α) (closing : Token) (bound : Nat) : Parser (List α) := do
  match ← next? (only closing) with
  | some () => return []
  | none => items item closing bound

end Parser

end Bhasha
