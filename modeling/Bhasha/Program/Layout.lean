import Bhasha.Program.Basic
import Bhasha.Token.Basic

/-! The canonical text of a tree. A tree is laid out as tokens with blanks between them, one
statement to a line and four columns to a level. A right operand that is itself an operation stands
in parentheses; a left one never does, since operators group to the left. -/

namespace Bhasha

/-- How a token is written in a script. -/
def Token.written : Token → String
  | string text => "\"" ++ text ++ "\""
  | t => t.lexeme

namespace Layout

inductive Piece where
  | token (t : Token)
  | space
  | newline
  | indent (depth : Nat)

def Piece.chars : Piece → List Char
  | token t => t.written.toList
  | space => [' ']
  | newline => ['\n']
  | indent depth => List.replicate (4 * depth) ' '

def text (pieces : List Piece) : String := String.ofList (pieces.flatMap Piece.chars)

@[simp] theorem toList_text (pieces : List Piece) :
    (text pieces).toList = pieces.flatMap Piece.chars :=
  String.toList_ofList

/-- An operator with a space on either side. -/
def spaced (op : Operator) : List Piece := [.space, .token (.operator op), .space]

def parens (inner : List Piece) : List Piece :=
  .token .leftParen :: inner ++ [.token .rightParen]

/-- Items with a comma and a space between two of them. -/
def commas : List (List Piece) → List Piece
  | [] => []
  | [item] => item
  | item :: items => item ++ [.token .comma, .space] ++ commas items

mutual
def expr : Expr → List Piece
  | .number text => [.token (.number text)]
  | .string text => [.token (.string text)]
  | .var name => [.token (.identifier name)]
  | .binary op left right =>
    expr left ++ spaced op ++ if right.isBinary then parens (expr right) else expr right
  | .call name args => .token (.identifier name) :: parens (commas (exprs args))
termination_by structural e => e

def exprs : List Expr → List (List Piece)
  | [] => []
  | e :: es => expr e :: exprs es
termination_by structural es => es
end

def condition (c : Condition) : List Piece := expr c.left ++ spaced c.op ++ expr c.right

/-- A keyword, then a condition in parentheses. -/
def header (keyword : Token) (c : Condition) : List Piece :=
  [.token keyword, .space] ++ parens (condition c) ++ [.space]

def binding (name : String) (value : Expr) : List Piece :=
  .token (.identifier name) :: spaced .assign ++ expr value

/-- Laid-out lines between braces, the closing one at the depth of the statement. -/
def braces (depth : Nat) (lines : List Piece) : List Piece :=
  [.token .leftBrace, .newline] ++ lines ++ [.indent depth, .token .rightBrace]

mutual
def stmt (depth : Nat) : Stmt → List Piece
  | .declare name value =>
    [.token .declare, .space] ++ binding name value ++ [.token .semicolon]
  | .assign name value => binding name value ++ [.token .semicolon]
  | .print value => .token .print :: parens (expr value) ++ [.token .semicolon]
  | .cond test yes no =>
    header .cond test ++ braces depth (block (depth + 1) yes) ++
      match no with
      | none => []
      | some no =>
        [.space, .token .otherwise, .space] ++ braces depth (block (depth + 1) no)
  | .whileLoop test body =>
    header .whileLoop test ++ braces depth (block (depth + 1) body) ++ [.space, .token .endLoop]
  | .forLoop init test step body =>
    [.token .forLoop, .space] ++
      parens (stmt depth init ++ [.space] ++ condition test ++ [.token .semicolon, .space] ++
        match step with
        | .assign name value => binding name value
        | other => stmt depth other) ++
      [.space] ++ braces depth (block (depth + 1) body) ++ [.space, .token .endLoop]
  | .function name params body =>
    [.token .function, .space, .token (.identifier name)] ++
      parens (commas (params.map fun p => [.token (.identifier p)])) ++ [.space] ++
      braces depth (block (depth + 1) body)
  | .ret value => [.token .ret, .space] ++ expr value ++ [.token .semicolon]
termination_by structural s => s

/-- One line for each statement. -/
def block (depth : Nat) : List Stmt → List Piece
  | [] => []
  | s :: ss => .indent depth :: stmt depth s ++ [.newline] ++ block depth ss
termination_by structural ss => ss
end

end Layout

def Expr.canonical (e : Expr) : String := Layout.text (Layout.expr e)

def Condition.canonical (c : Condition) : String := Layout.text (Layout.condition c)

def Stmt.canonical (s : Stmt) : String := Layout.text (Layout.stmt 0 s)

def Block.canonical (b : Block) : String := Layout.text (Layout.block 0 b)

end Bhasha
