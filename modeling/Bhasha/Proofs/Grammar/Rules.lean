import Bhasha.Program.Basic
import Bhasha.Token.Basic

/-! The grammar, as rules on tokens and apart from any parser. `Statement ts s rest` says that `ts`
begins with the statement `s` and goes on with `rest`, and so for the other phrases. Two rules make
the grammar unambiguous: a body without braces stands before a token that ends a block, or last, and
a conditional without `nahitar` does not stand before one. -/

namespace Bhasha.Grammar

/-- Items with commas between them, and none after the last. -/
inductive Separated {α : Type} (item : List Token → α → List Token → Prop) :
    List Token → List α → List Token → Prop
  | last {ts rest : List Token} {a : α} (h : item ts a rest) : Separated item ts [a] rest
  | more {ts mid rest : List Token} {a : α} {as : List α} (h : item ts a (.comma :: mid))
      (hs : Separated item mid as rest) : Separated item ts (a :: as) rest

/-- Such items, or none, and the closing parenthesis. -/
inductive Listed {α : Type} (item : List Token → α → List Token → Prop) :
    List Token → List α → List Token → Prop
  | none {rest : List Token} : Listed item (.rightParen :: rest) [] rest
  | some {ts rest : List Token} {as : List α} (h : Separated item ts as (.rightParen :: rest)) :
      Listed item ts as rest

mutual
/-- A literal, a name, a call, or an expression in parentheses. -/
inductive Primary : List Token → Expr → List Token → Prop
  | string {text : String} {rest : List Token} :
      Primary (.string text :: rest) (.string text) rest
  | number {text : String} {rest : List Token} :
      Primary (.number text :: rest) (.number text) rest
  | var {name : String} {rest : List Token} : Primary (.identifier name :: rest) (.var name) rest
  | call {name : String} {ts rest : List Token} {args : List Expr}
      (h : Listed Expression ts args rest) :
      Primary (.identifier name :: .leftParen :: ts) (.call name args) rest
  | group {ts rest : List Token} {e : Expr} (h : Expression ts e (.rightParen :: rest)) :
      Primary (.leftParen :: ts) e rest

/-- An operand, and any number of operators with an operand each. -/
inductive Expression : List Token → Expr → List Token → Prop
  | mk {ts mid rest : List Token} {left e : Expr} (h : Primary ts left mid)
      (hc : Chain left mid e rest) : Expression ts e rest

/-- Operators and operands, which join what stands to their left. -/
inductive Chain : Expr → List Token → Expr → List Token → Prop
  | done {left : Expr} {ts : List Token} : Chain left ts left ts
  | more {op : Operator} {ts mid rest : List Token} {left right e : Expr}
      (ho : op.isArithmetic = true) (h : Primary ts right mid)
      (hc : Chain (.binary op left right) mid e rest) : Chain left (.operator op :: ts) e rest
end

inductive Name : List Token → String → List Token → Prop
  | mk {x : String} {rest : List Token} : Name (.identifier x :: rest) x rest

inductive Comparand : Token → Expr → Prop
  | number {text : String} : Comparand (.number text) (.number text)
  | var {name : String} : Comparand (.identifier name) (.var name)

/-- Two numbers or names with any operator between them. -/
inductive Test : List Token → Condition → List Token → Prop
  | mk {l r : Token} {left right : Expr} {op : Operator} {rest : List Token}
      (hl : Comparand l left) (hr : Comparand r right) :
      Test (l :: .operator op :: r :: rest) ⟨left, op, right⟩ rest

inductive Declaration : List Token → Stmt → List Token → Prop
  | mk {x : String} {e : Expr} {ts rest : List Token} (h : Expression ts e (.semicolon :: rest)) :
      Declaration (.declare :: .identifier x :: .operator .assign :: ts) (.declare x e) rest

/-- An assignment without its semicolon. -/
inductive Clause : List Token → Stmt → List Token → Prop
  | mk {x : String} {e : Expr} {ts rest : List Token} (h : Expression ts e rest) :
      Clause (.identifier x :: .operator .assign :: ts) (.assign x e) rest

inductive OptionalSemicolon : List Token → List Token → Prop
  | absent {ts : List Token} : OptionalSemicolon ts ts
  | present {ts : List Token} : OptionalSemicolon (.semicolon :: ts) ts

/-- The end of the input, or a token that ends a block. -/
def EndsBlock (ts : List Token) : Prop :=
  ∀ t ∈ ts.head?, t = .otherwise ∨ t = .endLoop ∨ t = .rightBrace

mutual
inductive Statement : List Token → Stmt → List Token → Prop
  | declare {ts rest : List Token} {s : Stmt} (h : Declaration ts s rest) : Statement ts s rest
  | assign {ts rest : List Token} {s : Stmt} (h : Clause ts s (.semicolon :: rest)) :
      Statement ts s rest
  | print {ts rest : List Token} {e : Expr}
      (h : Expression ts e (.rightParen :: .semicolon :: rest)) :
      Statement (.print :: .leftParen :: ts) (.print e) rest
  | ret {ts rest : List Token} {e : Expr} (h : Expression ts e (.semicolon :: rest)) :
      Statement (.ret :: ts) (.ret e) rest
  | ifThen {ts mid rest : List Token} {c : Condition} {yes : Block}
      (hc : Test ts c (.rightParen :: mid)) (hy : Body mid yes rest)
      (hr : rest.head? ≠ some .otherwise) :
      Statement (.cond :: .leftParen :: ts) (.cond c yes none) rest
  | ifElse {ts mid mid' rest : List Token} {c : Condition} {yes no : Block}
      (hc : Test ts c (.rightParen :: mid)) (hy : Body mid yes (.otherwise :: mid'))
      (hn : Body mid' no rest) : Statement (.cond :: .leftParen :: ts) (.cond c yes (some no)) rest
  | whileLoop {ts mid rest : List Token} {c : Condition} {body : Block}
      (hc : Test ts c (.rightParen :: mid)) (hb : Body mid body (.endLoop :: rest)) :
      Statement (.whileLoop :: .leftParen :: ts) (.whileLoop c body) rest
  | forLoop {ts ts₁ ts₂ ts₃ ts₄ ts₅ rest : List Token} {init step : Stmt} {c : Condition}
      {body : Block} (hi : Declaration ts init ts₁) (h₁ : OptionalSemicolon ts₁ ts₂)
      (hc : Test ts₂ c (.semicolon :: ts₃)) (hs : Clause ts₃ step ts₄)
      (h₂ : OptionalSemicolon ts₄ (.rightParen :: ts₅)) (hb : Body ts₅ body (.endLoop :: rest)) :
      Statement (.forLoop :: .leftParen :: ts) (.forLoop init c step body) rest
  | function {ts mid rest : List Token} {name : String} {params : List String} {body : Block}
      (hp : Listed Name ts params (.leftBrace :: mid))
      (hb : Sequence mid body (.rightBrace :: rest)) :
      Statement (.function :: .identifier name :: .leftParen :: ts) (.function name params body)
        rest

/-- A block in braces, or one without where a block ends. -/
inductive Body : List Token → Block → List Token → Prop
  | braced {ts rest : List Token} {b : Block} (h : Sequence ts b (.rightBrace :: rest)) :
      Body (.leftBrace :: ts) b rest
  | bare {ts rest : List Token} {b : Block} (h : Sequence ts b rest) (hr : EndsBlock rest) :
      Body ts b rest

/-- Any number of statements. -/
inductive Sequence : List Token → Block → List Token → Prop
  | nil {ts : List Token} : Sequence ts [] ts
  | cons {ts mid rest : List Token} {s : Stmt} {b : Block} (h : Statement ts s mid)
      (hb : Sequence mid b rest) : Sequence ts (s :: b) rest
end

/-- All the tokens make up the program. -/
def Program (ts : List Token) (b : Block) : Prop := Sequence ts b []

end Bhasha.Grammar
