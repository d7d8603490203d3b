import Bhasha.Token.Scan

/-! The rules of the scanner, apart from any scanner. `Rule w p` says that a rule matches the whole
text `w` and makes the piece `p` of it. A text is cut from the left, each time at the longest match
of all rules; a keyword is preferred to an identifier of the same length. -/

namespace Bhasha.Scan

open Text

def keywords : List Token := .declare :: Token.wordKeywords

def operators : List Operator :=
  [.add, .sub, .mul, .div, .rem, .assign, .equal, .notEqual, .less, .greater, .lessEqual,
    .greaterEqual]

/-- The operators and the punctuation marks. -/
def symbols : List Token :=
  operators.map .operator ++
    [.leftParen, .rightParen, .leftBrace, .rightBrace, .semicolon, .comma]

inductive Rule : List Char → Piece → Prop
  | newline : Rule ['\n'] .newline
  | blanks {w : List Char} (hn : w ≠ []) (h : w.all isBlank = true) : Rule w .gap
  | comment {w : List Char} (h : w.all isComment = true) : Rule ('/' :: '/' :: w) .gap
  | keyword {w : List Char} {k : Token} (hk : k ∈ keywords) (h : fold w = k.lexeme.toList) :
      Rule w (.token k)
  | string {w : List Char} (h : w.all isQuotable = true) :
      Rule ('"' :: w ++ ['"']) (.token (.string (String.ofList w)))
  | number {w : List Char} (hn : w ≠ []) (h : w.all Char.isDigit = true) :
      Rule w (.token (.number (String.ofList w)))
  | identifier {c : Char} {w : List Char} (hc : isLetter c = true) (h : w.all isWordChar = true) :
      Rule (c :: w) (.token (.identifier (String.ofList (c :: w))))
  | symbol {t : Token} (ht : t ∈ symbols) : Rule t.lexeme.toList (.token t)

/-- The text `s` begins with `w`, the longest match of any rule there, and goes on with `rest`. -/
structure Longest (s w : List Char) (p : Piece) (rest : List Char) : Prop where
  split : s = w ++ rest
  rule : Rule w p
  longest : ∀ {w' p'}, Rule w' p' → w' <+: s → w'.length ≤ w.length
  keyword : ∀ k ∈ keywords, fold w = k.lexeme.toList → p = .token k

/-- No rule matches at the start of the text. -/
def Unmatched (s : List Char) : Prop := ∀ {w p}, Rule w p → ¬ w <+: s

/-- A stretch of the text and what it was taken for. -/
structure Segment where
  piece : Piece
  text : List Char

/-- The text `s` is cut into segments, each the longest match where it begins, up to `rest`. -/
inductive Cut : List Char → List Segment → List Char → Prop
  | done {s : List Char} : Cut s [] s
  | next {s w mid rest : List Char} {p : Piece} {segments : List Segment}
      (h : Longest s w p mid) (hc : Cut mid segments rest) : Cut s (⟨p, w⟩ :: segments) rest

/-- The line on which the text after `before` begins. -/
def lineAfter (before : List Char) : Nat := 1 + before.count '\n'

/-- The tokens among segments that follow the text `before`, each with its line. -/
def lexemesAfter (before : List Char) : List Segment → List Lexeme
  | [] => []
  | ⟨.token t, w⟩ :: segments => ⟨t, lineAfter before⟩ :: lexemesAfter (before ++ w) segments
  | ⟨_, w⟩ :: segments => lexemesAfter (before ++ w) segments

end Bhasha.Scan
