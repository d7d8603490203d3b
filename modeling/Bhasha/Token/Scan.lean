import Bhasha.Error
import Bhasha.Text.Letter

/-! From source text to tokens. At each position the longest piece wins, and a keyword wins over an
identifier of the same length. Every piece takes at least one character (`munch_shorter`), so
scanning ends. The tokens before the first fault are kept. -/

namespace Bhasha.Scan

open Text

/-- Keywords ignore case. Beyond ASCII the Kelvin sign counts as `k` and the long s as `s`. -/
def foldCase (c : Char) : Char :=
  if c = '\u212a' then 'k' else if c = '\u017f' then 's' else c.toLower

/-- Two letters beyond ASCII fold to another character; the rest of what lies there folds to
itself. -/
theorem foldCase_cases {P : Char → Prop} (ascii : ∀ n < 128, P (.ofNat n)) (kelvin : P '\u212a')
    (longS : P '\u017f') (same : ∀ c, 128 ≤ c.toNat → foldCase c = c → P c) (c : Char) : P c := by
  rcases Nat.lt_or_ge c.toNat 128 with hlt | hge
  · have := ascii c.toNat hlt
    rwa [Char.ofNat_toNat] at this
  by_cases hk : c = '\u212a'
  · rwa [hk]
  by_cases hs : c = '\u017f'
  · rwa [hs]
  · refine same c hge ?_
    rw [foldCase, if_neg hk, if_neg hs]
    refine dif_neg fun hz => ?_
    have hz : c.toNat ≤ 90 := UInt32.le_iff_toNat_le.mp hz.2
    omega

/-- The characters that stand for a lower-case letter of a keyword. -/
theorem foldCase_eq_iff {c l : Char} (hl : l.isLower = true) : foldCase c = l ↔
    c = l ∨ c = l.toUpper ∨ (c = '\u212a' ∧ l = 'k') ∨ (c = '\u017f' ∧ l = 's') := by
  constructor
  · rintro rfl
    revert hl
    induction c using foldCase_cases with
    | ascii n hn =>
      revert n
      decide +kernel
    | kelvin => decide
    | longS => decide
    | same c _ hc => exact fun _ => .inl hc.symm
  · have hascii : ∀ n < 128, (Char.ofNat n).isLower = true →
        foldCase (.ofNat n) = .ofNat n ∧ foldCase (Char.ofNat n).toUpper = .ofNat n := by
      decide +kernel
    have hz : l.toNat ≤ 122 :=
      UInt32.le_iff_toNat_le.mp (of_decide_eq_true (Bool.and_eq_true_iff.mp hl).2)
    have hfold := hascii l.toNat (by omega)
    rw [Char.ofNat_toNat] at hfold
    rintro (rfl | rfl | ⟨rfl, rfl⟩ | ⟨rfl, rfl⟩)
    · exact (hfold hl).1
    · exact (hfold hl).2
    · rfl
    · rfl

def fold (s : List Char) : List Char := s.map foldCase

def isBlank (c : Char) : Bool := c = ' ' || c = '\t' || c = '\r' || c = '\x0c'

theorem isBlank_iff {c : Char} : isBlank c = true ↔ c ∈ [' ', '\t', '\r', '\x0c'] := by
  simp [isBlank, or_assoc]

/-- What may stand inside the quotes of a string. -/
def isQuotable (c : Char) : Bool := c ≠ '"' && c ≠ '\n'

theorem isQuotable_iff {c : Char} : isQuotable c = true ↔ c ∉ ['"', '\n'] := by
  simp [isQuotable]

/-- What a comment goes on over. -/
def isComment (c : Char) : Bool := c ≠ '\n' && c ≠ '\r'

theorem isComment_iff {c : Char} : isComment c = true ↔ c ∉ ['\n', '\r'] := by
  simp [isComment]

/-- What one step of the scanner takes off the text. -/
inductive Piece where
  | token (t : Token)
  | newline
  | gap

/-- The keyword of a whole word, or else the word as an identifier. -/
def wordToken (word : List Char) : Token :=
  match Token.wordKeywords.find? fun k => k.lexeme.toList = fold word with
  | some k => k
  | none => .identifier (String.ofList word)

/-- Whether a word and the text after it make `he aahe`. The word has to be all of `he`; nothing is
asked of what follows. -/
def isDeclare (word rest : List Char) : Bool :=
  fold word = ['h', 'e'] &&
    match rest with
    | ' ' :: rest => fold (rest.take 4) = ['a', 'a', 'h', 'e']
    | _ => false

/-- Operators and punctuation, two characters before one. -/
def symbol : List Char → Option (Token × List Char)
  | '=' :: '=' :: rest => some (.operator .equal, rest)
  | '!' :: '=' :: rest => some (.operator .notEqual, rest)
  | '<' :: '=' :: rest => some (.operator .lessEqual, rest)
  | '>' :: '=' :: rest => some (.operator .greaterEqual, rest)
  | '=' :: rest => some (.operator .assign, rest)
  | '<' :: rest => some (.operator .less, rest)
  | '>' :: rest => some (.operator .greater, rest)
  | '+' :: rest => some (.operator .add, rest)
  | '-' :: rest => some (.operator .sub, rest)
  | '*' :: rest => some (.operator .mul, rest)
  | '/' :: rest => some (.operator .div, rest)
  | '%' :: rest => some (.operator .rem, rest)
  | '(' :: rest => some (.leftParen, rest)
  | ')' :: rest => some (.rightParen, rest)
  | '\x7b' :: rest => some (.leftBrace, rest)
  | '\x7d' :: rest => some (.rightBrace, rest)
  | ';' :: rest => some (.semicolon, rest)
  | ',' :: rest => some (.comma, rest)
  | _ => none

/-- The longest piece at the start of the text, and the text after it. -/
def munch : List Char → Option (Piece × List Char)
  | [] => none
  | '\n' :: rest => some (.newline, rest)
  | '/' :: '/' :: rest => some (.gap, rest.dropWhile isComment)
  | '"' :: rest =>
    match rest.dropWhile isQuotable with
    | '"' :: after => some (.token (.string (String.ofList (rest.takeWhile isQuotable))), after)
    | _ => none
  | c :: rest =>
    if isBlank c then some (.gap, rest.dropWhile isBlank)
    else if c.isDigit then
      some (.token (.number (String.ofList (c :: rest.takeWhile Char.isDigit))),
        rest.dropWhile Char.isDigit)
    else if isLetter c then
      let word := c :: rest.takeWhile isWordChar
      let after := rest.dropWhile isWordChar
      if isDeclare word after then some (.token .declare, after.drop 5)
      else some (.token (wordToken word), after)
    else (symbol (c :: rest)).map fun p => (.token p.1, p.2)

theorem length_dropWhile_le (p : Char → Bool) (s : List Char) :
    (s.dropWhile p).length ≤ s.length :=
  (List.dropWhile_suffix p).length_le

theorem symbol_shorter {s rest : List Char} {t : Token} (h : symbol s = some (t, rest)) :
    rest.length < s.length := by
  unfold symbol at h
  split at h <;> cases h <;> simp only [List.length_cons] <;> omega

theorem munch_shorter {s rest : List Char} {p : Piece} (h : munch s = some (p, rest)) :
    rest.length < s.length := by
  unfold munch at h
  split at h
  · cases h
  · cases h; simp
  · next r =>
    cases h
    have := length_dropWhile_le isComment r
    simp only [List.length_cons]; omega
  · next r =>
    split at h
    · next after heq =>
      cases h
      have := length_dropWhile_le isQuotable r
      rw [heq] at this
      simp only [List.length_cons] at this ⊢; omega
    · cases h
  · next c r _ _ _ =>
    have h1 := length_dropWhile_le isBlank r
    have h2 := length_dropWhile_le Char.isDigit r
    have h3 := length_dropWhile_le isWordChar r
    split at h
    · cases h; simp only [List.length_cons]; omega
    split at h
    · cases h; simp only [List.length_cons]; omega
    split at h
    · dsimp only at h
      split at h <;> cases h <;> simp only [List.length_cons, List.length_drop] <;> omega
    · obtain ⟨q, hq, he⟩ := Option.map_eq_some_iff.mp h
      cases he
      exact symbol_shorter hq

/-- Why no piece starts with this character. -/
def faultAt (c : Char) (line : Nat) : ScanError :=
  if c = '"' then .unterminatedString line else .unexpectedCharacter c line

/-- The tokens of a text up to its first fault. -/
structure Result where
  lexemes : List Lexeme
  fault : Option ScanError

def Result.cons (l : Lexeme) (r : Result) : Result := { r with lexemes := l :: r.lexemes }

def scanFrom (line : Nat) (s : List Char) : Result :=
  match h : munch s with
  | some (.newline, rest) => scanFrom (line + 1) rest
  | some (.gap, rest) => scanFrom line rest
  | some (.token t, rest) => (scanFrom line rest).cons ⟨t, line⟩
  | none => ⟨[], s.head?.map (faultAt · line)⟩
termination_by s.length
decreasing_by all_goals exact munch_shorter h

theorem scanFrom_token {s rest : List Char} {t : Token} (line : Nat)
    (h : munch s = some (.token t, rest)) :
    scanFrom line s = (scanFrom line rest).cons ⟨t, line⟩ := by
  rw [scanFrom]; split <;> simp_all

theorem scanFrom_gap {s rest : List Char} (line : Nat) (h : munch s = some (.gap, rest)) :
    scanFrom line s = scanFrom line rest := by
  rw [scanFrom]; split <;> simp_all

theorem scanFrom_newline {s rest : List Char} (line : Nat) (h : munch s = some (.newline, rest)) :
    scanFrom line s = scanFrom (line + 1) rest := by
  rw [scanFrom]; split <;> simp_all

theorem scanFrom_stuck {s : List Char} (line : Nat) (h : munch s = none) :
    scanFrom line s = ⟨[], s.head?.map (faultAt · line)⟩ := by
  rw [scanFrom]; split <;> simp_all

end Bhasha.Scan

namespace Bhasha

def scanAll (source : String) : Scan.Result := Scan.scanFrom 1 source.toList

/-- The tokens of a source text, with their lines. -/
def scan (source : String) : Except ScanError (List Lexeme) :=
  let result := scanAll source
  match result.fault with
  | none => .ok result.lexemes
  | some e => .error e

end Bhasha
