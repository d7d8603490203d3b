import Bhasha.Program.Layout
import Bhasha.Token.Scan

/-! A token that the scanner can produce is scanned back from its spelling, as long as what follows
does not run into it (`munch_written`), and the scanner produces no others (`scan_wellFormed`). -/

namespace Bhasha

/-- A letter with letters and digits after it, and not a keyword in any case. -/
def isName : List Char → Bool
  | [] => false
  | c :: w =>
    Text.isLetter c && w.all Text.isWordChar &&
      Token.wordKeywords.all fun k => k.lexeme.toList ≠ Scan.fold (c :: w)

/-- The tokens that a text can hold. -/
def Token.wellFormed : Token → Bool
  | string text => text.toList.all Scan.isQuotable
  | number text => text.toList ≠ [] && text.toList.all Char.isDigit
  | identifier name => isName name.toList
  | comment | newline | ignored => false
  | _ => true

namespace Scan

open Text

theorem toNat_of_isDigit {c : Char} (h : c.isDigit = true) : 48 ≤ c.toNat ∧ c.toNat ≤ 57 := by
  simp only [Char.isDigit, Bool.and_eq_true, decide_eq_true_eq, ge_iff_le,
    UInt32.le_iff_toNat_le] at h
  exact h

theorem isLetter_of_isDigit {c : Char} (h : c.isDigit = true) : isLetter c = false := by
  obtain ⟨hl, hu⟩ := toNat_of_isDigit h
  have hd : c.toNat = 48 ∨ c.toNat = 49 ∨ c.toNat = 50 ∨ c.toNat = 51 ∨ c.toNat = 52 ∨
      c.toNat = 53 ∨ c.toNat = 54 ∨ c.toNat = 55 ∨ c.toNat = 56 ∨ c.toNat = 57 := by
    omega
  rw [← Char.ofNat_toNat c]
  rcases hd with h | h | h | h | h | h | h | h | h | h <;> rw [h] <;> rfl

theorem not_isBlank {p : Char → Bool} {c : Char} (h : p c = true)
    (hp : [' ', '\t', '\r', '\x0c'].all (!p ·) = true) : isBlank c = false := by
  rw [Bool.eq_false_iff]
  intro hb
  simpa [h] using List.all_eq_true.mp hp c (isBlank_iff.mp hb)

theorem munch_letter {c : Char} (h : isLetter c = true) (rest : List Char) :
    munch (c :: rest) =
      if isDeclare (c :: rest.takeWhile isWordChar) (rest.dropWhile isWordChar) then
        some (.token .declare, (rest.dropWhile isWordChar).drop 5)
      else
        some (.token (wordToken (c :: rest.takeWhile isWordChar)), rest.dropWhile isWordChar) := by
  have hd : c.isDigit = false := by
    rw [Bool.eq_false_iff]
    intro hd
    cases (isLetter_of_isDigit hd).symm.trans h
  unfold munch
  split
  · contradiction
  · next he => cases he; cases h
  · next he => cases he; cases h
  · next he => cases he; cases h
  · next he =>
    cases he
    simp [not_isBlank h rfl, hd, h]

theorem munch_digit {c : Char} (h : c.isDigit = true) (rest : List Char) :
    munch (c :: rest) =
      some (.token (.number (String.ofList (c :: rest.takeWhile Char.isDigit))),
        rest.dropWhile Char.isDigit) := by
  unfold munch
  split
  · contradiction
  · next he => cases he; cases h
  · next he => cases he; cases h
  · next he => cases he; cases h
  · next he =>
    cases he
    simp [not_isBlank h rfl, h]

theorem munch_blank {c : Char} (h : isBlank c = true) (rest : List Char) :
    munch (c :: rest) = some (.gap, rest.dropWhile isBlank) := by
  unfold munch
  split
  · contradiction
  · next he => cases he; cases h
  · next he => cases he; cases h
  · next he => cases he; cases h
  · next he =>
    cases he
    simp [h]

theorem scanFrom_blank {c : Char} (h : isBlank c = true) (line : Nat) (s : List Char) :
    scanFrom line (c :: s) = scanFrom line s := by
  rw [scanFrom_gap line (munch_blank h s)]
  cases s with
  | nil => rfl
  | cons d s =>
    by_cases hd : isBlank d = true
    · rw [List.dropWhile_cons_of_pos hd, scanFrom_gap line (munch_blank hd s)]
    · rw [List.dropWhile_cons_of_neg hd]

theorem takeWhile_append_stop {p : Char → Bool} {w rest : List Char} (hw : w.all p = true)
    (hr : ∀ c ∈ rest.head?, p c = false) :
    (w ++ rest).takeWhile p = w ∧ (w ++ rest).dropWhile p = rest := by
  rw [List.all_eq_true] at hw
  rw [List.takeWhile_append_of_pos hw, List.dropWhile_append_of_pos hw]
  cases rest with
  | nil => simp
  | cons c rest => simp [hr c rfl]

theorem munch_word {c : Char} {w rest : List Char} (hc : isLetter c = true)
    (hw : w.all isWordChar = true) (hr : ∀ d ∈ rest.head?, isWordChar d = false)
    (hd : isDeclare (c :: w) rest = false) :
    munch (c :: w ++ rest) = some (.token (wordToken (c :: w)), rest) := by
  obtain ⟨ht, hdrop⟩ := takeWhile_append_stop hw hr
  rw [List.cons_append, munch_letter hc, ht, hdrop, if_neg (by simp [hd])]

theorem munch_number {w rest : List Char} (hw : w.all Char.isDigit = true) (hn : w ≠ [])
    (hr : ∀ d ∈ rest.head?, d.isDigit = false) :
    munch (w ++ rest) = some (.token (.number (String.ofList w)), rest) := by
  cases w with
  | nil => contradiction
  | cons c w =>
    rw [List.all_cons, Bool.and_eq_true] at hw
    obtain ⟨ht, hdrop⟩ := takeWhile_append_stop hw.2 hr
    rw [List.cons_append, munch_digit hw.1, ht, hdrop]

theorem munch_string {w : List Char} (hw : w.all isQuotable = true) (rest : List Char) :
    munch ('"' :: w ++ '"' :: rest) = some (.token (.string (String.ofList w)), rest) := by
  have hr : ∀ c ∈ ('"' :: rest).head?, isQuotable c = false := by simp [isQuotable]
  obtain ⟨ht, hdrop⟩ := takeWhile_append_stop hw hr
  simp only [List.cons_append, munch, ht, hdrop]

/-- Words, numbers and operators, which could go on in what follows them. -/
def runsOn : Token → Bool
  | .string _ | .leftParen | .rightParen | .leftBrace | .rightBrace | .semicolon | .comma => false
  | _ => true

/-- The text does not run into a token before it. -/
structure Parted (t : Token) (rest : List Char) : Prop where
  stops : runsOn t = true → ∀ c ∈ rest.head?, isWordChar c = false ∧ c ≠ '=' ∧ c ≠ '/'
  apart : ∀ name, t = .identifier name → isDeclare name.toList rest = false

theorem wordToken_of_isName {word : List Char} (h : isName word = true) :
    wordToken word = .identifier (String.ofList word) := by
  cases word with
  | nil => cases h
  | cons c w =>
    simp only [isName, Bool.and_eq_true, List.all_eq_true, decide_eq_true_eq] at h
    have hn : (Token.wordKeywords.find? fun k => k.lexeme.toList = fold (c :: w)) = none := by
      rw [List.find?_eq_none]
      intro k hk
      simpa using h.2 k hk
    rw [wordToken, hn]

theorem isDigit_of_not_isWordChar {c : Char} (h : isWordChar c = false) : c.isDigit = false := by
  rw [Bool.eq_false_iff]
  intro hd
  have hlt : c.toNat < 128 := by
    have := toNat_of_isDigit hd
    omega
  simp [isWordChar, isDecimal, hlt, hd] at h

theorem munch_operator (op : Operator) {rest : List Char}
    (h : ∀ c ∈ rest.head?, c ≠ '=' ∧ c ≠ '/') :
    munch (op.text.toList ++ rest) = some (.token (.operator op), rest) := by
  cases rest with
  | nil => cases op <;> rfl
  | cons c rest =>
    obtain ⟨he, hs⟩ := h c rfl
    cases op <;> simp [Operator.text, munch, symbol, isBlank, isLetter, he, hs]

/-- Keywords are words, and none of them begins `he aahe`. -/
theorem keyword_spelled : ∀ k ∈ Token.wordKeywords, ∃ c w, k.lexeme.toList = c :: w ∧
    isLetter c = true ∧ w.all isWordChar = true ∧ fold (c :: w) ≠ ['h', 'e'] ∧
      wordToken (c :: w) = k := by
  intro k hk
  simp only [Token.wordKeywords, List.mem_cons, List.not_mem_nil, or_false] at hk
  rcases hk with rfl | rfl | rfl | rfl | rfl | rfl | rfl | rfl <;>
    exact ⟨_, _, rfl, rfl, rfl, by decide, rfl⟩

theorem munch_keyword {k : Token} (hk : k ∈ Token.wordKeywords) {rest : List Char}
    (hr : ∀ c ∈ rest.head?, isWordChar c = false) :
    munch (k.lexeme.toList ++ rest) = some (.token k, rest) := by
  obtain ⟨c, w, he, hc, hw, hn, ht⟩ := keyword_spelled k hk
  rw [he, munch_word hc hw hr (by simp [isDeclare, hn]), ht]

theorem munch_name {name : String} {rest : List Char} (h : isName name.toList = true)
    (hr : ∀ c ∈ rest.head?, isWordChar c = false) (hd : isDeclare name.toList rest = false) :
    munch (name.toList ++ rest) = some (.token (.identifier name), rest) := by
  have ht := wordToken_of_isName h
  cases hn : name.toList with
  | nil => rw [hn] at h; cases h
  | cons c w =>
    rw [hn] at h ht hd
    simp only [isName, Bool.and_eq_true] at h
    rw [munch_word h.1.1 h.1.2 hr hd, ht, ← hn, String.ofList_toList]

theorem munch_written {t : Token} {rest : List Char} (ht : t.wellFormed = true)
    (hr : Parted t rest) : munch (t.written.toList ++ rest) = some (.token t, rest) := by
  have word : runsOn t = true → ∀ c ∈ rest.head?, isWordChar c = false :=
    fun h c hc => (hr.stops h c hc).1
  cases t with
  | declare => rfl
  | string text =>
    have := munch_string ht rest
    simpa [Token.written] using this
  | number text =>
    simp only [Token.wellFormed, Bool.and_eq_true, decide_eq_true_eq] at ht
    have := munch_number ht.2 ht.1 fun c hc => isDigit_of_not_isWordChar (word rfl c hc)
    rwa [String.ofList_toList] at this
  | identifier name => exact munch_name ht (word rfl) (hr.apart name rfl)
  | operator op => exact munch_operator op fun c hc => (hr.stops rfl c hc).2
  | leftParen | rightParen | leftBrace | rightBrace | semicolon | comma => rfl
  | comment | newline | ignored => cases ht
  | _ => exact munch_keyword (by decide) (word rfl)

theorem wordToken_wellFormed {c : Char} {w : List Char} (hc : isLetter c = true)
    (hw : w.all isWordChar = true) : (wordToken (c :: w)).wellFormed = true := by
  unfold wordToken
  split
  · next k hk =>
    have hall : ∀ k ∈ Token.wordKeywords, k.wellFormed = true := by decide
    exact hall k (List.mem_of_find?_eq_some hk)
  · next hn =>
    rw [List.find?_eq_none] at hn
    simp only [Token.wellFormed, String.toList_ofList, isName, hc, hw, Bool.true_and,
      List.all_eq_true]
    intro k hk
    simpa using hn k hk

theorem symbol_wellFormed {s rest : List Char} {t : Token} (h : symbol s = some (t, rest)) :
    t.wellFormed = true := by
  unfold symbol at h
  split at h <;> cases h <;> rfl

theorem munch_wellFormed {s rest : List Char} {t : Token} (h : munch s = some (.token t, rest)) :
    t.wellFormed = true := by
  unfold munch at h
  split at h
  · cases h
  · cases h
  · cases h
  · split at h <;> cases h
    simp [Token.wellFormed, List.all_takeWhile]
  · split at h
    · cases h
    split at h
    · next hd => cases h; simp [Token.wellFormed, List.all_takeWhile, hd]
    split at h
    · next hl =>
      dsimp only at h
      split at h <;> cases h
      · rfl
      · exact wordToken_wellFormed hl List.all_takeWhile
    · obtain ⟨q, hq, he⟩ := Option.map_eq_some_iff.mp h
      cases he
      exact symbol_wellFormed hq

theorem scanFrom_wellFormed (line : Nat) (s : List Char) :
    ∀ l ∈ (scanFrom line s).lexemes, l.token.wellFormed = true := by
  fun_induction scanFrom line s with
  | case1 line s rest h ih => exact ih
  | case2 line s rest h ih => exact ih
  | case3 line s t rest h ih =>
    intro l hl
    rcases List.mem_cons.mp hl with rfl | hl
    · exact munch_wellFormed h
    · exact ih l hl
  | case4 => simp

end Scan

theorem scan_eq_ok_iff {source : String} {ls : List Lexeme} :
    scan source = .ok ls ↔ scanAll source = ⟨ls, none⟩ := by
  unfold scan
  rcases scanAll source with ⟨ls', _ | e⟩ <;> simp

/-- The scanner produces no other tokens. -/
theorem scan_wellFormed {source : String} {ts : List Lexeme} (h : scan source = .ok ts) :
    ∀ l ∈ ts, l.token.wellFormed = true := by
  have hall := Scan.scanFrom_wellFormed 1 source.toList
  rwa [← scanAll, scan_eq_ok_iff.mp h] at hall

end Bhasha
