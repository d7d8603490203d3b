import Bhasha.Proofs.Parser.Errors

/-! Lines only label tokens. Every parser carries them along and decides nothing by them, so with
other lines on the tokens it does the same, and the line in its error is the other line of the same
token (`Similar.mapLine`, `parse_mapLine`). -/

namespace Bhasha

/-- The same token on another line. -/
def Lexeme.mapLine (f : Nat → Nat) (l : Lexeme) : Lexeme := { l with line := f l.line }

def ScanError.mapLine (f : Nat → Nat) : ScanError → ScanError
  | unexpectedCharacter found line => unexpectedCharacter found (f line)
  | unterminatedString line => unterminatedString (f line)

namespace ParseError

def mapLine (f : Nat → Nat) : ParseError → ParseError
  | unexpectedToken expected found line => unexpectedToken expected found (f line)
  | unexpectedEndOfInput expected line => unexpectedEndOfInput expected (f line)
  | unexpectedTrailingTokens found line => unexpectedTrailingTokens found (f line)

/-- As `mapLine`, where the line is that of a token. The end of the input has none. -/
def mapTokenLine (f : Nat → Nat) : ParseError → ParseError
  | unexpectedEndOfInput expected line => unexpectedEndOfInput expected line
  | e => e.mapLine f

theorem endingOn_mapTokenLine (f : Nat → Nat) (line : Nat) (e : ParseError) :
    (e.mapTokenLine f).endingOn (f line) = (e.endingOn line).mapLine f := by
  cases e <;> rfl

end ParseError

/-- A run has no lines any more, and neither do its errors. -/
def Error.mapLine (f : Nat → Nat) : Error → Error
  | scan e => scan (e.mapLine f)
  | parse e => parse (e.mapLine f)
  | run e => run e

@[simp] theorem Lexeme.mapLine_token (f : Nat → Nat) (l : Lexeme) : (l.mapLine f).token = l.token :=
  rfl

/-- With all lines made equal, only the tokens are left. -/
theorem map_mapLine_eq {ts ts' : List Lexeme} (h : ts.map Lexeme.token = ts'.map Lexeme.token)
    (line : Nat) :
    ts.map (Lexeme.mapLine fun _ => line) = ts'.map (Lexeme.mapLine fun _ => line) := by
  have hmk : Lexeme.mapLine (fun _ => line) = (Lexeme.mk · line) ∘ Lexeme.token := rfl
  rw [hmk, ← List.map_map, h, List.map_map]

namespace Parser

variable {α β : Type} {b : Bool} {n : Nat}

/-- A result with other lines on the tokens. -/
def mapLine (f : Nat → Nat) (r : Except ParseError α × List Lexeme) :
    Except ParseError α × List Lexeme :=
  (r.1.mapError (ParseError.mapTokenLine f), r.2.map (Lexeme.mapLine f))

theorem bind_mapLine {f : Nat → Nat} {p : Parser α} {g : α → Parser β} {ts : List Lexeme}
    (hp : p (ts.map (Lexeme.mapLine f)) = mapLine f (p ts))
    (hg : ∀ a mid, p ts = (.ok a, mid) → g a (mid.map (Lexeme.mapLine f)) = mapLine f (g a mid)) :
    (p >>= g) (ts.map (Lexeme.mapLine f)) = mapLine f ((p >>= g) ts) := by
  rcases h : p ts with ⟨e | a, mid⟩
  · rw [h] at hp
    rw [bind_of_error h, bind_of_error hp]
    rfl
  · rw [h] at hp
    rw [bind_of_ok h, bind_of_ok hp]
    exact hg a mid h

theorem next_mapLine (f : Nat → Nat) (expected : Expected) (accept : Token → Option α)
    (ts : List Lexeme) :
    next expected accept (ts.map (Lexeme.mapLine f)) = mapLine f (next expected accept ts) := by
  cases ts with
  | nil => rfl
  | cons l ts =>
    simp only [List.map_cons, next, Lexeme.mapLine_token]
    cases accept l.token with
    | some a => rfl
    | none => rfl

/-- The induction is over the steps a parser is put together from, so it covers all parsers of the
grammar at once. -/
theorem Similar.mapLine {p q : Parser α} (h : Similar b n p q) (f : Nat → Nat) :
    ∀ ts : List Lexeme, ts.length < n →
      p (ts.map (Lexeme.mapLine f)) = Parser.mapLine f (p ts) := by
  induction h with
  | zero => intro ts h; omega
  | congr _ hp _ ih =>
    intro ts hts
    rw [hp ts hts, hp _ (by rwa [List.length_map]), ih ts hts]
  | weaken _ ih => exact ih
  | pure a => intros; rfl
  | next x accept => intro ts _; exact next_mapLine f x accept ts
  | @opt _ _ _ _ accept g _ _ _ ihs ihn =>
    intro ts hts
    cases ts with
    | nil => exact ihn [] hts
    | cons l ts =>
      cases h : accept l.token with
      | none =>
        rw [next?_bind_none g h, ← ihn _ hts]
        exact next?_bind_none g (l := l.mapLine f) h _
      | some a =>
        rw [next?_bind_some g h, ← ihs a ts (by simpa using hts)]
        exact next?_bind_some g (l := l.mapLine f) h _
  | seq hp _ ihp ihf =>
    intro ts hts
    refine bind_mapLine (ihp ts hts) fun a mid h => ihf a mid ?_
    have := (hp.leaves ts hts).taken a mid h
    omega
  | @dispatch _ _ _ x known g _ _ ih =>
    intro ts hts
    cases ts with
    | nil => rfl
    | cons l ts =>
      cases h : known l.token with
      | false =>
        rw [dispatch_unknown h]
        exact dispatch_unknown (l := l.mapLine f) h _
      | true =>
        rw [dispatch_known h, ← ih l.token _ hts]
        exact dispatch_known (l := l.mapLine f) h _
  | unlessClosed a _ ih =>
    intro ts hts
    cases ts with
    | nil => rfl
    | cons l ts =>
      cases h : closesBlock l.token with
      | true =>
        rw [unlessClosed_closed h]
        exact unlessClosed_closed (l := l.mapLine f) h _
      | false =>
        rw [unlessClosed_open h, ← ih _ hts]
        exact unlessClosed_open (l := l.mapLine f) h _

theorem Regular.mapLine {p : Parser α} (h : Regular b p) (f : Nat → Nat) (ts : List Lexeme) :
    p (ts.map (Lexeme.mapLine f)) = Parser.mapLine f (p ts) :=
  (h (ts.length + 1)).mapLine f ts (Nat.lt_succ_self _)

end Parser

open Bhasha.Parser

theorem lastLine_mapLine {ts : List Lexeme} (f : Nat → Nat) (h : ts ≠ []) :
    lastLine (ts.map (Lexeme.mapLine f)) = f (lastLine ts) := by
  obtain ⟨l, hl⟩ : ∃ l, ts.getLast? = some l := ⟨_, List.getLast?_eq_some_getLast h⟩
  simp [lastLine, List.getLast?_map, hl, Lexeme.mapLine]

/-- With other lines on the tokens a list parses as before, and an error has the other line. -/
theorem parse_mapLine (f : Nat → Nat) (ts : List Lexeme) :
    parse (ts.map (Lexeme.mapLine f)) = (parse ts).mapError (ParseError.mapLine f) := by
  by_cases hts : ts = []
  · -- no tokens are a program, so the line 1 that would stand for them never shows
    subst hts
    rfl
  have hmap := regular_block.mapLine f ts
  rcases hb : block ts with ⟨e | b, rest⟩
  · rw [hb] at hmap
    rw [parse_of_block_error hb, parse_of_block_error hmap, lastLine_mapLine f hts,
      ParseError.endingOn_mapTokenLine]
    rfl
  · rw [hb] at hmap
    cases rest with
    | nil =>
      rw [parse_of_block_ok hb, parse_of_block_ok hmap]
      rfl
    | cons l rest =>
      rw [parse_of_block_trailing hb, parse_of_block_trailing hmap]
      rfl

end Bhasha
