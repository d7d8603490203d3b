import Bhasha.Grammar.Program
import Bhasha.Proofs.Parser.Completion

/-! Syntax errors come as early as they can. An input is refused at the first token that no program
has there, and the end of the input is an error only where more tokens make a program of it. -/

namespace Bhasha

open Bhasha.Parser

/-- The token an error complains about. An input that ends too early has none. -/
def ParseError.offender : ParseError → Option Lexeme
  | unexpectedToken _ found line => some ⟨found, line⟩
  | unexpectedTrailingTokens found line => some ⟨found, line⟩
  | unexpectedEndOfInput .. => none

/-- The tokens are a program, or only end too early to be one. -/
def Unrefused (ts : List Lexeme) : Prop :=
  (∃ b, parse ts = .ok b) ∨ ∃ x line, parse ts = .error (.unexpectedEndOfInput x line)

theorem parse_of_block_ok {ts : List Lexeme} {b : Block} (h : block ts = (.ok b, [])) :
    parse ts = .ok b := by
  simp [parse, h]

theorem parse_of_block_trailing {ts rest : List Lexeme} {b : Block} {l : Lexeme}
    (h : block ts = (.ok b, l :: rest)) :
    parse ts = .error (.unexpectedTrailingTokens l.token l.line) := by
  simp [parse, h]

theorem parse_of_block_error {ts rest : List Lexeme} {e : ParseError}
    (h : block ts = (.error e, rest)) : parse ts = .error (e.endingOn (lastLine ts)) := by
  simp [parse, h]

theorem parse_eq_ok {ts : List Lexeme} {b : Block} : parse ts = .ok b ↔ block ts = (.ok b, []) := by
  refine ⟨fun h => ?_, parse_of_block_ok⟩
  rcases hb : block ts with ⟨e | b', rest⟩
  · rw [parse_of_block_error hb] at h; cases h
  · cases rest with
    | nil => rw [parse_of_block_ok hb] at h; cases h; rfl
    | cons l rest => rw [parse_of_block_trailing hb] at h; cases h

theorem Unrefused.of_open {ts : List Lexeme} (h : Open (block ts)) : Unrefused ts := by
  obtain ⟨b, hb⟩ | ⟨x, hx⟩ := h
  · exact .inl ⟨b, parse_of_block_ok hb⟩
  · exact .inr ⟨x, lastLine ts, parse_of_block_error hx⟩

/-- What an input that ends too early shows of the parser. -/
theorem block_of_parse_ended {ts : List Lexeme} {x : Expected} {line : Nat}
    (h : parse ts = .error (.unexpectedEndOfInput x line)) :
    block ts = (.error (.unexpectedEndOfInput x 0), []) ∧ line = lastLine ts := by
  rcases hb : block ts with ⟨e | b, rest⟩
  · rw [parse_of_block_error hb] at h
    obtain ⟨y, rfl, rfl⟩ | ⟨y, t, l, rfl⟩ := regular_block.error_cases hb
    · cases h; exact ⟨rfl, rfl⟩
    · cases h
  · cases rest with
    | nil => rw [parse_of_block_ok hb] at h; cases h
    | cons l rest => rw [parse_of_block_trailing hb] at h; cases h

theorem unrefused_iff (ts : List Lexeme) : Unrefused ts ↔ ∃ us b, parse (ts ++ us) = .ok b := by
  constructor
  · rintro (⟨b, hb⟩ | ⟨x, line, hx⟩)
    · exact ⟨[], b, by rwa [List.append_nil]⟩
    · obtain ⟨us, b, hu⟩ := (completes_block (n := ts.length + 1)).resume ts x []
        (Nat.lt_succ_self _) (block_of_parse_ended hx).1
      refine ⟨us, b, parse_of_block_ok ?_⟩
      simpa using hu [] (by simp [AfterBlock])
  · rintro ⟨us, b, hb⟩
    exact .of_open (regular_block.open_front (parse_eq_ok.mp hb) (Nat.zero_le _))

theorem parse_offender {ts : List Lexeme} {e : ParseError} {l : Lexeme} (h : parse ts = .error e)
    (hl : e.offender = some l) :
    ∃ pre post, ts = pre ++ l :: post ∧ Unrefused pre ∧
      ∀ us, parse (pre ++ l :: us) = .error e := by
  rcases hb : block ts with ⟨e' | b, rest⟩
  · rw [parse_of_block_error hb] at h
    obtain ⟨y, rfl, rfl⟩ | ⟨y, t, line, rfl⟩ := regular_block.error_cases hb
    · cases h; cases hl
    · cases h
      obtain ⟨pre, l', post, kept, rfl, rfl, rfl, -, -, ho, hp⟩ := regular_block.refused hb
      cases hl
      exact ⟨pre, post, rfl, .of_open ho, fun us => parse_of_block_error (hp us)⟩
  · cases rest with
    | nil => rw [parse_of_block_ok hb] at h; cases h
    | cons l' post =>
      rw [parse_of_block_trailing hb] at h
      cases h
      cases hl
      obtain ⟨pre, rfl⟩ := (regular_block.leaves ts).exists_append hb
      refine ⟨pre, post, rfl, .of_open (regular_block.open_front hb (Nat.le_refl _)), fun us => ?_⟩
      exact parse_of_block_trailing (regular_block.stable hb rfl)

theorem block_nil : block [] = (.ok [], []) := rfl

theorem parse_ended_line {ts : List Lexeme} {x : Expected} {line : Nat}
    (h : parse ts = .error (.unexpectedEndOfInput x line)) :
    ∃ l, ts.getLast? = some l ∧ line = l.line := by
  obtain ⟨hb, rfl⟩ := block_of_parse_ended h
  cases hl : ts.getLast? with
  | none =>
    obtain rfl := List.getLast?_eq_none_iff.mp hl
    rw [block_nil] at hb
    cases hb
  | some l => exact ⟨l, rfl, by simp [lastLine, hl]⟩

/-- Errors come at the first token that cannot be right, and the end of the input is an error
exactly where it can be put off. -/
theorem syntax_errors_earliest (ts : List Lexeme) :
    (Unrefused ts ↔ ∃ us b, parse (ts ++ us) = .ok b) ∧
    (∀ e l, parse ts = .error e → e.offender = some l →
      ∃ pre post, ts = pre ++ l :: post ∧ Unrefused pre ∧
        ∀ us, parse (pre ++ l :: us) = .error e) ∧
    (∀ x line, parse ts = .error (.unexpectedEndOfInput x line) →
      ∃ l, ts.getLast? = some l ∧ line = l.line) :=
  ⟨unrefused_iff ts, fun _ _ => parse_offender, fun _ _ => parse_ended_line⟩

end Bhasha
