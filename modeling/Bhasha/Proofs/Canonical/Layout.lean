import Bhasha.Proofs.Canonical.RoundTrip
import Bhasha.Proofs.Parser.Lines

/-! Layout does not change what a text means. Two texts with the same tokens run alike, or are
refused for the same reason; only the line that a syntax error names may differ. -/

namespace Bhasha

variable {source source' : String} {ts ts' : List Lexeme}

/-- What a run shows apart from the line of an error. -/
def Report.unplaced (r : Report) : String × Option Error :=
  (r.output, r.failure.map (Error.mapLine fun _ => 0))

theorem map_unplaced (r : Option Report) :
    r.map Report.unplaced =
      (r.map Report.shown).map fun s => (s.1, s.2.map (Error.mapLine fun _ => 0)) := by
  rw [Option.map_map]
  rfl

theorem interpret_of_parse_error {e : ParseError} (hs : scan source = .ok ts)
    (hp : parse ts = .error e) (bound limit : Nat) :
    (interpret bound limit source).map Report.shown = some ("", some (.parse e)) := by
  rw [interpret_of_scan hs]
  simp only [Task.ofTokens, hp, reduceCtorEq, if_false]
  rfl

/-- Texts with the same tokens give the same tree, or errors that differ in their lines only. -/
theorem parse_of_same_tokens (h : ts.map Lexeme.token = ts'.map Lexeme.token) :
    (∃ b, parse ts = .ok b ∧ parse ts' = .ok b) ∨
      ∃ e e', parse ts = .error e ∧ parse ts' = .error e' ∧
        e.mapLine (fun _ => 0) = e'.mapLine fun _ => 0 := by
  have hp : (parse ts).mapError (ParseError.mapLine fun _ => 0) =
      (parse ts').mapError (ParseError.mapLine fun _ => 0) := by
    rw [← parse_mapLine, ← parse_mapLine, map_mapLine_eq h]
  cases hb : parse ts with
  | ok b =>
    cases hb' : parse ts' with
    | ok b' =>
      rw [hb, hb'] at hp
      cases hp
      exact .inl ⟨b, rfl, rfl⟩
    | error e' =>
      rw [hb, hb'] at hp
      cases hp
  | error e =>
    cases hb' : parse ts' with
    | ok b' =>
      rw [hb, hb'] at hp
      cases hp
    | error e' =>
      rw [hb, hb'] at hp
      exact .inr ⟨e, e', rfl, rfl, Except.error.inj hp⟩

/-- Other lines on the tokens change nothing but the line of a syntax error, which changes as they
do. So texts with the same tokens print the same and fail in the same way, or are refused with the
same expectation at the same token. -/
theorem layout_keeps_meaning :
    (∀ (f : Nat → Nat) (ts : List Lexeme),
      parse (ts.map (Lexeme.mapLine f)) = (parse ts).mapError (ParseError.mapLine f)) ∧
    ∀ source source' ts ts', scan source = .ok ts → scan source' = .ok ts' →
      ts.map Lexeme.token = ts'.map Lexeme.token →
        ∀ bound limit, (interpret bound limit source).map Report.unplaced =
          (interpret bound limit source').map Report.unplaced := by
  refine ⟨parse_mapLine, ?_⟩
  intro source source' ts ts' hs hs' h bound limit
  rw [map_unplaced, map_unplaced]
  obtain ⟨b, hb, hb'⟩ | ⟨e, e', he, he', hline⟩ := parse_of_same_tokens h
  · rw [interpret_of_parse hs hb, interpret_of_parse hs' hb']
  · rw [interpret_of_parse_error hs he, interpret_of_parse_error hs' he']
    simp only [Option.map_some, Error.mapLine, hline]

/-- An operand is missing, on the second line of one text and on the third line of the other. -/
theorem layout_keeps_meaning_refused :
    let source := "chapa(1 +\n);"
    let source' := "chapa // one\n\n(1+)\n;"
    ∃ ts ts', scan source = .ok ts ∧ scan source' = .ok ts' ∧
      parse ts = .error (.unexpectedToken .expression .rightParen 2) ∧
      parse ts' = .error (.unexpectedToken .expression .rightParen 3) ∧
      ∀ bound limit, (interpret bound limit source).map Report.unplaced =
        (interpret bound limit source').map Report.unplaced := by
  intro source source'
  have hs : scan source = .ok [⟨.print, 1⟩, ⟨.leftParen, 1⟩, ⟨.number "1", 1⟩,
      ⟨.operator .add, 1⟩, ⟨.rightParen, 2⟩, ⟨.semicolon, 2⟩] := by
    cbv
  have hs' : scan source' = .ok [⟨.print, 1⟩, ⟨.leftParen, 3⟩, ⟨.number "1", 3⟩,
      ⟨.operator .add, 3⟩, ⟨.rightParen, 3⟩, ⟨.semicolon, 4⟩] := by
    cbv
  exact ⟨_, _, hs, hs', rfl, rfl, layout_keeps_meaning.2 source source' _ _ hs hs' rfl⟩

end Bhasha
