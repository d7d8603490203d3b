import Bhasha.Proofs.Parser.Lines
import Bhasha.Proofs.Scan.MaximalMunch

/-! A text is scanned line by line. No rule matches across a line break or looks beyond one
(`Rule.prefix_line_iff`), so two texts with a line break between them are cut as each of them is cut
alone, and only the lines of the second one move. -/

namespace Bhasha.Scan

variable {s w mid rest : List Char} {p : Piece} {segments segments' : List Segment}

/-- A match that holds a line break is nothing else. -/
theorem Rule.eq_newline (h : Rule w p) (hm : '\n' ∈ w) : w = ['\n'] := by
  have hcount : 0 < w.count '\n' := List.count_pos_iff.mpr hm
  rw [h.count_newline] at hcount
  cases p with
  | newline =>
    cases h
    rfl
  | gap => cases hcount
  | token t => cases hcount

theorem Rule.prefix_line_iff (h : Rule w p) (hs : s ≠ []) (below : List Char) :
    w <+: s ++ '\n' :: below ↔ w <+: s := by
  refine ⟨fun hw => ?_, fun hw => hw.trans (List.prefix_append s _)⟩
  obtain ⟨v, hv⟩ := hw
  rcases List.append_eq_append_iff.mp hv with ⟨u, rfl, -⟩ | ⟨u, rfl, hu⟩
  · exact List.prefix_append w u
  · cases u with
    | nil => simp
    | cons c u =>
      obtain ⟨rfl, -⟩ := List.cons.inj hu
      have hbreak := h.eq_newline (by simp)
      exact absurd (List.append_eq_singleton_iff.mp hbreak) (by simp [hs])

theorem Longest.append_line (h : Longest s w p rest) (below : List Char) :
    Longest (s ++ '\n' :: below) w p (rest ++ '\n' :: below) := by
  have hs : s ≠ [] := by
    rintro rfl
    cases h.munch
  refine ⟨by rw [h.split, List.append_assoc], h.rule, fun hr hw => ?_, h.keyword⟩
  exact h.longest hr ((hr.prefix_line_iff hs below).mp hw)

theorem Unmatched.append_line (h : Unmatched s) (hs : s ≠ []) (below : List Char) :
    Unmatched (s ++ '\n' :: below) :=
  fun hr hw => h hr ((hr.prefix_line_iff hs below).mp hw)

theorem Cut.append_line (h : Cut s segments rest) (below : List Char) :
    Cut (s ++ '\n' :: below) segments (rest ++ '\n' :: below) := by
  induction h with
  | done => exact .done
  | next hl _ ih => exact .next (hl.append_line below) ih

theorem Cut.append (h : Cut s segments mid) (h' : Cut mid segments' rest) :
    Cut s (segments ++ segments') rest := by
  induction h with
  | done => exact h'
  | next hl _ ih => exact .next hl (ih h')

theorem longest_newline (below : List Char) : Longest ('\n' :: below) ['\n'] .newline below := by
  obtain ⟨w, hl⟩ := munch_eq_some_iff.mp (rfl : munch ('\n' :: below) = some (.newline, below))
  obtain rfl : ['\n'] = w := List.append_cancel_right hl.split
  exact hl

theorem Cut.lines {below : List Char} (h : Cut s segments []) (h' : Cut below segments' rest) :
    Cut (s ++ '\n' :: below) (segments ++ ⟨.newline, ['\n']⟩ :: segments') rest :=
  (h.append_line below).append (.next (longest_newline below) h')

theorem lineAfter_append_left (before after : List Char) :
    lineAfter (before ++ after) = lineAfter after + before.count '\n' := by
  rw [lineAfter, lineAfter, List.count_append]
  omega

theorem lexemesAfter_append_left (before after : List Char) (segments : List Segment) :
    lexemesAfter (before ++ after) segments =
      (lexemesAfter after segments).map (Lexeme.mapLine (· + before.count '\n')) := by
  induction segments generalizing after with
  | nil => rfl
  | cons segment segments ih =>
    obtain ⟨p, w⟩ := segment
    cases p with
    | token t =>
      simp only [lexemesAfter, List.map_cons, List.append_assoc, ih, Lexeme.mapLine,
        lineAfter_append_left]
    | newline | gap => simp only [lexemesAfter, List.append_assoc, ih]

theorem lexemesAfter_append (before : List Char) (segments segments' : List Segment) :
    lexemesAfter before (segments ++ segments') = lexemesAfter before segments ++
      lexemesAfter (before ++ segments.flatMap Segment.text) segments' := by
  induction segments generalizing before with
  | nil => simp [lexemesAfter]
  | cons segment segments ih =>
    obtain ⟨p, w⟩ := segment
    cases p <;>
      simp only [List.cons_append, lexemesAfter, ih, List.flatMap_cons, List.append_assoc]

theorem count_line (s : List Char) : (s ++ ['\n']).count '\n' = 1 + s.count '\n' := by
  rw [List.count_append, Nat.add_comm]
  rfl

theorem Cut.lexemes_lines (h : Cut s segments []) :
    lexemesAfter [] (segments ++ ⟨.newline, ['\n']⟩ :: segments') =
      lexemesAfter [] segments ++
        (lexemesAfter [] segments').map (Lexeme.mapLine (· + (1 + s.count '\n'))) := by
  have hbreak : lexemesAfter s (⟨.newline, ['\n']⟩ :: segments') =
      lexemesAfter (s ++ ['\n'] ++ []) segments' := by
    rw [List.append_nil]
    rfl
  rw [lexemesAfter_append, List.nil_append, h.text_eq, hbreak, lexemesAfter_append_left, count_line]

theorem Cut.lineAfter_lines (h : Cut s segments []) :
    lineAfter ((segments ++ ⟨.newline, ['\n']⟩ :: segments').flatMap Segment.text) =
      lineAfter (segments'.flatMap Segment.text) + (1 + s.count '\n') := by
  rw [List.flatMap_append, List.flatMap_cons, h.text_eq, ← List.append_assoc,
    lineAfter_append_left, count_line]

theorem mapLine_faultAt (f : Nat → Nat) (c : Char) (line : Nat) :
    (faultAt c line).mapLine f = faultAt c (f line) := by
  unfold faultAt
  split <;> rfl

end Bhasha.Scan

namespace Bhasha

open Scan

/-- Two texts with a line break between them scan as each of them does alone, the first one first.
The lines of the second one go on where the first one ends. -/
theorem scan_line_by_line (a b : String) :
    scan (a ++ "\n" ++ b) = do
      let ts ← scan a
      let us ← (scan b).mapError (ScanError.mapLine (· + (1 + a.toList.count '\n')))
      return ts ++ us.map (Lexeme.mapLine (· + (1 + a.toList.count '\n'))) := by
  have htext : (a ++ "\n" ++ b).toList = a.toList ++ '\n' :: b.toList := by simp
  obtain ⟨above, rest, hcut, hrest⟩ := exists_cut a.toList
  have ha := scan_eq_of_cut hcut hrest
  cases rest with
  | cons c rest =>
    have hab : scan (a ++ "\n" ++ b) = _ :=
      scan_eq_of_cut (htext ▸ hcut.append_line b.toList) (hrest.append_line (by simp) b.toList)
    rw [ha, hab]
    rfl
  | nil =>
    obtain ⟨below, rest, hcut', hrest'⟩ := exists_cut b.toList
    have hb := scan_eq_of_cut hcut' hrest'
    have hab : scan (a ++ "\n" ++ b) = _ := scan_eq_of_cut (htext ▸ hcut.lines hcut') hrest'
    rw [ha, hab, hb]
    cases rest with
    | nil => exact congrArg Except.ok hcut.lexemes_lines
    | cons c rest =>
      have hfault := mapLine_faultAt (· + (1 + a.toList.count '\n')) c
        (lineAfter (below.flatMap Segment.text))
      exact congrArg Except.error ((congrArg (faultAt c) hcut.lineAfter_lines).trans hfault.symm)

end Bhasha
