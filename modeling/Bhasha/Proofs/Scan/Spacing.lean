import Bhasha.Proofs.Scan.MaximalMunch

/-! Tokens survive a change of spacing. Tokens that the scanner can produce, written with any white
space between them, are scanned as those tokens again, each on the line that the gaps before it lead
to. The one exception is a single blank that makes the keyword `he aahe` of two names. -/

namespace Bhasha.Scan

open Text

def isSpacing (c : Char) : Bool := isBlank c || c = '\n'

/-- White space between two tokens. -/
structure Gap where
  chars : List Char
  nonempty : chars ≠ []
  spacing : chars.all isSpacing = true

/-- Two names with a single blank between them that begin with `he aahe` together. -/
def fuses : Token → Gap → Token → Bool
  | .identifier name, gap, .identifier next =>
    gap.chars = [' '] && fold name.toList = ['h', 'e'] &&
      fold (next.toList.take 4) = ['a', 'a', 'h', 'e']
  | _, _, _ => false

/-- The text of tokens with a gap between any two neighbours. -/
def spread : List Token → List Gap → List Char
  | [], _ => []
  | t :: ts, [] => t.written.toList ++ spread ts []
  | t :: ts, g :: gaps => t.written.toList ++ (g.chars ++ spread ts gaps)

/-- No two neighbours fuse over the gap between them. -/
def unfused : List Token → List Gap → Bool
  | t :: u :: ts, g :: gaps => !fuses t g u && unfused (u :: ts) gaps
  | _, _ => true

variable {t u : Token} {ts : List Token} {g : Gap} {gaps : List Gap} {c : Char}
  {more : List Char}

theorem isSpacing_stops (h : isSpacing c = true) :
    isWordChar c = false ∧ c ≠ '=' ∧ c ≠ '/' ∧ foldCase c ≠ 'a' := by
  have hc : c = ' ' ∨ c = '\t' ∨ c = '\r' ∨ c = '\x0c' ∨ c = '\n' := by
    simpa [isSpacing, isBlank_iff, or_assoc] using h
  rcases hc with rfl | rfl | rfl | rfl | rfl <;> exact ⟨rfl, by decide, by decide, by decide⟩

theorem Gap.exists_cons (g : Gap) :
    ∃ c cs, g.chars = c :: cs ∧ isSpacing c = true ∧ cs.all isSpacing = true := by
  have hs := g.spacing
  cases hg : g.chars with
  | nil => exact absurd hg g.nonempty
  | cons c cs =>
    rw [hg, List.all_cons, Bool.and_eq_true] at hs
    exact ⟨c, cs, rfl, hs⟩

theorem Gap.stops (g : Gap) (rest : List Char) :
    ∀ c ∈ (g.chars ++ rest).head?, isWordChar c = false ∧ c ≠ '=' ∧ c ≠ '/' := by
  obtain ⟨c, cs, hg, hc, -⟩ := g.exists_cons
  rw [hg]
  rintro d ⟨⟩
  exact ⟨(isSpacing_stops hc).1, (isSpacing_stops hc).2.1, (isSpacing_stops hc).2.2.1⟩

/-- Only a name begins with the letter `a`. -/
theorem identifier_of_head {rest : List Char} (hu : u.wellFormed = true)
    (h : u.written.toList ++ more = c :: rest) (ha : foldCase c = 'a') :
    ∃ name, u = .identifier name := by
  cases u with
  | identifier name => exact ⟨name, rfl⟩
  | number text =>
    simp only [Token.wellFormed, Bool.and_eq_true, decide_eq_true_eq] at hu
    obtain ⟨d, w, hw⟩ := List.exists_cons_of_ne_nil hu.1
    have hcd : c = d := by
      change text.toList ++ more = c :: rest at h
      rw [hw] at h
      exact (List.cons.inj h).1.symm
    have hd : c.isDigit = true := by
      rw [hw, List.all_cons, Bool.and_eq_true] at hu
      exact hcd ▸ hu.2.1
    have hl : isLetter c = true := isLetter_of_foldCase c (by rw [ha]; rfl)
    cases (isLetter_of_isDigit hd).symm.trans hl
  | string text =>
    simp only [Token.written, String.toList_append, List.append_assoc] at h
    cases h
    cases ha
  | operator op => cases op <;> cases h <;> cases ha
  | comment | newline | ignored => cases hu
  | _ => cases h; cases ha

/-- A word at the start of a text lies within what a stop ends there. -/
theorem prefix_of_stops {v w rest : List Char} (h : v ++ rest = w ++ more)
    (hv : v.all isWordChar = true) (hm : ∀ c ∈ more.head?, isWordChar c = false) : v <+: w := by
  rcases List.append_eq_append_iff.mp h with ⟨bs, rfl, -⟩ | ⟨bs, rfl, rfl⟩
  · exact List.prefix_append v bs
  · cases bs with
    | nil => simp
    | cons b bs =>
      have hb : isWordChar b = true := List.all_eq_true.mp hv b (by simp)
      cases (hm b rfl).symm.trans hb

/-- What follows a name makes `he aahe` of it only if it is one blank and then a name that goes on
so. -/
theorem fuses_of_isDeclare {name : String} (hu : u.wellFormed = true)
    (hm : ∀ c ∈ more.head?, isWordChar c = false)
    (h : isDeclare name.toList (g.chars ++ (u.written.toList ++ more)) = true) :
    fuses (.identifier name) g u = true := by
  obtain ⟨hname, tail, rest, he, htail⟩ := isDeclare_iff.mp h
  obtain ⟨a, v, hav, hal, hv⟩ :=
    word_of_fold (w := tail) (by rintro rfl; cases htail) (by rw [htail]; rfl)
  have ha : foldCase a = 'a' := by
    rw [hav] at htail
    exact (List.cons.inj htail).1
  obtain ⟨c, cs, hg, -, hcs⟩ := g.exists_cons
  rw [hg, List.cons_append, List.cons.injEq] at he
  obtain ⟨rfl, he⟩ := he
  cases cs with
  | cons d cs =>
    -- a second character of white space is not the `a` that has to come
    rw [List.all_cons, Bool.and_eq_true] at hcs
    rw [hav, List.cons_append, List.cons_append, List.cons.injEq] at he
    exact absurd ha (he.1 ▸ (isSpacing_stops hcs.1).2.2.2)
  | nil =>
    rw [List.nil_append] at he
    have he' : u.written.toList ++ more = a :: (v ++ rest) := by rw [he, hav]; rfl
    obtain ⟨next, rfl⟩ := identifier_of_head hu he' ha
    have hpre : tail <+: next.toList :=
      prefix_of_stops he.symm (by simp [hav, isWordChar, hal, hv]) hm
    have hl : tail.length = 4 := length_of_fold htail
    rw [List.prefix_iff_eq_take.mp hpre, hl] at htail
    simpa [fuses, hg, hname] using htail

theorem parted_nil : Parted t [] :=
  ⟨by simp, fun name _ => by simp [isDeclare]⟩

theorem munch_gap (ht : t.wellFormed = true) (hu : u.wellFormed = true)
    (hm : ∀ c ∈ more.head?, isWordChar c = false) (hf : fuses t g u = false) :
    munch (t.written.toList ++ (g.chars ++ (u.written.toList ++ more))) =
      some (.token t, g.chars ++ (u.written.toList ++ more)) := by
  refine munch_written ht ⟨fun _ => g.stops _, ?_⟩
  rintro name rfl
  rw [Bool.eq_false_iff] at hf ⊢
  exact fun h => hf (fuses_of_isDeclare hu hm h)

theorem munch_fused (more : List Char) (hf : fuses t g u = true) :
    t ≠ .declare ∧ ∃ rest, munch (t.written.toList ++ (g.chars ++ (u.written.toList ++ more))) =
      some (.token .declare, rest) := by
  unfold fuses at hf
  split at hf
  · next name gap next =>
    simp only [Bool.and_eq_true, decide_eq_true_eq] at hf
    refine ⟨nofun, next.toList.drop 4 ++ more, ?_⟩
    rw [hf.1.1, ← munch_declare hf.1.2 hf.2, ← List.append_assoc (next.toList.take 4),
      List.take_append_drop]
    rfl
  · cases hf

theorem scanFrom_spacing {w : List Char} (hw : w.all isSpacing = true) (line : Nat)
    (rest : List Char) : scanFrom line (w ++ rest) = scanFrom (line + w.count '\n') rest := by
  induction w generalizing line with
  | nil => rfl
  | cons c w ih =>
    rw [List.all_cons, Bool.and_eq_true] at hw
    by_cases hc : c = '\n'
    · have hm : munch ('\n' :: (w ++ rest)) = some (.newline, w ++ rest) := rfl
      rw [hc, List.cons_append, scanFrom_newline line hm, ih hw.2, List.count_cons_self,
        Nat.add_assoc, Nat.add_comm 1]
    · have hb : isBlank c = true := by simpa [isSpacing, hc] using hw.1
      rw [List.cons_append, scanFrom_blank hb, ih hw.2, List.count_cons_of_ne hc]

theorem Result.cons_eq_iff {r : Result} {l l' : Lexeme} {ls : List Lexeme} :
    r.cons l = ⟨l' :: ls, none⟩ ↔ l = l' ∧ r = ⟨ls, none⟩ := by
  cases r
  simp [Result.cons, and_assoc]

/-- The text of tokens begins with the first of them and goes on with no part of a word. -/
theorem exists_spread (hlen : gaps.length = ts.length) :
    ∃ more, spread (u :: ts) gaps = u.written.toList ++ more ∧
      ∀ c ∈ more.head?, isWordChar c = false := by
  cases gaps with
  | nil =>
    cases List.length_eq_zero_iff.mp hlen.symm
    exact ⟨[], rfl, by simp⟩
  | cons g gaps => exact ⟨_, rfl, fun c hc => (g.stops _ c hc).1⟩

theorem scanFrom_spread_iff (hts : ∀ t ∈ ts, t.wellFormed = true)
    (hlen : gaps.length = ts.length - 1) (line : Nat) :
    scanFrom line (spread ts gaps) =
        ⟨ts.mapIdx fun i t => ⟨t, line + ((gaps.take i).flatMap Gap.chars).count '\n'⟩, none⟩ ↔
      unfused ts gaps = true := by
  -- along `unfused`: two tokens with a gap between them, or at most one token
  fun_induction unfused ts gaps generalizing line with
  | case1 t u ts g gaps ih =>
    have hrest : ∀ t ∈ u :: ts, t.wellFormed = true := fun t ht => hts t (List.mem_cons_of_mem _ ht)
    simp only [List.length_cons, Nat.add_sub_cancel, Nat.add_right_cancel_iff] at hlen
    obtain ⟨more, hspread, hm⟩ := exists_spread (u := u) hlen
    rw [spread, List.mapIdx_cons]
    cases hf : fuses t g u with
    | true =>
      obtain ⟨hne, rest, hmunch⟩ := munch_fused more hf
      rw [hspread, scanFrom_token line hmunch, Result.cons_eq_iff]
      simp [hne.symm]
    | false =>
      have hmunch := munch_gap (hts t List.mem_cons_self) (hrest u List.mem_cons_self) hm hf
      rw [← hspread] at hmunch
      rw [scanFrom_token line hmunch, Result.cons_eq_iff, scanFrom_spacing g.spacing]
      simp only [List.take_zero, List.flatMap_nil, List.count_nil, Nat.add_zero, true_and,
        List.take_succ_cons, List.flatMap_cons, List.count_append, ← Nat.add_assoc]
      rw [ih hrest hlen, Bool.not_false, Bool.true_and]
  | case2 ts gaps hne =>
    refine iff_of_true ?_ rfl
    rcases ts with _ | ⟨t, _ | ⟨u, ts⟩⟩
    · exact scanFrom_stuck line rfl
    · cases List.length_eq_zero_iff.mp hlen
      have hmunch := munch_written (hts t List.mem_cons_self) parted_nil
      rw [spread, spread, scanFrom_token line hmunch, scanFrom_stuck line rfl]
      rfl
    · obtain ⟨g, gaps', hg⟩ := List.exists_cons_of_length_eq_add_one hlen
      exact (hne t u ts g gaps' rfl hg).elim

end Bhasha.Scan

namespace Bhasha

open Scan

/-- Tokens that the scanner can produce come back from any spacing, each on the line that the line
breaks before it lead to, exactly if no single blank makes `he aahe` of two names. -/
theorem scan_spread_iff {ts : List Token} {gaps : List Gap}
    (hts : ∀ t ∈ ts, t.wellFormed = true) (hlen : gaps.length = ts.length - 1) :
    scan (String.ofList (spread ts gaps)) =
        .ok (ts.mapIdx fun i t => ⟨t, 1 + ((gaps.take i).flatMap Gap.chars).count '\n'⟩) ↔
      unfused ts gaps = true := by
  rw [scan_eq_ok_iff, scanAll, String.toList_ofList]
  exact scanFrom_spread_iff hts hlen 1

/-- Two names, two divisions and a number: a blank more between the names keeps them apart. -/
theorem scan_spread_iff_names :
    let ts : List Token := [.identifier "He", .identifier "aahex", .operator .div, .operator .div,
      .number "007"]
    let blank : Gap := ⟨[' '], by decide, by decide⟩
    let blanks : Gap := ⟨[' ', ' '], by decide, by decide⟩
    let line : Gap := ⟨['\r', '\n'], by decide, by decide⟩
    let expected : List Lexeme := [⟨.identifier "He", 1⟩, ⟨.identifier "aahex", 1⟩,
      ⟨.operator .div, 2⟩, ⟨.operator .div, 2⟩, ⟨.number "007", 3⟩]
    (∀ t ∈ ts, t.wellFormed = true) ∧
      unfused ts [blanks, line, blank, line] = true ∧
      scan "He  aahex\r\n/ /\r\n007" = .ok expected ∧
      unfused ts [blank, line, blank, line] = false ∧
      scan "He aahex\r\n/ /\r\n007" ≠ .ok expected := by
  intro ts blank blanks line expected
  have hts : ∀ t ∈ ts, t.wellFormed = true := by decide +kernel
  have hapart : unfused ts [blanks, line, blank, line] = true := by decide +kernel
  have hfused : unfused ts [blank, line, blank, line] = false := by decide +kernel
  have hwide : "He  aahex\r\n/ /\r\n007" =
      String.ofList (spread ts [blanks, line, blank, line]) := by decide +kernel
  have hnarrow : "He aahex\r\n/ /\r\n007" =
      String.ofList (spread ts [blank, line, blank, line]) := by decide +kernel
  refine ⟨hts, hapart, ?_, hfused, fun h => ?_⟩
  · rw [hwide]
    exact (scan_spread_iff hts rfl).mpr hapart
  · rw [hnarrow] at h
    cases hfused.symm.trans ((scan_spread_iff hts rfl).mp h)

end Bhasha
