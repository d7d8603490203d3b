import Bhasha.Proofs.Scan.MaximalMunch

/-! Keywords and the words of a text. A keyword of one word is the whole of a word there, since an
identifier would match further (`Longest.wholeWord`). The keyword `he aahe` holds a blank, which no
identifier does, so nothing matches further and its second word may be the beginning of a longer
one (`longest_declare`). -/

namespace Bhasha.Scan

open Text

/-- A letter with letters and digits after it, where the text does not go on with another one. -/
structure WholeWord (w after : List Char) : Prop where
  word : ∃ c v, w = c :: v ∧ isLetter c = true ∧ v.all isWordChar = true
  ends : ∀ c ∈ after.head?, isWordChar c = false

variable {s w rest : List Char} {k : Token}

theorem Rule.fold_keyword (h : Rule w (.token k)) (hk : k ∈ keywords) :
    fold w = k.lexeme.toList := by
  cases h with
  | keyword _ hw => exact hw
  | symbol ht =>
    have hnone : ∀ t ∈ symbols, t ∉ keywords := by decide
    exact absurd hk (hnone k ht)
  | string | number | identifier => simp [keywords, Token.wordKeywords] at hk

theorem Longest.wholeWord (h : Longest s w (.token k) rest) (hk : k ∈ Token.wordKeywords) :
    WholeWord w rest := by
  have hw := h.rule.fold_keyword (List.mem_cons_of_mem _ hk)
  obtain ⟨hn, ha, -⟩ := wordKeyword_letters k hk
  obtain ⟨c, v, rfl, hc, hv⟩ := word_of_fold (w := w) (by rintro rfl; exact hn hw.symm) (hw ▸ ha)
  refine ⟨⟨c, v, rfl, hc, hv⟩, h.head fun d hd => ?_⟩
  exact ⟨_, .identifier hc (all_snoc hv hd)⟩

/-- The first word of `he aahe` is a whole word. -/
theorem Longest.declare_words (h : Longest s w (.token .declare) rest) :
    ∃ first second, w = first ++ ' ' :: second ∧ fold first = ['h', 'e'] ∧
      fold second = ['a', 'a', 'h', 'e'] ∧ WholeWord first (' ' :: (second ++ rest)) := by
  have hw := h.rule.fold_keyword (by decide)
  obtain ⟨first, second, rfl, hfirst, hsecond⟩ := fold_eq_declare hw
  refine ⟨first, second, rfl, hfirst, hsecond, ?_, ?_⟩
  · exact word_of_fold (by rintro rfl; cases hfirst) (by rw [hfirst]; rfl)
  · rintro c ⟨⟩
    rfl

theorem longest_declare {first second : List Char} (hfirst : fold first = ['h', 'e'])
    (hsecond : fold second = ['a', 'a', 'h', 'e']) (more : List Char) :
    Longest (first ++ ' ' :: second ++ more) (first ++ ' ' :: second) (.token .declare) more := by
  have hm : munch (first ++ ' ' :: second ++ more) = some (.token .declare, more) := by
    rw [List.append_assoc, List.cons_append]
    exact munch_declare hfirst hsecond
  obtain ⟨w, hl⟩ := munch_eq_some_iff.mp hm
  obtain rfl : first ++ ' ' :: second = w := List.append_cancel_right hl.split
  exact hl

/-- What was cut off at one place is the longest match in the text from there on. -/
theorem Cut.longest {pre post : List Segment} {p : Piece}
    (h : Cut s (pre ++ ⟨p, w⟩ :: post) []) :
    Longest (w ++ post.flatMap Segment.text) w p (post.flatMap Segment.text) := by
  induction pre generalizing s with
  | nil =>
    cases h with
    | next hl hc =>
      rw [hc.text_eq, ← hl.split]
      exact hl
  | cons segment pre ih =>
    cases h with
    | next _ hc => exact ih hc

end Bhasha.Scan

namespace Bhasha

open Scan

/-- A keyword of one word is a whole word of the text. Of `he aahe` only the first word is one: the
keyword is recognised whatever follows its second word. -/
theorem keywords_whole_but_declare {source : String} {ts : List Lexeme}
    (h : scan source = .ok ts) :
    (∃ segments, Cut source.toList segments [] ∧ ts = lexemesAfter [] segments ∧
      ∀ pre k w post, segments = pre ++ ⟨.token k, w⟩ :: post → k ∈ keywords →
        let after := post.flatMap Segment.text
        (k ≠ .declare → WholeWord w after) ∧
          (k = .declare → ∃ first second, w = first ++ ' ' :: second ∧ fold first = ['h', 'e'] ∧
            fold second = ['a', 'a', 'h', 'e'] ∧ WholeWord first (' ' :: (second ++ after)))) ∧
      ∀ first second more, fold first = ['h', 'e'] → fold second = ['a', 'a', 'h', 'e'] →
        Longest (first ++ ' ' :: second ++ more) (first ++ ' ' :: second) (.token .declare)
          more := by
  obtain ⟨segments, rest, hc, hr⟩ := exists_cut source.toList
  have hscan := scan_eq_of_cut hc hr
  rw [h] at hscan
  cases rest with
  | cons c rest => cases hscan
  | nil =>
    cases hscan
    refine ⟨⟨segments, hc, rfl, ?_⟩, fun first second more hf hs => longest_declare hf hs more⟩
    rintro pre k w post rfl hk
    refine ⟨fun hne => ?_, ?_⟩
    · exact hc.longest.wholeWord ((List.mem_cons.mp hk).resolve_left hne)
    · rintro rfl
      exact hc.longest.declare_words

/-- The letter after `he aahe` is no part of the keyword and begins a name; `JAR` stands alone. -/
theorem keywords_whole_but_declare_joined :
    scan "He aahex JAR" = .ok [⟨.declare, 1⟩, ⟨.identifier "x", 1⟩, ⟨.cond, 1⟩] ∧
      Text.isWordChar 'x' = true ∧
      Longest "He aahex JAR".toList "He aahe".toList (.token .declare) "x JAR".toList ∧
      ∃ segments, Cut "He aahex JAR".toList segments [] ∧
        ∀ pre w post, segments = pre ++ ⟨.token .cond, w⟩ :: post →
          WholeWord w (post.flatMap Segment.text) := by
  have hdeclare : munch "He aahex JAR".toList = some (.token .declare, "x JAR".toList) := rfl
  have hname : munch "x JAR".toList = some (.token (.identifier "x"), " JAR".toList) := rfl
  have hgap : munch " JAR".toList = some (.gap, "JAR".toList) := rfl
  have hcond : munch "JAR".toList = some (.token .cond, []) := rfl
  have hscan : scan "He aahex JAR" = .ok [⟨.declare, 1⟩, ⟨.identifier "x", 1⟩, ⟨.cond, 1⟩] := by
    rw [scan_eq_ok_iff, scanAll, scanFrom_token 1 hdeclare, scanFrom_token 1 hname,
      scanFrom_gap 1 hgap, scanFrom_token 1 hcond, scanFrom_stuck 1 rfl]
    rfl
  obtain ⟨⟨segments, hcut, -, hwords⟩, hjoined⟩ := keywords_whole_but_declare hscan
  refine ⟨hscan, rfl, hjoined ['H', 'e'] ['a', 'a', 'h', 'e'] "x JAR".toList rfl rfl, segments, hcut,
    fun pre w post hs => ?_⟩
  exact (hwords pre .cond w post hs (by decide)).1 (by decide)

end Bhasha
