import Bhasha.Proofs.Scan.Rules
import Bhasha.Proofs.Scan.Written
import Mathlib.Logic.ExistsUnique

/-! The scanner cuts a text exactly as its rules say. One step of the scanner is the longest match
(`munch_eq_some_iff`) and gives up only where no rule matches (`munch_eq_none_iff`), so the tokens
of a text, their lines and its first fault are those of the one cut that the rules allow. -/

namespace Bhasha.Scan

open Text

variable {s w rest : List Char} {p : Piece}

theorem eq_space_of_foldCase (c : Char) : foldCase c = ' ' → c = ' ' := by
  induction c using foldCase_cases with
  | ascii n hn =>
    revert n
    decide +kernel
  | kelvin => decide
  | longS => decide
  | same c _ hc => exact fun h => hc.symm.trans h

theorem isLetter_of_foldCase (c : Char) : (foldCase c).isLower = true → isLetter c = true := by
  induction c using foldCase_cases with
  | ascii n hn =>
    revert n
    decide +kernel
  | kelvin => decide +kernel
  | longS => decide +kernel
  | same c hge hc =>
    intro h
    rw [hc] at h
    have hz := of_decide_eq_true (Bool.and_eq_true_iff.mp h).2
    have hz : c.toNat ≤ 122 := UInt32.le_iff_toNat_le.mp hz
    omega

theorem length_of_fold {v : List Char} (h : fold w = v) : w.length = v.length := by
  rw [← h, fold, List.length_map]

/-- A text that folds to letters is a word. -/
theorem word_of_fold (hn : w ≠ []) (h : (fold w).all Char.isLower = true) :
    ∃ c v, w = c :: v ∧ isLetter c = true ∧ v.all isWordChar = true := by
  cases w with
  | nil => contradiction
  | cons c v =>
    simp only [fold, List.map_cons, List.all_cons, Bool.and_eq_true, List.all_map,
      List.all_eq_true] at h
    refine ⟨c, v, rfl, isLetter_of_foldCase c h.1, List.all_eq_true.mpr fun d hd => ?_⟩
    simp [isWordChar, isLetter_of_foldCase d (h.2 d hd)]

theorem wordKeyword_letters : ∀ k ∈ Token.wordKeywords,
    k.lexeme.toList ≠ [] ∧ k.lexeme.toList.all Char.isLower = true ∧
      k.lexeme.toList ≠ ['h', 'e'] := by
  decide

theorem wordToken_of_fold {k : Token} (hk : k ∈ Token.wordKeywords)
    (h : fold w = k.lexeme.toList) : wordToken w = k := by
  have hfind : ∀ k ∈ Token.wordKeywords,
      (Token.wordKeywords.find? fun k' => k'.lexeme.toList = k.lexeme.toList) = some k := by
    decide
  rw [wordToken, h, hfind k hk]

theorem keyword_lexeme_inj : ∀ k ∈ keywords, ∀ k' ∈ keywords,
    k.lexeme.toList = k'.lexeme.toList → k = k' := by
  decide

theorem isDeclare_iff : isDeclare w rest = true ↔ fold w = ['h', 'e'] ∧
    ∃ tail more, rest = ' ' :: (tail ++ more) ∧ fold tail = ['a', 'a', 'h', 'e'] := by
  unfold isDeclare
  rw [Bool.and_eq_true, decide_eq_true_eq]
  refine and_congr_right fun _ => ?_
  split
  · next r =>
    rw [decide_eq_true_eq]
    constructor
    · intro h
      exact ⟨r.take 4, r.drop 4, by rw [List.take_append_drop], h⟩
    · rintro ⟨tail, more, he, h⟩
      cases he
      have hl : tail.length = 4 := length_of_fold h
      rwa [← hl, List.take_left]
  · next hne =>
    constructor
    · intro h
      cases h
    · rintro ⟨tail, more, he, -⟩
      exact absurd he (hne _)

/-- The two words of `he aahe` and the blank between them. -/
theorem fold_eq_declare (h : fold w = Token.declare.lexeme.toList) :
    ∃ word tail, w = word ++ ' ' :: tail ∧ fold word = ['h', 'e'] ∧
      fold tail = ['a', 'a', 'h', 'e'] := by
  have h : w.map foldCase = ['h', 'e'] ++ ' ' :: ['a', 'a', 'h', 'e'] := h
  obtain ⟨word, more, rfl, hword, hmore⟩ := List.map_eq_append_iff.mp h
  obtain ⟨c, tail, rfl, hc, htail⟩ := List.map_eq_cons_iff.mp hmore
  exact ⟨word, tail, by rw [eq_space_of_foldCase c hc], hword, htail⟩

theorem rule_declare {word tail : List Char} (hw : fold word = ['h', 'e'])
    (ht : fold tail = ['a', 'a', 'h', 'e']) : Rule (word ++ ' ' :: tail) (.token .declare) := by
  refine .keyword (by decide) ?_
  rw [fold, List.map_append, List.map_cons, ← fold, ← fold, hw, ht]
  rfl

theorem Longest.not_prefix {more : List Char} {p' : Piece} (h : Longest s w p rest)
    (hn : more ≠ []) (hr : Rule (w ++ more) p') : ¬ more <+: rest := by
  intro hm
  have hpre : w ++ more <+: s := by
    rw [h.split]
    exact (List.prefix_append_right_inj w).mpr hm
  have := h.longest hr hpre
  have := List.length_pos_iff.mpr hn
  simp only [List.length_append] at *
  omega

theorem Longest.stops (h : Longest s w p rest) :
    ∀ d ∈ rest.head?, ∀ p', ¬ Rule (w ++ [d]) p' := by
  intro d hd p' hr
  obtain ⟨rest', rfl⟩ := List.head?_eq_some_iff.mp hd
  exact h.not_prefix (by simp) hr ⟨rest', rfl⟩

theorem Longest.head {q : Char → Bool} (h : Longest s w p rest)
    (hq : ∀ d, q d = true → ∃ p', Rule (w ++ [d]) p') : ∀ d ∈ rest.head?, q d = false := by
  intro d hd
  rw [Bool.eq_false_iff]
  intro hqd
  obtain ⟨p', hr⟩ := hq d hqd
  exact h.stops d hd p' hr

theorem all_snoc {q : Char → Bool} {d : Char} (hw : w.all q = true) (hd : q d = true) :
    (w ++ [d]).all q = true := by
  simp [hw, hd]

theorem munch_blanks (hn : w ≠ []) (hw : w.all isBlank = true)
    (hr : ∀ d ∈ rest.head?, isBlank d = false) : munch (w ++ rest) = some (.gap, rest) := by
  cases w with
  | nil => contradiction
  | cons c w =>
    rw [List.all_cons, Bool.and_eq_true] at hw
    rw [List.cons_append, munch_blank hw.1, (takeWhile_append_stop hw.2 hr).2]

theorem munch_comment (hw : w.all isComment = true) (hr : ∀ d ∈ rest.head?, isComment d = false) :
    munch ('/' :: '/' :: w ++ rest) = some (.gap, rest) := by
  simp only [List.cons_append, munch, (takeWhile_append_stop hw hr).2]

theorem munch_declare {word tail : List Char} (hw : fold word = ['h', 'e'])
    (ht : fold tail = ['a', 'a', 'h', 'e']) :
    munch (word ++ ' ' :: (tail ++ rest)) = some (.token .declare, rest) := by
  obtain ⟨c, v, rfl, hc, hv⟩ := word_of_fold (w := word) (by rintro rfl; cases hw) (by rw [hw]; rfl)
  have hl : tail.length = 4 := length_of_fold ht
  have hstop : ∀ d ∈ (' ' :: (tail ++ rest)).head?, isWordChar d = false := by
    rintro d ⟨⟩
    rfl
  obtain ⟨htake, hdrop⟩ := takeWhile_append_stop hv hstop
  have hd : isDeclare (c :: v) (' ' :: (tail ++ rest)) = true :=
    isDeclare_iff.mpr ⟨hw, tail, rest, rfl, ht⟩
  rw [List.cons_append, munch_letter hc, htake, hdrop, if_pos hd, List.drop_succ_cons, ← hl,
    List.drop_left]

theorem operator_mem_symbols (op : Operator) : .operator op ∈ symbols := by
  cases op <;> decide

/-- The operators that a second character could lengthen are `=`, `<`, `>` and `/`. -/
theorem munch_symbol {t : Token} (ht : t ∈ symbols)
    (hr : ∀ d ∈ rest.head?, ∀ p', ¬ Rule (t.lexeme.toList ++ [d]) p') :
    munch (t.lexeme.toList ++ rest) = some (.token t, rest) := by
  cases t with
  | operator op =>
    cases rest with
    | nil => exact munch_operator op (by simp)
    | cons d rest =>
      have hop (two : Operator) : op.text.toList ++ [d] ≠ two.text.toList := by
        intro he
        refine hr d rfl (.token (.operator two)) ?_
        rw [Token.lexeme, he]
        exact .symbol (operator_mem_symbols two)
      cases op with
      | assign =>
        have hd : d ≠ '=' := by rintro rfl; exact hop .equal rfl
        simp [Token.lexeme, Operator.text, munch, symbol, isBlank, isLetter, hd]
      | less =>
        have hd : d ≠ '=' := by rintro rfl; exact hop .lessEqual rfl
        simp [Token.lexeme, Operator.text, munch, symbol, isBlank, isLetter, hd]
      | greater =>
        have hd : d ≠ '=' := by rintro rfl; exact hop .greaterEqual rfl
        simp [Token.lexeme, Operator.text, munch, symbol, isBlank, isLetter, hd]
      | div =>
        have hd : d ≠ '/' := by rintro rfl; exact hr _ rfl _ (.comment (w := []) rfl)
        simp [Token.lexeme, Operator.text, munch, symbol, isBlank, isLetter, hd]
      | _ => rfl
  | leftParen | rightParen | leftBrace | rightBrace | semicolon | comma => rfl
  | _ => simp [symbols] at ht

theorem Longest.munch (h : Longest s w p rest) : munch s = some (p, rest) := by
  obtain rfl := h.split
  have hrule := h.rule
  cases hrule with
  | newline => rfl
  | blanks hn hw =>
    exact munch_blanks hn hw (h.head fun d hd => ⟨_, .blanks (by simp) (all_snoc hw hd)⟩)
  | comment hw =>
    exact munch_comment hw (h.head fun d hd => ⟨_, .comment (all_snoc hw hd)⟩)
  | @keyword _ k hk hw =>
    rcases List.mem_cons.mp hk with rfl | hk
    · obtain ⟨word, tail, rfl, hword, htail⟩ := fold_eq_declare hw
      rw [List.append_assoc, List.cons_append]
      exact munch_declare hword htail
    · obtain ⟨hn, ha, hne⟩ := wordKeyword_letters k hk
      obtain ⟨c, v, rfl, hc, hv⟩ := word_of_fold (w := w) (by rintro rfl; exact hn hw.symm)
        (hw ▸ ha)
      have hstop := h.head fun d hd => ⟨_, .identifier hc (all_snoc hv hd)⟩
      rw [munch_word hc hv hstop (by simp [isDeclare, hw, hne]), wordToken_of_fold hk hw]
  | string hw =>
    rw [List.append_assoc]
    exact munch_string hw rest
  | number hn hw =>
    exact munch_number hw hn (h.head fun d hd => ⟨_, .number (by simp) (all_snoc hw hd)⟩)
  | @identifier c v hc hv =>
    have hstop := h.head fun d hd => ⟨_, .identifier hc (all_snoc hv hd)⟩
    have hd : isDeclare (c :: v) rest = false := by
      rw [Bool.eq_false_iff]
      intro hd
      obtain ⟨hfold, tail, more, rfl, htail⟩ := isDeclare_iff.mp hd
      exact h.not_prefix (by simp) (rule_declare hfold htail) ⟨more, rfl⟩
    have hname : isName (c :: v) = true := by
      simp only [isName, hc, hv, Bool.true_and, List.all_eq_true, decide_eq_true_eq]
      intro k hk he
      cases h.keyword k (List.mem_cons_of_mem _ hk) he.symm
      simp [Token.wordKeywords] at hk
    rw [munch_word hc hv hstop hd, wordToken_of_isName hname]
  | symbol ht =>
    exact munch_symbol ht h.stops

theorem rule_of_symbol {t : Token} (h : symbol s = some (t, rest)) :
    ∃ w, s = w ++ rest ∧ Rule w (.token t) := by
  have hs : t ∈ symbols ∧ s = t.lexeme.toList ++ rest := by
    unfold symbol at h
    split at h <;> cases h <;> exact ⟨by decide, rfl⟩
  exact ⟨_, hs.2, .symbol hs.1⟩

theorem rule_of_word {c : Char} {v : List Char} (hc : isLetter c = true)
    (hv : v.all isWordChar = true) : Rule (c :: v) (.token (wordToken (c :: v))) := by
  unfold wordToken
  split
  · next k hk =>
    have hfold := List.find?_some hk
    rw [decide_eq_true_eq] at hfold
    exact .keyword (List.mem_cons_of_mem _ (List.mem_of_find?_eq_some hk)) hfold.symm
  · exact .identifier hc hv

theorem cons_eq_takeWhile_append (q : Char → Bool) (c : Char) (r : List Char) :
    c :: r = c :: r.takeWhile q ++ r.dropWhile q := by
  rw [List.cons_append, List.takeWhile_append_dropWhile]

theorem rule_of_munch (h : munch s = some (p, rest)) : ∃ w, s = w ++ rest ∧ Rule w p := by
  unfold Scan.munch at h
  split at h
  · cases h
  · cases h
    exact ⟨_, rfl, .newline⟩
  · next r =>
    cases h
    exact ⟨_, congrArg ('/' :: ·) (cons_eq_takeWhile_append isComment '/' r),
      .comment List.all_takeWhile⟩
  · next r =>
    split at h
    · next after hr =>
      cases h
      refine ⟨'"' :: r.takeWhile isQuotable ++ ['"'], ?_, .string List.all_takeWhile⟩
      rw [List.append_assoc, List.singleton_append, ← hr]
      exact cons_eq_takeWhile_append isQuotable '"' r
    · cases h
  · next c r _ _ _ =>
    split at h
    · next hb =>
      cases h
      refine ⟨_, cons_eq_takeWhile_append isBlank c r, .blanks (by simp) ?_⟩
      simp [hb, List.all_takeWhile]
    split at h
    · next hd =>
      cases h
      refine ⟨_, cons_eq_takeWhile_append Char.isDigit c r, .number (by simp) ?_⟩
      simp [hd, List.all_takeWhile]
    split at h
    · next hc =>
      have hword := cons_eq_takeWhile_append isWordChar c r
      dsimp only at h
      split at h
      · next hd =>
        -- The match goes on over the blank and the second word.
        cases h
        obtain ⟨hfold, tail, more, hafter, htail⟩ := isDeclare_iff.mp hd
        have hl : tail.length = 4 := length_of_fold htail
        have hdrop : (r.dropWhile isWordChar).drop 5 = more := by
          rw [hafter, List.drop_succ_cons, ← hl, List.drop_left]
        refine ⟨_, ?_, rule_declare hfold htail⟩
        rw [hdrop, List.append_assoc]
        rw [hafter] at hword
        exact hword
      · cases h
        exact ⟨_, hword, rule_of_word hc List.all_takeWhile⟩
    · obtain ⟨⟨t, rest⟩, ht, he⟩ := Option.map_eq_some_iff.mp h
      cases he
      exact rule_of_symbol ht

/-- A match can be lengthened to a longest one. -/
theorem exists_longest {w : List Char} {p : Piece} (hr : Rule w p) (hp : w <+: s) :
    ∃ w p rest, Longest s w p rest := by
  by_cases hlonger : ∃ w' p', Rule w' p' ∧ w' <+: s ∧ w.length < w'.length
  · obtain ⟨w', p', hr', hp', hlt⟩ := hlonger
    have := hp'.length_le
    exact exists_longest hr' hp'
  · have hmax : ∀ {w' p'}, Rule w' p' → w' <+: s → w'.length ≤ w.length := by
      intro w' p' hr' hp'
      exact Nat.le_of_not_lt fun hlt => hlonger ⟨w', p', hr', hp', hlt⟩
    obtain ⟨rest, rfl⟩ := hp
    by_cases hk : ∃ k ∈ keywords, fold w = k.lexeme.toList
    · obtain ⟨k, hk, hw⟩ := hk
      refine ⟨w, .token k, rest, rfl, .keyword hk hw, hmax, fun k' hk' hw' => ?_⟩
      rw [keyword_lexeme_inj k hk k' hk' (hw.symm.trans hw')]
    · exact ⟨w, p, rest, rfl, hr, hmax, fun k hk' hw => absurd ⟨k, hk', hw⟩ hk⟩
termination_by s.length - w.length

theorem munch_eq_some_iff : munch s = some (p, rest) ↔ ∃ w, Longest s w p rest := by
  constructor
  · intro h
    obtain ⟨w, hs, hr⟩ := rule_of_munch h
    obtain ⟨w', p', rest', hl⟩ := exists_longest hr ⟨rest, hs.symm⟩
    have he := hl.munch
    rw [h] at he
    cases he
    exact ⟨w', hl⟩
  · rintro ⟨w, h⟩
    exact h.munch

theorem munch_eq_none_iff : munch s = none ↔ Unmatched s := by
  constructor
  · intro h w p hr hp
    obtain ⟨w', p', rest, hl⟩ := exists_longest hr hp
    rw [hl.munch] at h
    cases h
  · intro h
    rw [Option.eq_none_iff_forall_ne_some]
    rintro ⟨p, rest⟩ hm
    obtain ⟨w, hs, hr⟩ := rule_of_munch hm
    exact h hr ⟨rest, hs.symm⟩

theorem Longest.unique {w' rest' : List Char} {p' : Piece} (h : Longest s w p rest)
    (h' : Longest s w' p' rest') : w = w' ∧ p = p' ∧ rest = rest' := by
  have he := h.munch.symm.trans h'.munch
  cases he
  exact ⟨List.append_cancel_right (h.split.symm.trans h'.split), rfl, rfl⟩

theorem newline_notMem {q : Char → Bool} (hw : w.all q = true) (hq : q '\n' = false) :
    '\n' ∉ w := by
  intro hm
  have := List.all_eq_true.mp hw _ hm
  rw [hq] at this
  cases this

/-- How many line breaks a piece of this kind holds. -/
def Piece.breaks : Piece → Nat
  | .newline => 1
  | _ => 0

theorem Rule.count_newline (h : Rule w p) : w.count '\n' = p.breaks := by
  cases h with
  | newline => rfl
  | blanks _ hw => exact List.count_eq_zero.mpr (newline_notMem hw rfl)
  | comment hw => exact List.count_eq_zero.mpr (by simp [newline_notMem hw rfl])
  | @keyword _ k hk hw =>
    refine List.count_eq_zero.mpr fun hm => ?_
    have hmem : foldCase '\n' ∈ k.lexeme.toList := hw ▸ List.mem_map_of_mem hm
    have hnone : ∀ k ∈ keywords, foldCase '\n' ∉ k.lexeme.toList := by decide
    exact hnone k hk hmem
  | string hw => exact List.count_eq_zero.mpr (by simp [newline_notMem hw rfl])
  | number _ hw => exact List.count_eq_zero.mpr (newline_notMem hw rfl)
  | identifier hc hv =>
    refine List.count_eq_zero.mpr fun hm => ?_
    rcases List.mem_cons.mp hm with rfl | hm
    · cases hc
    · exact newline_notMem hv rfl hm
  | @symbol t ht =>
    have hnone : ∀ t ∈ symbols, '\n' ∉ t.lexeme.toList := by decide
    exact List.count_eq_zero.mpr (hnone t ht)

theorem lineAfter_append (h : Rule w p) (before : List Char) :
    lineAfter (before ++ w) = lineAfter before + p.breaks := by
  rw [lineAfter, List.count_append, h.count_newline, ← Nat.add_assoc, lineAfter]

theorem exists_cut (s : List Char) : ∃ segments rest, Cut s segments rest ∧ Unmatched rest := by
  cases hm : munch s with
  | none => exact ⟨[], s, .done, munch_eq_none_iff.mp hm⟩
  | some step =>
    obtain ⟨p, mid⟩ := step
    have := munch_shorter hm
    obtain ⟨w, hl⟩ := munch_eq_some_iff.mp hm
    obtain ⟨segments, rest, hc, hr⟩ := exists_cut mid
    exact ⟨_, rest, .next hl hc, hr⟩
termination_by s.length

theorem Cut.text_eq {segments : List Segment} (h : Cut s segments []) :
    segments.flatMap Segment.text = s := by
  generalize hr : ([] : List Char) = rest at h
  induction h with
  | done => exact hr
  | next hl _ ih => rw [List.flatMap_cons, ih hr, hl.split]

theorem Cut.unique {segments segments' : List Segment} {rest' : List Char}
    (h : Cut s segments rest) (hr : Unmatched rest) (h' : Cut s segments' rest')
    (hr' : Unmatched rest') : segments = segments' ∧ rest = rest' := by
  induction h generalizing segments' with
  | done =>
    cases h' with
    | done => exact ⟨rfl, rfl⟩
    | next hl _ => exact absurd ⟨_, hl.split.symm⟩ (hr hl.rule)
  | next hl _ ih =>
    cases h' with
    | done => exact absurd ⟨_, hl.split.symm⟩ (hr' hl.rule)
    | next hl' hc' =>
      obtain ⟨rfl, rfl, rfl⟩ := hl.unique hl'
      obtain ⟨rfl, rfl⟩ := ih hr hc'
      exact ⟨rfl, rfl⟩

theorem scanFrom_cut {segments : List Segment} (h : Cut s segments rest) (hr : Unmatched rest)
    (before : List Char) :
    scanFrom (lineAfter before) s = ⟨lexemesAfter before segments,
      rest.head?.map (faultAt · (lineAfter (before ++ segments.flatMap Segment.text)))⟩ := by
  induction h generalizing before with
  | done =>
    rw [scanFrom_stuck _ (munch_eq_none_iff.mpr hr), List.flatMap_nil, List.append_nil]
    rfl
  | @next s w mid rest p segments hl _ ih =>
    have hline := lineAfter_append hl.rule before
    have hrest := ih hr (before ++ w)
    rw [hline] at hrest
    rw [List.flatMap_cons, ← List.append_assoc]
    cases p with
    | newline => exact (scanFrom_newline _ hl.munch).trans hrest
    | gap => exact (scanFrom_gap _ hl.munch).trans hrest
    | token t => exact (scanFrom_token _ hl.munch).trans (congrArg (Result.cons _) hrest)

end Bhasha.Scan

namespace Bhasha

open Scan

variable {source : String} {segments : List Segment} {rest : List Char}

theorem scan_eq_of_cut (h : Cut source.toList segments rest) (hr : Unmatched rest) :
    scan source =
      match rest.head? with
      | none => .ok (lexemesAfter [] segments)
      | some c => .error (faultAt c (lineAfter (segments.flatMap Segment.text))) := by
  have hs : scanAll source = _ := scanFrom_cut h hr []
  rw [scan, hs]
  cases rest <;> rfl

/-- The rules cut a text in one way only. It is scanned exactly if they cut all of it, and then its
tokens are those of the cut; otherwise the error is at the first place where no rule matches. -/
theorem scan_cuts_longest (source : String) :
    (∃! cut : List Segment × List Char, Cut source.toList cut.1 cut.2 ∧ Unmatched cut.2) ∧
      (∀ ts, scan source = .ok ts ↔
        ∃ segments, Cut source.toList segments [] ∧ ts = lexemesAfter [] segments) ∧
      ∀ e, scan source = .error e ↔
        ∃ segments c rest, Cut source.toList segments (c :: rest) ∧ Unmatched (c :: rest) ∧
          e = if c = '"' then .unterminatedString (lineAfter (segments.flatMap Segment.text))
            else .unexpectedCharacter c (lineAfter (segments.flatMap Segment.text)) := by
  obtain ⟨segments, rest, hc, hr⟩ := exists_cut source.toList
  have hscan := scan_eq_of_cut hc hr
  refine ⟨⟨(segments, rest), ⟨hc, hr⟩, ?_⟩, fun ts => ⟨fun h => ?_, ?_⟩, fun e => ⟨fun h => ?_, ?_⟩⟩
  · rintro ⟨segments', rest'⟩ ⟨hc', hr'⟩
    obtain ⟨rfl, rfl⟩ := hc'.unique hr' hc hr
    rfl
  · rw [h] at hscan
    cases rest with
    | nil => cases hscan; exact ⟨segments, hc, rfl⟩
    | cons c rest => cases hscan
  · rintro ⟨segments, hc, rfl⟩
    exact scan_eq_of_cut hc (munch_eq_none_iff.mp rfl)
  · rw [h] at hscan
    cases rest with
    | nil => cases hscan
    | cons c rest => cases hscan; exact ⟨segments, c, rest, hc, hr, rfl⟩
  · rintro ⟨segments, c, rest, hc, hr, rfl⟩
    exact scan_eq_of_cut hc hr

end Bhasha
