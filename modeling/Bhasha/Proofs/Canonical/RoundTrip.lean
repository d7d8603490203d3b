import Bhasha.Proofs.Canonical.Legible
import Bhasha.Proofs.Grammar.Sound
import Bhasha.Report
import Mathlib

/-! The canonical text of a program reads back as that program exactly if the tree is one that a
text can describe. Such are all trees read from a text, so a text and the canonical text of its
program run alike. -/

namespace Bhasha

open Grammar

variable {source : String} {ts : List Lexeme} {b : Block}

theorem readProgram_eq_ok :
    readProgram source = .ok b ↔ ∃ ts, scan source = .ok ts ∧ parse ts = .ok b := by
  unfold readProgram
  split
  · next hs => simp [hs]
  · next ts hs => split <;> next hp => simp [hs, hp]

theorem wellFormed_of_parse (hs : scan source = .ok ts) (hp : parse ts = .ok b) :
    b.wellFormed = true := by
  refine Program.wellFormed ((parse_eq_ok_iff b).mp hp) fun t ht => ?_
  obtain ⟨l, hl, rfl⟩ := List.mem_map.mp ht
  exact scan_wellFormed hs l hl

theorem canonical_reads_back (h : b.wellFormed = true) :
    ∃ ts, scan b.canonical = .ok ts ∧ parse ts = .ok b := by
  obtain ⟨ts, hs, ht⟩ := Layout.scan_legible (Layout.legible_block 0 b h [])
  have hp : Program (Layout.tokens (Layout.block 0 b)) b := by
    have := Layout.tokens_block 0 b h [] (by simp)
    rwa [List.append_nil] at this
  exact ⟨ts, hs, (parse_eq_ok_iff b).mpr (ht ▸ hp)⟩

/-- What a run shows: what it printed and how it failed. -/
def Report.shown (r : Report) : String × Option Error := (r.output, r.failure)

theorem interpret_of_scan (hs : scan source = .ok ts) (bound limit : Nat) :
    interpret bound limit source = (Task.run limit).ofTokens bound (scanAll source).events ts := by
  simp only [interpret, Task.perform, scan_eq_ok_iff.mp hs]

theorem interpret_of_parse (hs : scan source = .ok ts) (hp : parse ts = .ok b) (bound limit : Nat) :
    (interpret bound limit source).map Report.shown =
      (execute bound limit b).map Report.shown := by
  rw [interpret_of_scan hs]
  simp only [Task.ofTokens, hp, reduceCtorEq, if_false, Option.map_map]
  rfl

/-- A program that a text can be read as is read from its own canonical text too, and the two texts
run alike. -/
theorem canonical_text_round_trip (source : String) (ts : List Lexeme) (b : Block)
    (hs : scan source = .ok ts) (hp : parse ts = .ok b) :
    (∃ ts', scan b.canonical = .ok ts' ∧ parse ts' = .ok b) ∧
      ∀ bound limit, (interpret bound limit b.canonical).map Report.shown =
        (interpret bound limit source).map Report.shown := by
  obtain ⟨ts', hs', hp'⟩ := canonical_reads_back (wellFormed_of_parse hs hp)
  refine ⟨⟨ts', hs', hp'⟩, fun bound limit => ?_⟩
  rw [interpret_of_parse hs hp, interpret_of_parse hs' hp']

/-- Bodies without braces, an `else` for the inner of two conditionals, names that spell `he aahe`
and a string that looks like a comment. -/
theorem canonical_text_round_trip_nested :
    let source := "Jar(he<1)jar(aahe<2)CHAPA(\"//\");nahitar parat he-(1-2);"
    ∃ ts b, scan source = .ok ts ∧ parse ts = .ok b ∧
      (∃ ts', scan b.canonical = .ok ts' ∧ parse ts' = .ok b) ∧
        ∀ bound limit, (interpret bound limit b.canonical).map Report.shown =
          (interpret bound limit source).map Report.shown := by
  have h : readProgram "Jar(he<1)jar(aahe<2)CHAPA(\"//\");nahitar parat he-(1-2);" =
      .ok [.cond ⟨.var "he", .less, .number "1"⟩
        [.cond ⟨.var "aahe", .less, .number "2"⟩ [.print (.string "//")]
          (some [.ret (.binary .sub (.var "he") (.binary .sub (.number "1") (.number "2")))])]
        none] := by
    cbv
  obtain ⟨ts, hs, hp⟩ := readProgram_eq_ok.mp h
  exact ⟨ts, _, hs, hp, canonical_text_round_trip _ ts _ hs hp⟩

/-- The canonical text of a tree reads back as that tree if and only if the tree is well-formed, and
every tree that was read from a text is. -/
theorem canonical_text_domain (b : Block) :
    ((∃ ts, scan b.canonical = .ok ts ∧ parse ts = .ok b) ↔ b.wellFormed = true) ∧
      ∀ source ts, scan source = .ok ts → parse ts = .ok b → b.wellFormed = true := by
  refine ⟨⟨?_, canonical_reads_back⟩, fun source ts => wellFormed_of_parse⟩
  rintro ⟨ts, hs, hp⟩
  exact wellFormed_of_parse hs hp

/-- A name that no text can hold makes a text that reads as another program. -/
theorem canonical_text_domain_misread :
    let b : Block := [.print (.var "x + y")]
    readProgram b.canonical = .ok [.print (.binary .add (.var "x") (.var "y"))] ∧
      ¬ ∃ ts, scan b.canonical = .ok ts ∧ parse ts = .ok b := by
  intro b
  refine ⟨by cbv, fun h => ?_⟩
  have hb : b.wellFormed = false := by decide
  rw [(canonical_text_domain b).1.mp h] at hb
  cases hb

end Bhasha
