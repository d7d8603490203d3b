import Bhasha.Proofs.Parser.Lookahead

/-! Parsers make progress and look one token ahead. Every parser put together from the known steps
decides by the tokens it takes and one more (`Regular.oneAhead`). Each round of the loops over
statements, over operators and over the items of a list takes a token, so the loops end and their
bounds are never reached. -/

namespace Bhasha.Parser

variable {α : Type} {b : Bool} {p : Parser α} {ts us : List Lexeme}

/-- The parser decides by its first tokens. If it succeeds after `k` tokens, it does so on all
inputs with the same `k` tokens and the same next one, or the same end; with `b`, it has taken a
token. If the token at `j` is the first that it refuses, it refuses that token on all inputs that
are the same up to and with it, and takes as many tokens there. -/
structure OneAhead (b : Bool) (p : Parser α) : Prop where
  succeeds : ∀ {ts a rest}, p ts = (.ok a, rest) →
    ∃ k ≤ ts.length, rest = ts.drop k ∧ (b = true → 0 < k) ∧
      ∀ us, us.take (k + 1) = ts.take (k + 1) → p us = (.ok a, us.drop k)
  refuses : ∀ {ts x t line rest}, p ts = (.error (.unexpectedToken x t line), rest) →
    ∃ j k, ts[j]? = some ⟨t, line⟩ ∧ (k = j ∨ k = j + 1) ∧ rest = ts.drop k ∧
      (∀ x' t' line' rest', p (ts.take j) ≠ (.error (.unexpectedToken x' t' line'), rest')) ∧
      ∀ us, us.take (j + 1) = ts.take (j + 1) →
        p us = (.error (.unexpectedToken x t line), us.drop k)

/-- Inputs that agree on `used` and on one more token. -/
theorem exists_append_of_take {used rest : List Lexeme}
    (h : us.take (used.length + 1) = (used ++ rest).take (used.length + 1)) :
    ∃ rest', us = used ++ rest' ∧ rest'.head? = rest.head? := by
  have htake : us.take used.length = used := by
    have := congrArg (List.take used.length) h
    simpa [List.take_take] using this
  have hnext : us[used.length]? = (used ++ rest)[used.length]? := by
    have := congrArg (·[used.length]?) h
    simpa [List.getElem?_take] using this
  refine ⟨us.drop used.length, ?_, ?_⟩
  · have hus := List.take_append_drop used.length us
    rw [htake] at hus
    exact hus.symm
  · rw [List.head?_drop, hnext, List.getElem?_append_right (Nat.le_refl _), Nat.sub_self,
      List.head?_eq_getElem?]

theorem Regular.oneAhead (h : Regular b p) : OneAhead b p where
  succeeds {ts a rest} ha := by
    have hl := h.leaves ts
    have htaken := hl.taken a rest ha
    obtain ⟨used, rfl⟩ := hl.exists_append ha
    refine ⟨used.length, by simp, by simp, ?_, fun us hus => ?_⟩
    · rintro rfl
      simp only [Bool.toNat_true, List.length_append] at htaken
      omega
    · obtain ⟨rest', rfl, hhead⟩ := exists_append_of_take hus
      rw [List.drop_left]
      exact h.stable ha hhead
  refuses {ts x t line rest} he := by
    obtain ⟨pre, l, post, kept, rfl, rfl, rfl, hk, rfl, ho, hp⟩ := h.refused he
    refine ⟨pre.length, pre.length + 1 - kept.length, by simp, ?_, ?_, ?_, fun us hus => ?_⟩
    · rcases hk with rfl | rfl <;> simp
    · rcases hk with rfl | rfl <;> simp
    · rw [List.take_left]
      exact fun x' t' line' rest' => ho.not_refused
    · obtain ⟨rest', rfl, hhead⟩ := exists_append_of_take hus
      obtain ⟨more, rfl⟩ := List.head?_eq_some_iff.mp hhead
      rw [hp more]
      rcases hk with rfl | rfl <;> simp

/-- One more statement of a block. -/
def BlockRound (ts rest : List Lexeme) : Prop := ∃ s, statement ts = (.ok s, rest)

/-- One more operator of an expression, with its operand. -/
def ChainRound (ts rest : List Lexeme) : Prop :=
  ∃ l mid op e, ts = l :: mid ∧ arithmetic l.token = some op ∧ primary mid = (.ok e, rest)

/-- One more item of a list, with the comma after it. -/
def ListRound (item : Parser α) (ts rest : List Lexeme) : Prop :=
  ∃ a l, item ts = (.ok a, l :: rest) ∧ l.token = .comma

theorem wellFounded_of_shorter {round : List Lexeme → List Lexeme → Prop}
    (h : ∀ ts rest, round ts rest → rest.length < ts.length) :
    WellFounded fun rest ts => round ts rest :=
  Subrelation.wf (fun hr => h _ _ hr) (measure List.length).wf

theorem Regular.shorter (h : Regular true p) {a : α} {rest : List Lexeme}
    (ha : p ts = (.ok a, rest)) : rest.length < ts.length :=
  (h.leaves ts).taken a rest ha

theorem blockRound_wf : WellFounded fun rest ts => BlockRound ts rest :=
  wellFounded_of_shorter fun _ _ ⟨_, hs⟩ => regular_statement.shorter hs

theorem chainRound_wf : WellFounded fun rest ts => ChainRound ts rest := by
  refine wellFounded_of_shorter ?_
  rintro ts rest ⟨l, mid, op, e, rfl, -, he⟩
  have := regular_primary.shorter he
  rw [List.length_cons]
  omega

theorem listRound_wf {item : Parser α} (h : Regular true item) :
    WellFounded fun rest ts => ListRound item ts rest := by
  refine wellFounded_of_shorter ?_
  rintro ts rest ⟨a, l, ha, -⟩
  have := h.shorter ha
  rw [List.length_cons] at this
  omega

/-- Every parser of a phrase decides by the tokens it takes and one more, and all but those of
blocks and bodies take a token. So no loop goes round for ever, and none of them ever meets its
bound. -/
theorem parsers_look_one_ahead :
    (OneAhead false block ∧ OneAhead false body ∧ OneAhead true statement ∧
      OneAhead true declaration ∧ OneAhead true assignment ∧ OneAhead true assignmentClause ∧
      OneAhead true conditional ∧ OneAhead true whileLoop ∧ OneAhead true forLoop ∧
      OneAhead true condition ∧ OneAhead true expression) ∧
    ((WellFounded fun rest ts => BlockRound ts rest) ∧
      (WellFounded fun rest ts => ChainRound ts rest) ∧
      (WellFounded fun rest ts => ListRound expression ts rest) ∧
      WellFounded fun rest ts => ListRound identifier ts rest) ∧
    ∀ ts more, blockAt (ts.length + 1 + more) ts = block ts ∧
      (∀ left, chain primary (ts.length + 1 + more) left ts = tail left ts) ∧
      items expression .rightParen (ts.length + 1 + more) ts =
        separated expression .rightParen ts ∧
      items identifier .rightParen (ts.length + 1 + more) ts =
        separated identifier .rightParen ts := by
  refine ⟨⟨regular_block.oneAhead, regular_body.oneAhead, regular_statement.oneAhead,
    regular_declaration.oneAhead, regular_assignment.oneAhead, regular_assignmentClause.oneAhead,
    regular_conditional.oneAhead, regular_whileLoop.oneAhead, regular_forLoop.oneAhead,
    regular_condition.oneAhead, regular_expression.oneAhead⟩, ⟨blockRound_wf, chainRound_wf,
    listRound_wf regular_expression, listRound_wf regular_identifier⟩, fun ts more => ?_⟩
  have hlt : ts.length < ts.length + 1 := Nat.lt_succ_self _
  have hle : ts.length + 1 ≤ ts.length + 1 + more := Nat.le_add_right _ _
  exact ⟨(similar_block hle).agree ts hlt,
    fun left => (similar_tail (regular_primary _) hle left).agree ts hlt,
    (similar_separated (regular_expression _) hle).agree ts hlt,
    (similar_separated (regular_identifier _) hle).agree ts hlt⟩

end Bhasha.Parser
