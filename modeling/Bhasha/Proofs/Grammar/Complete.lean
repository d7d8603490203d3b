import Bhasha.Proofs.Grammar.Rules
import Bhasha.Proofs.Parser.Equations

/-! Whatever derives in the grammar is parsed, and as what it derives. What follows an expression or
a block must not be something the parser would take for more of it. -/

namespace Bhasha.Grammar

open Bhasha.Parser

variable {α β : Type} {ts mid rest : List Token}

/-- The parser reads `a` off the front of the tokens, whatever their lines, and leaves `rest`. -/
def Accepts (p : Parser α) (ts : List Token) (a : α) (rest : List Token) : Prop :=
  ∀ ls : List Lexeme, ls.map Lexeme.token = ts →
    ∃ ls' : List Lexeme, ls'.map Lexeme.token = rest ∧ p ls = (.ok a, ls')

namespace Accepts

protected theorem pure (a : α) : Accepts (pure a) ts a ts := fun ls h => ⟨ls, h, rfl⟩

theorem bind {p : Parser α} {f : α → Parser β} {a : α} {c : β} (hp : Accepts p ts a mid)
    (hf : Accepts (f a) mid c rest) : Accepts (p >>= f) ts c rest := by
  intro ls hl
  obtain ⟨ls₁, h₁, hp⟩ := hp ls hl
  obtain ⟨ls₂, h₂, hf⟩ := hf ls₁ h₁
  exact ⟨ls₂, h₂, by rw [bind_of_ok hp, hf]⟩

theorem next {expected : Expected} {accept : Token → Option α} {t : Token} {a : α}
    (h : accept t = some a) : Accepts (next expected accept) (t :: ts) a ts := by
  intro ls hl
  obtain ⟨l, ls, rfl, rfl, hm⟩ := List.map_eq_cons_iff.mp hl
  exact ⟨ls, hm, next_eq_ok.mpr ⟨l, rfl, h⟩⟩

theorem expect (t : Token) : Accepts (expect t) (t :: ts) () ts := .next (if_pos rfl)

theorem some {accept : Token → Option α} {f : Option α → Parser β} {t : Token} {a : α} {c : β}
    (h : accept t = some a) (hf : Accepts (f (some a)) ts c rest) :
    Accepts (next? accept >>= f) (t :: ts) c rest := by
  intro ls hl
  obtain ⟨l, ls, rfl, rfl, hm⟩ := List.map_eq_cons_iff.mp hl
  rw [next?_bind_some f h]
  exact hf ls hm

theorem none {accept : Token → Option α} {f : Option α → Parser β} {c : β}
    (h : ∀ t ∈ ts.head?, accept t = none) (hf : Accepts (f none) ts c rest) :
    Accepts (next? accept >>= f) ts c rest := by
  intro ls hl
  have he : (next? accept >>= f) ls = f .none ls := by
    cases ls with
    | nil => rfl
    | cons l ls => exact next?_bind_none f (h l.token (by simp [← hl])) ls
  rw [he]
  exact hf ls hl

theorem last {p : Parser α} {a : α} (hr : Regular true p)
    (h : Accepts p ts a (.rightParen :: rest)) : Accepts (separated p .rightParen) ts [a] rest := by
  rw [separated_eq .rightParen hr]
  exact h.bind (.bind (.next (a := false) rfl) (.pure _))

theorem more {p : Parser α} {a : α} {as : List α} (hr : Regular true p)
    (h : Accepts p ts a (.comma :: mid)) (hs : Accepts (separated p .rightParen) mid as rest) :
    Accepts (separated p .rightParen) ts (a :: as) rest := by
  rw [separated_eq .rightParen hr]
  exact h.bind (.bind (.next (a := true) rfl) (hs.bind (.pure _)))

theorem closed {a : α} {p : Parser α} (h : EndsBlock ts) : Accepts (unlessClosed a p) ts a ts := by
  intro ls hl
  refine ⟨ls, hl, unlessClosed_of_head fun l hm => ?_⟩
  have ht : l.token ∈ ts.head? := by
    rw [← hl, List.head?_map]
    exact Option.mem_map_of_mem _ hm
  rcases h _ ht with h | h | h <;> rw [h] <;> rfl

theorem opened {a c : α} {p : Parser α} {t : Token} (h : closesBlock t = false)
    (hp : Accepts p (t :: ts) c rest) : Accepts (unlessClosed a p) (t :: ts) c rest := by
  intro ls hl
  obtain ⟨ls', hl', hc⟩ := hp ls hl
  obtain ⟨l, ls, rfl, rfl, -⟩ := List.map_eq_cons_iff.mp hl
  exact ⟨ls', hl', (unlessClosed_open h ls).trans hc⟩

theorem statement {t : Token} {s : Stmt} (h : startsStatement t = true)
    (hp : Accepts (statementOn block t) (t :: ts) s rest) : Accepts statement (t :: ts) s rest := by
  intro ls hl
  obtain ⟨ls', hl', hs⟩ := hp ls hl
  obtain ⟨l, ls, rfl, rfl, -⟩ := List.map_eq_cons_iff.mp hl
  refine ⟨ls', hl', ?_⟩
  rw [Parser.statement, statementWith_eq, dispatch_known h, hs]

end Accepts

theorem only_of_ne {t u : Token} (h : u ≠ t) : only t u = none := if_neg h

/-- What the parser of expressions stops at. -/
def EndsExpression (ts : List Token) : Prop :=
  ∀ t ∈ ts.head?, only .leftParen t = none ∧ arithmetic t = none

theorem endsExpression_cons {t : Token} (hp : only .leftParen t = none) (ha : arithmetic t = none) :
    EndsExpression (t :: ts) := by
  rintro _ ⟨⟩
  exact ⟨hp, ha⟩

theorem Primary.opens {e : Expr} (h : Primary ts e rest) : ∃ t ∈ ts.head?, (opening t).isSome := by
  cases h <;> exact ⟨_, rfl, rfl⟩

theorem Expression.opens {e : Expr} (h : Expression ts e rest) :
    ∃ t ∈ ts.head?, (opening t).isSome := by
  cases h with
  | mk h _ => exact h.opens

theorem Separated.opens {es : List Expr} (h : Separated Expression ts es rest) :
    ∃ t ∈ ts.head?, (opening t).isSome := by
  cases h with
  | last h => exact h.opens
  | more h _ => exact h.opens

/-- The operators keep an operand before them from being read as a call. -/
theorem Chain.not_call {left e : Expr} (h : Chain left ts e rest) (hr : EndsExpression rest) :
    ∀ t ∈ ts.head?, only .leftParen t = none := by
  cases h with
  | done => exact fun t ht => (hr t ht).1
  | more => simp [only]

mutual

theorem Primary.accepts {ts rest : List Token} {e : Expr} :
    Primary ts e rest → (∀ t ∈ rest.head?, only .leftParen t = none) → Accepts primary ts e rest
  | .string, _ => .bind (.next rfl) (.pure _)
  | .number, _ => .bind (.next rfl) (.pure _)
  | .var, hr => .bind (.next rfl) (.none hr (.pure _))
  | .call h, _ => .bind (.next rfl) (.some rfl (.bind (Listed.accepts h) (.pure _)))
  | .group h, _ =>
    .bind (.next rfl) (.bind (Expression.accepts h (endsExpression_cons rfl rfl))
      (.bind (.expect _) (.pure _)))

theorem Expression.accepts {ts rest : List Token} {e : Expr} :
    Expression ts e rest → EndsExpression rest → Accepts expression ts e rest
  | .mk h hc, hr => by
    rw [expression_eq]
    exact .bind (Primary.accepts h (hc.not_call hr)) (Chain.accepts hc hr)

theorem Chain.accepts {ts rest : List Token} {left e : Expr} :
    Chain left ts e rest → EndsExpression rest → Accepts (tail left) ts e rest
  | .done, hr => by
    rw [tail_eq]
    exact .none (fun t ht => (hr t ht).2) (.pure _)
  | .more ho h hc, hr => by
    rw [tail_eq]
    exact .some (if_pos ho) (.bind (Primary.accepts h (hc.not_call hr)) (Chain.accepts hc hr))

theorem Listed.accepts {ts rest : List Token} {es : List Expr} :
    Listed Expression ts es rest → Accepts (listed expression .rightParen) ts es rest
  | .none => .some rfl (.pure _)
  | .some h => by
    refine .none (fun t ht => only_of_ne ?_) (Separated.accepts h rfl)
    rintro rfl
    obtain ⟨u, hu, ho⟩ := h.opens
    cases Option.mem_unique ht hu
    cases ho

theorem Separated.accepts {ts mid rest : List Token} {es : List Expr} :
    Separated Expression ts es mid → mid = .rightParen :: rest →
      Accepts (separated expression .rightParen) ts es rest
  | .last h, hm =>
    .last regular_expression (hm ▸ Expression.accepts h (hm ▸ endsExpression_cons rfl rfl))
  | .more h hs, hm =>
    .more regular_expression (Expression.accepts h (endsExpression_cons rfl rfl))
      (Separated.accepts hs hm)

end

theorem Separated.accepts_names {xs : List String}
    (h : Separated Name ts xs (.rightParen :: rest)) :
    Accepts (separated identifier .rightParen) ts xs rest := by
  generalize hm : Token.rightParen :: rest = mid at h
  induction h with
  | last h =>
    obtain ⟨⟩ := h
    exact .last regular_identifier (hm ▸ .next rfl)
  | more h _ ih =>
    obtain ⟨⟩ := h
    exact .more regular_identifier (.next rfl) (ih hm)

theorem Listed.accepts_names {xs : List String} (h : Listed Name ts xs rest) :
    Accepts parameters ts xs rest := by
  rw [parameters_eq]
  cases h with
  | none => exact .some rfl (.pure _)
  | some h =>
    refine .none ?_ h.accepts_names
    rcases h with ⟨⟨⟩⟩ | ⟨⟨⟩, _⟩ <;> simp [only]

theorem Test.accepts {c : Condition} (h : Test ts c rest) : Accepts condition ts c rest := by
  obtain ⟨⟨⟩ | ⟨⟩, ⟨⟩ | ⟨⟩⟩ := h <;>
    exact .bind (.next rfl) (.bind (.next rfl) (.bind (.next rfl) (.pure _)))

theorem Test.header {c : Condition} (h : Test ts c (.rightParen :: rest)) :
    Accepts header (.leftParen :: ts) c rest :=
  .bind (.expect _) (.bind h.accepts (.bind (.expect _) (.pure _)))

theorem Test.no_semicolon {c : Condition} (h : Test ts c rest) :
    ∀ t ∈ ts.head?, only .semicolon t = none := by
  obtain ⟨⟨⟩ | ⟨⟩, -⟩ := h <;> simp [only]

theorem accepts_binding {x : String} {e : Expr} (h : Expression ts e rest)
    (hr : EndsExpression rest) :
    Accepts binding (.identifier x :: .operator .assign :: ts) (x, e) rest :=
  .bind (.next rfl) (.bind (.expect _) (.bind (h.accepts hr) (.pure _)))

theorem Declaration.accepts {s : Stmt} (h : Declaration ts s rest) :
    Accepts declaration ts s rest := by
  obtain ⟨h⟩ := h
  exact .bind (.expect _) (.bind (accepts_binding h (endsExpression_cons rfl rfl))
    (.bind (.expect _) (.pure _)))

theorem Clause.accepts {s : Stmt} (h : Clause ts s rest) (hr : EndsExpression rest) :
    Accepts assignmentClause ts s rest := by
  obtain ⟨h⟩ := h
  exact .bind (accepts_binding h hr) (.pure _)

theorem OptionalSemicolon.accepts (h : OptionalSemicolon ts rest)
    (hr : ∀ t ∈ rest.head?, only .semicolon t = none) : Accepts (skip .semicolon) ts () rest := by
  cases h with
  | absent => exact .none hr (.pure _)
  | present => exact .some rfl (.pure _)

theorem OptionalSemicolon.endsExpression (h : OptionalSemicolon ts (.rightParen :: rest)) :
    EndsExpression ts := by
  cases h <;> exact endsExpression_cons rfl rfl

theorem Statement.starts {s : Stmt} (h : Statement ts s rest) :
    ∃ t ts', ts = t :: ts' ∧ startsStatement t = true := by
  cases h with
  | declare h => cases h; exact ⟨_, _, rfl, rfl⟩
  | assign h => cases h; exact ⟨_, _, rfl, rfl⟩
  | _ => exact ⟨_, _, rfl, rfl⟩

theorem closesBlock_of_starts {t : Token} (h : startsStatement t = true) :
    closesBlock t = false := by
  cases t <;> first | rfl | cases h

theorem Sequence.no_brace {b : Block} (h : Sequence ts b rest) (hr : EndsBlock rest) :
    ∀ t ∈ ts.head?, only .leftBrace t = none := by
  intro t ht
  refine only_of_ne ?_
  rintro rfl
  cases h with
  | nil => simpa using hr _ ht
  | cons h _ =>
    obtain ⟨t, ts, rfl, hs⟩ := h.starts
    cases ht
    cases hs

mutual

theorem Statement.accepts {ts rest : List Token} {s : Stmt} :
    Statement ts s rest → Accepts statement ts s rest
  | .declare h => by
    have ha := h.accepts
    obtain ⟨-⟩ := h
    exact .statement rfl ha
  | .assign h => by
    have ha := h.accepts (endsExpression_cons rfl rfl)
    obtain ⟨-⟩ := h
    exact .statement rfl (.bind ha (.bind (.expect _) (.pure _)))
  | .print h =>
    .statement rfl <| .bind (.expect _) <| .bind (.expect _) <|
      .bind (h.accepts (endsExpression_cons rfl rfl)) <| .bind (.expect _) <|
        .bind (.expect _) (.pure _)
  | .ret h =>
    .statement rfl <| .bind (.expect _) <| .bind (h.accepts (endsExpression_cons rfl rfl)) <|
      .bind (.expect _) (.pure _)
  | .ifThen hc hy hr =>
    .statement rfl <| .bind (.expect _) <| .bind hc.header <| .bind (Body.accepts hy) <|
      .none (fun t ht => only_of_ne fun he => hr (he ▸ ht)) (.pure _)
  | .ifElse hc hy hn =>
    .statement rfl <| .bind (.expect _) <| .bind hc.header <| .bind (Body.accepts hy) <|
      .some rfl <| .bind (Body.accepts hn) (.pure _)
  | .whileLoop hc hb =>
    .statement rfl <| .bind (.expect _) <| .bind hc.header <| .bind (Body.accepts hb) <|
      .bind (.expect _) (.pure _)
  | .forLoop hi h₁ hc hs h₂ hb =>
    .statement rfl <| .bind (.expect _) <| .bind (.expect _) <| .bind hi.accepts <|
      .bind (h₁.accepts hc.no_semicolon) <| .bind hc.accepts <| .bind (.expect _) <|
        .bind (hs.accepts h₂.endsExpression) <| .bind (h₂.accepts (by simp [only])) <|
          .bind (.expect _) <| .bind (Body.accepts hb) <| .bind (.expect _) (.pure _)
  | .function hp hb =>
    .statement rfl <| .bind (.expect _) <| .bind (.next rfl) <| .bind (.expect _) <|
      .bind hp.accepts_names <| .bind (.expect _) <|
        .bind (Sequence.accepts hb (by simp [EndsBlock])) <| .bind (.expect _) (.pure _)

theorem Body.accepts {ts rest : List Token} {b : Block} :
    Body ts b rest → Accepts body ts b rest
  | .braced h =>
    .some rfl <| .bind (Sequence.accepts h (by simp [EndsBlock])) <| .bind (.expect _) (.pure _)
  | .bare h hr => .none (h.no_brace hr) (Sequence.accepts h hr)

theorem Sequence.accepts {ts rest : List Token} {b : Block} :
    Sequence ts b rest → EndsBlock rest → Accepts block ts b rest
  | .nil, hr => by
    rw [block_eq]
    exact .closed hr
  | .cons h hb, hr => by
    have hs := Statement.accepts h
    have hb := Sequence.accepts hb hr
    obtain ⟨t, ts, rfl, ht⟩ := h.starts
    rw [block_eq]
    exact .opened (closesBlock_of_starts ht) (.bind hs (.bind hb (.pure _)))

end

end Bhasha.Grammar
