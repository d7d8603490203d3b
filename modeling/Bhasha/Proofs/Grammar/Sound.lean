import Bhasha.Proofs.Grammar.Complete
import Bhasha.Proofs.Parser.Errors

/-! Whatever the parser reads derives in the grammar. With the converse, the parser accepts exactly
the programs of the grammar, and the grammar gives no token list two trees. -/

namespace Bhasha.Grammar

open Bhasha.Parser

variable {α β : Type} {n : Nat} {ls ls' : List Lexeme}

/-- On inputs of fewer than `n` tokens, whatever the parser reads derives by `rule`. -/
def Derives (n : Nat) (p : Parser α) (rule : List Token → α → List Token → Prop) : Prop :=
  ∀ ls a ls', ls.length < n → p ls = (.ok a, ls') →
    rule (ls.map Lexeme.token) a (ls'.map Lexeme.token)

variable {p : Parser α} {rule : List Token → α → List Token → Prop}

theorem Derives.mono {m : Nat} (h : Derives n p rule) (hm : m ≤ n) : Derives m p rule :=
  fun ls a ls' hl => h ls a ls' (by omega)

theorem Derives.of_ok (h : ∀ n, Derives n p rule) {a : α} (hp : p ls = (.ok a, ls')) :
    rule (ls.map Lexeme.token) a (ls'.map Lexeme.token) :=
  h (ls.length + 1) ls a ls' (Nat.lt_succ_self _) hp

theorem continues_eq_some {t : Token} {more : Bool} (h : continues .rightParen t = some more) :
    t = if more then .comma else .rightParen := by
  unfold continues at h
  split at h
  · cases h; assumption
  · split at h <;> cases h
    assumption

theorem derives_separated (hr : Regular true p) (hp : Derives n p rule) :
    Derives n (separated p .rightParen)
      fun ts as rest => Separated rule ts as (.rightParen :: rest) := by
  induction n with
  | zero => intro ls as ls' hn; omega
  | succ n ih =>
    intro ls as ls' hn h
    rw [separated_eq .rightParen hr] at h
    obtain ⟨a, mid, ha, h⟩ := bind_eq_ok.mp h
    obtain ⟨l, mid, more, rfl, hc, h⟩ := next_bind_eq_ok.mp h
    have hi := hp ls a _ hn ha
    have hlen := (hr.leaves ls).taken a _ ha
    rw [List.map_cons, continues_eq_some hc] at hi
    cases more with
    | true =>
      obtain ⟨as, rest, hs, h⟩ := bind_eq_ok.mp h
      cases h
      simp only [List.length_cons, Bool.toNat_true] at hlen
      exact .more hi (ih (hp.mono (Nat.le_succ n)) mid as _ (by omega) hs)
    | false =>
      cases h
      exact .last hi

theorem derives_listed (hr : Regular true p) (hp : Derives n p rule) :
    Derives n (listed p .rightParen) (Listed rule) := by
  intro ls as ls' hn h
  rcases next?_bind_eq_ok.mp h with ⟨l, mid, _, rfl, hl, h⟩ | ⟨-, h⟩
  · cases h
    rw [List.map_cons, only_eq_some.mp hl]
    exact .none
  · exact .some (derives_separated hr hp ls as ls' hn h)

theorem derives_primary (h : Derives n expression Expression) :
    Derives (n + 1) primary Primary := by
  intro ls e ls' hn he
  obtain ⟨⟨t, line⟩, ls, o, rfl, ho, he⟩ := next_bind_eq_ok.mp he
  rw [List.length_cons] at hn
  rw [List.map_cons]
  cases t with
  | string text => cases ho; cases he; exact .string
  | number text => cases ho; cases he; exact .number
  | identifier name =>
    cases ho
    rcases next?_bind_eq_ok.mp he with ⟨l, mid, _, rfl, hl, he⟩ | ⟨-, he⟩
    · obtain ⟨args, rest, ha, he⟩ := bind_eq_ok.mp he
      cases he
      rw [List.map_cons, only_eq_some.mp hl]
      rw [List.length_cons] at hn
      exact .call (derives_listed regular_expression h mid args _ (by omega) ha)
    · cases he
      exact .var
  | leftParen =>
    cases ho
    obtain ⟨e', mid, hm, he⟩ := bind_eq_ok.mp he
    obtain ⟨l, rest, rfl, hl, he⟩ := expect_bind_eq_ok.mp he
    cases he
    have hi := h ls e _ (by omega) hm
    rw [List.map_cons, hl] at hi
    exact .group hi
  | _ => cases ho

theorem arithmetic_eq_some {t : Token} {op : Operator} (h : arithmetic t = some op) :
    t = .operator op ∧ op.isArithmetic = true := by
  cases t with
  | operator op' =>
    by_cases ho : op'.isArithmetic = true
    · cases (if_pos ho).symm.trans h
      exact ⟨rfl, ho⟩
    · cases (if_neg ho).symm.trans h
  | _ => cases h

theorem derives_tail (h : Derives n primary Primary) (left : Expr) :
    Derives n (tail left) (Chain left) := by
  induction n generalizing left with
  | zero => intro ls e ls' hn; omega
  | succ n ih =>
    intro ls e ls' hn he
    rw [tail_eq] at he
    rcases next?_bind_eq_ok.mp he with ⟨l, mid, op, rfl, ho, he⟩ | ⟨-, he⟩
    · obtain ⟨ht, ho⟩ := arithmetic_eq_some ho
      obtain ⟨right, rest, hp, he⟩ := bind_eq_ok.mp he
      have hlen := (regular_primary.leaves mid).taken right rest hp
      rw [List.length_cons] at hn
      rw [List.map_cons, ht]
      exact .more ho (h mid right rest (by omega) hp)
        (ih (h.mono (Nat.le_succ n)) _ rest e ls' (by omega) he)
    · cases he
      exact .done

theorem derives_expression (n : Nat) : Derives n expression Expression := by
  induction n with
  | zero => intro ls e ls' hn; omega
  | succ n ih =>
    intro ls e ls' hn he
    rw [expression_eq] at he
    obtain ⟨left, mid, hp, ht⟩ := bind_eq_ok.mp he
    have hlen := (regular_primary.leaves ls).taken left mid hp
    have hprim := derives_primary ih
    exact .mk (hprim ls left mid hn hp) (derives_tail hprim left mid e ls' (by omega) ht)

theorem identifier_bind_eq_ok {f : String → Parser β} {c : β}
    (h : (identifier >>= f) ls = (.ok c, ls')) :
    ∃ l mid x, ls = l :: mid ∧ l.token = .identifier x ∧ f x mid = (.ok c, ls') := by
  obtain ⟨⟨t, line⟩, mid, x, rfl, ht, hf⟩ := next_bind_eq_ok.mp h
  cases t with
  | identifier y =>
    cases ht
    exact ⟨_, mid, x, rfl, rfl, hf⟩
  | _ => cases ht

theorem derives_identifier (n : Nat) : Derives n identifier Name := by
  intro ls x ls' _ h
  obtain ⟨⟨t, line⟩, rfl, ht⟩ := next_eq_ok.mp h
  cases t with
  | identifier y => cases ht; exact .mk
  | _ => cases ht

theorem binding_eq_ok {x : String} {e : Expr} (h : binding ls = (.ok (x, e), ls')) :
    ∃ ts, ls.map Lexeme.token = .identifier x :: .operator .assign :: ts ∧
      Expression ts e (ls'.map Lexeme.token) := by
  obtain ⟨l₁, ls₁, y, rfl, h₁, h⟩ := identifier_bind_eq_ok h
  obtain ⟨l₂, ls₂, rfl, h₂, h⟩ := expect_bind_eq_ok.mp h
  obtain ⟨e', ls₃, he, h⟩ := bind_eq_ok.mp h
  cases h
  exact ⟨ls₂.map Lexeme.token, by simp [h₁, h₂], Derives.of_ok derives_expression he⟩

theorem derives_declaration (n : Nat) : Derives n declaration Declaration := by
  intro ls s ls' _ h
  obtain ⟨l, ls₁, rfl, hl, h⟩ := expect_bind_eq_ok.mp h
  obtain ⟨⟨x, e⟩, ls₂, hb, h⟩ := bind_eq_ok.mp h
  obtain ⟨l₃, ls₃, rfl, h₃, h⟩ := expect_bind_eq_ok.mp h
  obtain ⟨ts, hts, he⟩ := binding_eq_ok hb
  cases h
  rw [List.map_cons, h₃] at he
  rw [List.map_cons, hl, hts]
  exact .mk he

theorem derives_assignmentClause (n : Nat) : Derives n assignmentClause Clause := by
  intro ls s ls' _ h
  obtain ⟨⟨x, e⟩, ls₁, hb, h⟩ := bind_eq_ok.mp h
  obtain ⟨ts, hts, he⟩ := binding_eq_ok hb
  cases h
  rw [hts]
  exact .mk he

theorem comparand_bind_eq_ok {f : Expr → Parser β} {c : β} (h : (comparand >>= f) ls = (.ok c, ls')) :
    ∃ l mid e, ls = l :: mid ∧ Comparand l.token e ∧ f e mid = (.ok c, ls') := by
  obtain ⟨⟨t, line⟩, mid, e, rfl, ht, hf⟩ := next_bind_eq_ok.mp h
  cases t with
  | number text => cases ht; exact ⟨_, mid, _, rfl, .number, hf⟩
  | identifier x => cases ht; exact ⟨_, mid, _, rfl, .var, hf⟩
  | _ => cases ht

theorem derives_condition (n : Nat) : Derives n condition Test := by
  intro ls c ls' _ h
  obtain ⟨l₁, ls₁, left, rfl, hl, h⟩ := comparand_bind_eq_ok h
  obtain ⟨⟨t, line⟩, ls₂, op, rfl, ht, h⟩ := next_bind_eq_ok.mp h
  obtain ⟨l₃, ls₃, right, rfl, hr, h⟩ := comparand_bind_eq_ok h
  cases h
  cases t with
  | operator op' => cases ht; exact .mk hl hr
  | _ => cases ht

theorem header_eq_ok {c : Condition} (h : header ls = (.ok c, ls')) :
    ∃ ts, ls.map Lexeme.token = .leftParen :: ts ∧
      Test ts c (.rightParen :: ls'.map Lexeme.token) := by
  obtain ⟨l, ls₁, rfl, hl, h⟩ := expect_bind_eq_ok.mp h
  obtain ⟨c', ls₂, hc, h⟩ := bind_eq_ok.mp h
  obtain ⟨l₃, ls₃, rfl, h₃, h⟩ := expect_bind_eq_ok.mp h
  have hc := Derives.of_ok derives_condition hc
  cases h
  rw [List.map_cons, h₃] at hc
  exact ⟨ls₁.map Lexeme.token, by rw [List.map_cons, hl], hc⟩

theorem skip_eq_ok {a : Unit} (h : skip .semicolon ls = (.ok a, ls')) :
    OptionalSemicolon (ls.map Lexeme.token) (ls'.map Lexeme.token) := by
  rcases next?_bind_eq_ok.mp h with ⟨l, mid, _, rfl, hl, h⟩ | ⟨-, h⟩ <;> cases h
  · rw [List.map_cons, only_eq_some.mp hl]
    exact .present
  · exact .absent

/-- A block, up to where the parser of blocks stops. -/
def Stopped (ts : List Token) (b : Block) (rest : List Token) : Prop :=
  Sequence ts b rest ∧ EndsBlock rest

theorem derives_body (h : Derives n block Stopped) : Derives n body Body := by
  intro ls b ls' hn hb
  rcases next?_bind_eq_ok.mp hb with ⟨l, ls₁, _, rfl, hl, hb⟩ | ⟨-, hb⟩
  · obtain ⟨b', ls₂, hb, he⟩ := bind_eq_ok.mp hb
    obtain ⟨l₃, ls₃, rfl, h₃, he⟩ := expect_bind_eq_ok.mp he
    rw [List.length_cons] at hn
    have hs := (h ls₁ b' _ (by omega) hb).1
    cases he
    rw [List.map_cons, h₃] at hs
    rw [List.map_cons, only_eq_some.mp hl]
    exact .braced hs
  · have hs := h ls b ls' hn hb
    exact .bare hs.1 hs.2

theorem derives_conditional (h : Derives n body Body) : Derives (n + 1) conditional Statement := by
  intro ls s ls' hn hs
  obtain ⟨l, ls₁, rfl, hl, hs⟩ := expect_bind_eq_ok.mp hs
  obtain ⟨c, ls₂, hc, hs⟩ := bind_eq_ok.mp hs
  obtain ⟨yes, ls₃, hy, hs⟩ := bind_eq_ok.mp hs
  have hlen₂ := (regular_header.leaves ls₁).taken c ls₂ hc
  have hlen₃ := (regular_body.leaves ls₂).taken yes ls₃ hy
  obtain ⟨ts, hts, hc⟩ := header_eq_ok hc
  rw [List.length_cons] at hn
  have hy := h ls₂ yes ls₃ (by omega) hy
  rw [List.map_cons, hl, hts]
  rcases next?_bind_eq_ok.mp hs with ⟨l₄, ls₄, _, rfl, h₄, hs⟩ | ⟨hno, hs⟩
  · obtain ⟨no, ls₅, hn', hs⟩ := bind_eq_ok.mp hs
    cases hs
    rw [List.length_cons] at hlen₃
    rw [List.map_cons, only_eq_some.mp h₄] at hy
    exact .ifElse hc hy (h ls₄ no ls' (by omega) hn')
  · cases hs
    refine .ifThen hc hy fun ho => ?_
    rw [List.head?_map, Option.map_eq_some_iff] at ho
    obtain ⟨l, hl, ht⟩ := ho
    have hno := hno l hl
    rw [ht] at hno
    cases hno

theorem derives_whileLoop (h : Derives n body Body) : Derives (n + 1) whileLoop Statement := by
  intro ls s ls' hn hs
  obtain ⟨l, ls₁, rfl, hl, hs⟩ := expect_bind_eq_ok.mp hs
  obtain ⟨c, ls₂, hc, hs⟩ := bind_eq_ok.mp hs
  obtain ⟨b, ls₃, hb, hs⟩ := bind_eq_ok.mp hs
  obtain ⟨l₄, ls₄, rfl, h₄, hs⟩ := expect_bind_eq_ok.mp hs
  have hlen₂ := (regular_header.leaves ls₁).taken c ls₂ hc
  obtain ⟨ts, hts, hc⟩ := header_eq_ok hc
  rw [List.length_cons] at hn
  have hb := h ls₂ b _ (by omega) hb
  cases hs
  rw [List.map_cons, h₄] at hb
  rw [List.map_cons, hl, hts]
  exact .whileLoop hc hb

theorem derives_forLoop (h : Derives n body Body) : Derives (n + 1) forLoop Statement := by
  intro ls s ls' hn hs
  obtain ⟨l₁, ls₁, rfl, h₁, hs⟩ := expect_bind_eq_ok.mp hs
  obtain ⟨l₂, ls₂, rfl, h₂, hs⟩ := expect_bind_eq_ok.mp hs
  obtain ⟨init, ls₃, hi, hs⟩ := bind_eq_ok.mp hs
  obtain ⟨_, ls₄, ho, hs⟩ := bind_eq_ok.mp hs
  obtain ⟨c, ls₅, hc, hs⟩ := bind_eq_ok.mp hs
  obtain ⟨l₆, ls₆, rfl, h₆, hs⟩ := expect_bind_eq_ok.mp hs
  obtain ⟨step, ls₇, hstep, hs⟩ := bind_eq_ok.mp hs
  obtain ⟨_, ls₈, ho', hs⟩ := bind_eq_ok.mp hs
  obtain ⟨l₉, ls₉, rfl, h₉, hs⟩ := expect_bind_eq_ok.mp hs
  obtain ⟨b, ls₀, hb, hs⟩ := bind_eq_ok.mp hs
  obtain ⟨l, ls, rfl, hl, hs⟩ := expect_bind_eq_ok.mp hs
  have hlen₃ := (regular_declaration.leaves ls₂).taken init ls₃ hi
  have hlen₄ := ((regular_skip _).leaves ls₃).taken _ ls₄ ho
  have hlen₅ := (regular_condition.leaves ls₄).taken c _ hc
  have hlen₇ := (regular_assignmentClause.leaves ls₆).taken step ls₇ hstep
  have hlen₈ := ((regular_skip _).leaves ls₇).taken _ _ ho'
  simp only [List.length_cons] at hn hlen₅ hlen₈
  have hi := Derives.of_ok derives_declaration hi
  have ho := skip_eq_ok ho
  have hc := Derives.of_ok derives_condition hc
  have hstep := Derives.of_ok derives_assignmentClause hstep
  have ho' := skip_eq_ok ho'
  have hb := h ls₉ b _ (by omega) hb
  cases hs
  simp only [List.map_cons, h₁, h₂, h₆, h₉, hl] at hc ho' hb ⊢
  exact .forLoop hi ho hc hstep ho' hb

theorem derives_function (h : Derives n block Stopped) :
    Derives (n + 1) (functionWith block) Statement := by
  intro ls s ls' hn hs
  obtain ⟨l₁, ls₁, rfl, h₁, hs⟩ := expect_bind_eq_ok.mp hs
  obtain ⟨l₂, ls₂, name, rfl, h₂, hs⟩ := identifier_bind_eq_ok hs
  obtain ⟨l₃, ls₃, rfl, h₃, hs⟩ := expect_bind_eq_ok.mp hs
  obtain ⟨params, ls₄, hp, hs⟩ := bind_eq_ok.mp hs
  obtain ⟨l₅, ls₅, rfl, h₅, hs⟩ := expect_bind_eq_ok.mp hs
  obtain ⟨b, ls₆, hb, hs⟩ := bind_eq_ok.mp hs
  obtain ⟨l, ls, rfl, hl, hs⟩ := expect_bind_eq_ok.mp hs
  have hlen := (regular_parameters.leaves ls₃).taken params _ hp
  simp only [List.length_cons] at hn hlen
  rw [parameters_eq] at hp
  have hp := Derives.of_ok (fun n => derives_listed regular_identifier (derives_identifier n)) hp
  have hb := (h ls₅ b _ (by omega) hb).1
  cases hs
  simp only [List.map_cons, h₁, h₂, h₃, h₅, hl] at hp hb ⊢
  exact .function hp hb

theorem derives_print (n : Nat) : Derives n print Statement := by
  intro ls s ls' _ hs
  obtain ⟨l₁, ls₁, rfl, h₁, hs⟩ := expect_bind_eq_ok.mp hs
  obtain ⟨l₂, ls₂, rfl, h₂, hs⟩ := expect_bind_eq_ok.mp hs
  obtain ⟨e, ls₃, he, hs⟩ := bind_eq_ok.mp hs
  obtain ⟨l₄, ls₄, rfl, h₄, hs⟩ := expect_bind_eq_ok.mp hs
  obtain ⟨l₅, ls₅, rfl, h₅, hs⟩ := expect_bind_eq_ok.mp hs
  have he := Derives.of_ok derives_expression he
  cases hs
  simp only [List.map_cons, h₁, h₂, h₄, h₅] at he ⊢
  exact .print he

theorem derives_ret (n : Nat) : Derives n ret Statement := by
  intro ls s ls' _ hs
  obtain ⟨l₁, ls₁, rfl, h₁, hs⟩ := expect_bind_eq_ok.mp hs
  obtain ⟨e, ls₂, he, hs⟩ := bind_eq_ok.mp hs
  obtain ⟨l₃, ls₃, rfl, h₃, hs⟩ := expect_bind_eq_ok.mp hs
  have he := Derives.of_ok derives_expression he
  cases hs
  simp only [List.map_cons, h₁, h₃] at he ⊢
  exact .ret he

theorem derives_assignment (n : Nat) : Derives n assignment Statement := by
  intro ls s ls' _ hs
  obtain ⟨s', ls₁, hc, hs⟩ := bind_eq_ok.mp hs
  obtain ⟨l₂, ls₂, rfl, h₂, hs⟩ := expect_bind_eq_ok.mp hs
  have hc := Derives.of_ok derives_assignmentClause hc
  cases hs
  rw [List.map_cons, h₂] at hc
  exact .assign hc

theorem derives_statement (h : Derives n block Stopped) :
    Derives (n + 1) statement Statement := by
  intro ls s ls' hn hs
  rw [statement, statementWith_eq] at hs
  cases ls with
  | nil => cases hs
  | cons l ls =>
    cases hl : startsStatement l.token with
    | false => rw [dispatch_unknown hl] at hs; cases hs
    | true =>
      have hb := derives_body h
      rw [dispatch_known hl] at hs
      obtain ⟨t, line⟩ := l
      cases t with
      | declare => exact .declare (derives_declaration _ _ s ls' hn hs)
      | print => exact derives_print _ _ s ls' hn hs
      | cond => exact derives_conditional hb _ s ls' hn hs
      | whileLoop => exact derives_whileLoop hb _ s ls' hn hs
      | forLoop => exact derives_forLoop hb _ s ls' hn hs
      | ret => exact derives_ret _ _ s ls' hn hs
      | function => exact derives_function h _ s ls' hn hs
      | identifier name => exact derives_assignment _ _ s ls' hn hs
      | _ => cases hl

theorem endsBlock_of_closes {t : Token} {ts : List Token} (h : closesBlock t = true) :
    EndsBlock (t :: ts) := by
  rintro _ ⟨⟩
  cases t <;> simp_all [closesBlock]

theorem derives_block (n : Nat) : Derives n block Stopped := by
  induction n with
  | zero => intro ls b ls' hn; omega
  | succ n ih =>
    intro ls b ls' hn hb
    rw [block_eq] at hb
    cases ls with
    | nil => cases hb; exact ⟨.nil, by simp [EndsBlock]⟩
    | cons l ls =>
      cases hl : closesBlock l.token with
      | true =>
        rw [unlessClosed_closed hl] at hb
        cases hb
        exact ⟨.nil, endsBlock_of_closes hl⟩
      | false =>
        rw [unlessClosed_open hl] at hb
        obtain ⟨s, mid, hs, hb⟩ := bind_eq_ok.mp hb
        obtain ⟨b', rest, hb', hb⟩ := bind_eq_ok.mp hb
        have hlen := (regular_statement.leaves _).taken s mid hs
        rw [Bool.toNat_true] at hlen
        have hs := derives_statement ih _ s mid hn hs
        have hb' := ih mid b' rest (by omega) hb'
        cases hb
        exact ⟨.cons hs hb'.1, hb'.2⟩

theorem parse_eq_ok_iff (b : Block) : parse ls = .ok b ↔ Program (ls.map Lexeme.token) b := by
  rw [parse_eq_ok]
  constructor
  · exact fun h => (Derives.of_ok derives_block h).1
  · intro h
    obtain ⟨rest, hr, hb⟩ := Sequence.accepts h (by simp [EndsBlock]) ls rfl
    rw [hb, List.map_eq_nil_iff.mp hr]

/-- A token list has at most one tree: the parser finds it. -/
theorem program_unique {ts : List Token} {b b' : Block} (h : Program ts b) (h' : Program ts b') :
    b = b' := by
  have hl : (ts.map fun t => (⟨t, 0⟩ : Lexeme)).map Lexeme.token = ts := by
    rw [List.map_map]
    exact List.map_id ts
  rw [← hl] at h h'
  have := (parse_eq_ok_iff b).mpr h
  rw [(parse_eq_ok_iff b').mpr h'] at this
  cases this
  rfl

/-- The parser accepts the programs of the grammar and nothing else, whatever the lines of the
tokens, and no tokens are two programs. -/
theorem parser_accepts_its_grammar :
    (∀ (ls : List Lexeme) (b : Block), parse ls = .ok b ↔ Program (ls.map Lexeme.token) b) ∧
      ∀ (ts : List Token) (b b' : Block), Program ts b → Program ts b' → b = b' :=
  ⟨fun _ b => parse_eq_ok_iff b, fun _ _ _ h h' => program_unique h h'⟩

end Bhasha.Grammar
