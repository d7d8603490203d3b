import Bhasha.Grammar.Statement

/-! The steps that parsers are put together from: what each gives, and what a parser that succeeds
has met. -/

namespace Bhasha.Parser

variable {α β : Type}

theorem bind_of_ok {p : Parser α} {f : α → Parser β} {ts mid : List Lexeme} {a : α}
    (h : p ts = (.ok a, mid)) : (p >>= f) ts = f a mid := by
  rw [bind_apply, h]

theorem bind_of_error {p : Parser α} {f : α → Parser β} {ts mid : List Lexeme} {e : ParseError}
    (h : p ts = (.error e, mid)) : (p >>= f) ts = (.error e, mid) := by
  rw [bind_apply, h]

theorem bind_eq_ok {p : Parser α} {f : α → Parser β} {ts rest : List Lexeme} {c : β} :
    (p >>= f) ts = (.ok c, rest) ↔
      ∃ a mid, p ts = (.ok a, mid) ∧ f a mid = (.ok c, rest) := by
  rcases h : p ts with ⟨e | a, mid⟩
  · simp [bind_of_error h]
  · simp [bind_of_ok h, and_assoc]

theorem next_eq_ok {expected : Expected} {accept : Token → Option α} {ts rest : List Lexeme}
    {a : α} :
    next expected accept ts = (.ok a, rest) ↔ ∃ l, ts = l :: rest ∧ accept l.token = some a := by
  cases ts with
  | nil => simp [next]
  | cons l ts => cases h : accept l.token <;> simp [next, and_assoc, and_comm, h]

theorem next?_bind_some {accept : Token → Option α} (f : Option α → Parser β) {l : Lexeme} {a : α}
    (h : accept l.token = some a) (ts : List Lexeme) :
    (next? accept >>= f) (l :: ts) = f (some a) ts := by
  simp [bind_apply, next?, h]

theorem next?_bind_none {accept : Token → Option α} (f : Option α → Parser β) {l : Lexeme}
    (h : accept l.token = none) (ts : List Lexeme) :
    (next? accept >>= f) (l :: ts) = f none (l :: ts) := by
  simp [bind_apply, next?, h]

/-- The input does not begin with a token that `accept` knows. -/
def Clear (accept : Token → Option α) (vs : List Lexeme) : Prop :=
  ∀ l ∈ vs.head?, accept l.token = none

theorem Clear.next?_bind {accept : Token → Option α} {vs : List Lexeme} (h : Clear accept vs)
    (f : Option α → Parser β) : (next? accept >>= f) vs = f none vs := by
  cases vs with
  | nil => rfl
  | cons l vs => exact next?_bind_none f (h l rfl) vs

section

variable {ls ls' : List Lexeme}

theorem next_bind_eq_ok {expected : Expected} {accept : Token → Option α} {f : α → Parser β}
    {c : β} :
    (next expected accept >>= f) ls = (.ok c, ls') ↔
      ∃ l mid a, ls = l :: mid ∧ accept l.token = some a ∧ f a mid = (.ok c, ls') := by
  simp only [bind_eq_ok, next_eq_ok]
  constructor
  · rintro ⟨a, mid, ⟨l, rfl, ha⟩, hf⟩
    exact ⟨l, mid, a, rfl, ha, hf⟩
  · rintro ⟨l, mid, a, rfl, ha, hf⟩
    exact ⟨a, mid, ⟨l, rfl, ha⟩, hf⟩

theorem only_eq_some {t u : Token} {a : Unit} : only t u = some a ↔ u = t := by
  simp [only]

theorem expect_bind_eq_ok {t : Token} {f : Unit → Parser β} {c : β} :
    (expect t >>= f) ls = (.ok c, ls') ↔
      ∃ l mid, ls = l :: mid ∧ l.token = t ∧ f () mid = (.ok c, ls') := by
  rw [expect, next_bind_eq_ok]
  simp only [only_eq_some]
  exact ⟨fun ⟨l, mid, _, h⟩ => ⟨l, mid, h⟩, fun ⟨l, mid, h⟩ => ⟨l, mid, (), h⟩⟩

theorem next?_bind_eq_ok {accept : Token → Option α} {f : Option α → Parser β} {c : β} :
    (next? accept >>= f) ls = (.ok c, ls') ↔
      (∃ l mid a, ls = l :: mid ∧ accept l.token = some a ∧ f (some a) mid = (.ok c, ls')) ∨
        Clear accept ls ∧ f none ls = (.ok c, ls') := by
  constructor
  · intro hf
    cases ls with
    | nil => exact .inr ⟨by simp [Clear], hf⟩
    | cons l ls =>
      cases h : accept l.token with
      | none => exact .inr ⟨by simp [Clear, h], by rwa [next?_bind_none f h] at hf⟩
      | some a => exact .inl ⟨l, ls, a, rfl, h, by rwa [next?_bind_some f h] at hf⟩
  · rintro (⟨l, mid, a, rfl, ha, hf⟩ | ⟨hn, hf⟩)
    · rwa [next?_bind_some f ha]
    · rwa [hn.next?_bind]

end

/-- Looks at the next token and hands over to a parser chosen by it. -/
def dispatch (expected : Expected) (known : Token → Bool) (f : Token → Parser α) : Parser α
  | [] => (.error (.unexpectedEndOfInput expected 0), [])
  | l :: ts =>
    if known l.token then f l.token (l :: ts)
    else (.error (.unexpectedToken expected l.token l.line), l :: ts)

/-- Gives back `a` where a block ends. -/
def unlessClosed (a : α) (p : Parser α) : Parser α
  | [] => (.ok a, [])
  | l :: ts => if closesBlock l.token then (.ok a, l :: ts) else p (l :: ts)

section

variable {expected : Expected} {known : Token → Bool} {f : Token → Parser α} {l : Lexeme}

theorem dispatch_known (h : known l.token = true) (ts : List Lexeme) :
    dispatch expected known f (l :: ts) = f l.token (l :: ts) := by
  simp [dispatch, h]

theorem dispatch_unknown (h : known l.token = false) (ts : List Lexeme) :
    dispatch expected known f (l :: ts) =
      (.error (.unexpectedToken expected l.token l.line), l :: ts) := by
  simp [dispatch, h]

theorem unlessClosed_closed {a : α} {p : Parser α} (h : closesBlock l.token = true)
    (ts : List Lexeme) : unlessClosed a p (l :: ts) = (.ok a, l :: ts) := by
  simp [unlessClosed, h]

theorem unlessClosed_open {a : α} {p : Parser α} (h : closesBlock l.token = false)
    (ts : List Lexeme) : unlessClosed a p (l :: ts) = p (l :: ts) := by
  simp [unlessClosed, h]

theorem unlessClosed_of_head {a : α} {p : Parser α} {ts : List Lexeme}
    (h : ∀ l ∈ ts.head?, closesBlock l.token = true) : unlessClosed a p ts = (.ok a, ts) := by
  cases ts with
  | nil => rfl
  | cons l ts => exact unlessClosed_closed (h l rfl) ts

end

end Bhasha.Parser
