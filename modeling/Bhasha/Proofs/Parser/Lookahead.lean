import Bhasha.Proofs.Parser.Equations

/-! A parser decides by the tokens it takes and one more. When it succeeds, nothing after that token
matters (`Similar.stable`). When it refuses a token, nothing after that one matters, and without
that token it would have succeeded or asked for more (`Similar.fails`). -/

namespace Bhasha.Parser

variable {α β : Type} {b : Bool} {n : Nat}

theorem head?_append_congr {rest rest' : List Lexeme} (v : List Lexeme)
    (h : rest'.head? = rest.head?) : (v ++ rest').head? = (v ++ rest).head? := by
  cases v with
  | nil => exact h
  | cons l v => rfl

theorem eq_nil_or_cons_of_head? {ts us : List Lexeme} (h : us.head? = ts.head?) :
    (ts = [] ∧ us = []) ∨ ∃ l r r', ts = l :: r ∧ us = l :: r' := by
  cases ts with
  | nil => exact .inl ⟨rfl, List.head?_eq_none_iff.mp h⟩
  | cons l r =>
    obtain ⟨r', rfl⟩ := List.head?_eq_some_iff.mp h
    exact .inr ⟨l, r, r', rfl, rfl⟩

/-- Where two parsers that follow each other cut their input. -/
theorem Similar.split {p q : Parser α} {f g : α → Parser β} {c : Bool} {used rest mid : List Lexeme}
    {a : α} {r : Except ParseError β} (hp : Similar b n p q)
    (hf : ∀ a, Similar c (n - b.toNat) (f a) (g a)) (hn : (used ++ rest).length < n)
    (ha : p (used ++ rest) = (.ok a, mid)) (hr : f a mid = (r, rest)) :
    ∃ u v, used = u ++ v ∧ mid = v ++ rest ∧ b.toNat ≤ u.length := by
  have hl := hp.leaves _ hn
  have ht := hl.taken a mid ha
  obtain ⟨u, hu⟩ := hl.exists_append ha
  obtain ⟨v, rfl⟩ := ((hf a).leaves mid (by omega)).exists_append hr
  refine ⟨u, v, List.append_cancel_right (by rw [hu, List.append_assoc]), rfl, ?_⟩
  rw [hu] at ht
  simp only [List.length_append] at ht
  omega

theorem Similar.stable {p q : Parser α} (h : Similar b n p q) :
    ∀ {used rest rest' : List Lexeme} {a : α}, (used ++ rest).length < n →
      (used ++ rest').length < n → rest'.head? = rest.head? →
      p (used ++ rest) = (.ok a, rest) → p (used ++ rest') = (.ok a, rest') := by
  induction h with
  | zero => intro used rest rest' a hn; omega
  | congr _ hp _ ih =>
    intro used rest rest' a hn hn' hh ha
    rw [hp _ hn] at ha
    rw [hp _ hn']
    exact ih hn hn' hh ha
  | weaken _ ih => exact ih
  | pure a =>
    intro used rest rest' a' _ _ _ ha
    simp only [pure_apply, Prod.mk.injEq, Except.ok.injEq, List.append_left_eq_self] at ha ⊢
    exact ha
  | next x accept =>
    intro used rest rest' a _ _ _ ha
    obtain ⟨l, hl, hacc⟩ := next_eq_ok.mp ha
    obtain rfl : used = [l] := List.append_cancel_right (by rw [hl]; rfl)
    exact next_eq_ok.mpr ⟨l, rfl, hacc⟩
  | @opt _ _ _ _ accept f g hs _ ihs ihn =>
    intro used rest rest' c hn hn' hh hc
    cases used with
    | cons l u =>
      cases h : accept l.token with
      | none =>
        rw [List.cons_append, next?_bind_none f h] at hc ⊢
        exact ihn hn hn' hh hc
      | some a =>
        rw [List.cons_append, next?_bind_some f h] at hc ⊢
        exact ihs a (by simpa using hn) (by simpa using hn') hh hc
    | nil =>
      obtain ⟨rfl, rfl⟩ | ⟨l, r, r', rfl, rfl⟩ := eq_nil_or_cons_of_head? hh
      · exact hc
      · cases h : accept l.token with
        | none =>
          rw [List.nil_append, next?_bind_none f h] at hc ⊢
          exact ihn hn hn' hh hc
        | some a =>
          -- the token is gone, so it cannot be the first one left
          rw [List.nil_append, next?_bind_some f h] at hc
          have := ((hs a).leaves r (by simpa using hn)).taken c _ hc
          simp only [List.length_cons] at this
          omega
  | @seq _ _ b _ n p _ f _ hp hf ihp ihf =>
    intro used rest rest' c hn hn' hh hc
    obtain ⟨a, mid, ha, hr⟩ := bind_eq_ok.mp hc
    obtain ⟨u, v, rfl, rfl, hb⟩ := hp.split hf hn ha hr
    simp only [List.append_assoc, List.length_append] at ha hn hn' ⊢
    have h1 := ihp (by simp only [List.length_append]; omega)
      (by simp only [List.length_append]; omega) (head?_append_congr v hh) ha
    rw [bind_of_ok h1]
    exact ihf a (by rw [List.length_append]; omega) (by rw [List.length_append]; omega) hh hr
  | @dispatch _ _ _ x known f _ _ ih =>
    intro used rest rest' a hn hn' hh ha
    obtain ⟨he, he'⟩ | ⟨l, r, r', he, he'⟩ := eq_nil_or_cons_of_head? (head?_append_congr used hh)
    · rw [he] at ha; cases ha
    · cases h : known l.token with
      | false => rw [he, dispatch_unknown h] at ha; cases ha
      | true =>
        rw [he, dispatch_known h, ← he] at ha
        rw [he', dispatch_known h, ← he']
        exact ih l.token hn hn' hh ha
  | unlessClosed a _ ih =>
    intro used rest rest' a' hn hn' hh ha
    obtain ⟨he, he'⟩ | ⟨l, r, r', he, he'⟩ := eq_nil_or_cons_of_head? (head?_append_congr used hh)
    · simp_all
    · cases h : closesBlock l.token with
      | false =>
        rw [he, unlessClosed_open h, ← he] at ha
        rw [he', unlessClosed_open h, ← he']
        exact ih hn hn' hh ha
      | true =>
        rw [he, unlessClosed_closed h, ← he] at ha
        rw [he', unlessClosed_closed h, ← he']
        simp only [Prod.mk.injEq, List.append_left_eq_self] at ha ⊢
        exact ha

/-- The parser used up its input, and could stop there or asked for more. -/
def Open (r : Except ParseError α × List Lexeme) : Prop :=
  (∃ a, r = (.ok a, [])) ∨ ∃ x, r = (.error (.unexpectedEndOfInput x 0), [])

/-- How a parser fails: it ran out of tokens, or it refused the token `l`, whatever comes behind.
Without `l` it would not have failed so. -/
inductive Fails (n : Nat) (p : Parser α) : List Lexeme → ParseError → List Lexeme → Prop
  | ended {ts : List Lexeme} (x : Expected) : Fails n p ts (.unexpectedEndOfInput x 0) []
  | refused {x : Expected} (pre kept : List Lexeme) {post : List Lexeme} {l : Lexeme}
      (hk : kept = [] ∨ kept = [l])
      (ho : Open (p pre))
      (h : ∀ us, (pre ++ l :: us).length < n →
        p (pre ++ l :: us) = (.error (.unexpectedToken x l.token l.line), kept ++ us)) :
      Fails n p (pre ++ l :: post) (.unexpectedToken x l.token l.line) (kept ++ post)

/-- Failure of a parser that goes on as `p` does after a look at the first token. -/
theorem Fails.congr {p q : Parser α} {ts rest : List Lexeme} {e : ParseError}
    (h : Fails n p ts e rest) (hn : ts.length < n) (hnil : Open (q []))
    (he : ∀ us, us.length < n → us.head? = ts.head? → q us = p us) : Fails n q ts e rest := by
  cases h with
  | ended x => exact .ended x
  | @refused x pre kept post l hk ho h =>
    rw [List.length_append] at hn
    refine .refused _ kept hk ?_ fun us hus => ?_
    · cases pre with
      | nil => exact hnil
      | cons l' pre =>
        rw [he (l' :: pre) (by omega) rfl]
        exact ho
    · rw [he _ hus (head?_append_congr pre rfl)]
      exact h us hus

section

variable {p q : Parser α} {f g : α → Parser β} {c : Bool}

/-- What a parser does on the front of an input it does on the whole, unless it used the front
up. -/
theorem Similar.open_or (h : Similar b n p q)
    (hf : ∀ ts e rest, ts.length < n → p ts = (.error e, rest) → Fails n p ts e rest)
    {pre post : List Lexeme} (hn : (pre ++ post).length < n) :
    Open (p pre) ∨ (∃ a l rest, p (pre ++ post) = (.ok a, l :: rest ++ post)) ∨
      ∃ e rest, p (pre ++ post) = (.error e, rest) := by
  have hpre : pre.length < n := by
    rw [List.length_append] at hn
    omega
  rcases hr : p pre with ⟨e | a, rest⟩
  · cases hf pre e rest hpre hr with
    | ended x => exact .inl (.inr ⟨x, rfl⟩)
    | @refused x pre' kept post' l hk ho h =>
      rw [List.append_assoc, List.cons_append] at hn ⊢
      exact .inr (.inr ⟨_, _, h _ hn⟩)
  · cases rest with
    | nil => exact .inl (.inl ⟨a, rfl⟩)
    | cons l rest =>
      obtain ⟨used, rfl⟩ := (h.leaves pre hpre).exists_append hr
      refine .inr (.inl ⟨a, l, rest, ?_⟩)
      rw [List.append_assoc] at hn ⊢
      exact h.stable hpre hn rfl hr

theorem Similar.open_nil (h : Similar b n p q)
    (hf : ∀ ts e rest, ts.length < n → p ts = (.error e, rest) → Fails n p ts e rest)
    (hn : 0 < n) : Open (p []) := by
  rcases hr : p [] with ⟨e | a, rest⟩
  · generalize hts : ([] : List Lexeme) = ts at hr
    cases hf ts e rest (by simpa [← hts] using hn) hr with
    | ended x => exact .inr ⟨x, rfl⟩
    | refused hk ho h => simp at hts
  · obtain ⟨used, hu⟩ := (h.leaves [] hn).exists_append hr
    exact .inl ⟨a, by rw [(List.nil_eq_append_iff.mp hu).2]⟩

theorem Open.bind {pre : List Lexeme} (ho : Open (p pre))
    (hf : ∀ a, p pre = (.ok a, []) → Open (f a [])) : Open ((p >>= f) pre) := by
  obtain ⟨a, ha⟩ | ⟨x, hx⟩ := ho
  · rw [bind_of_ok ha]; exact hf a ha
  · exact .inr ⟨x, bind_of_error hx⟩

/-- If `p` succeeds past the front of its input, then on the front alone it stops there or asks for
more. -/
theorem Similar.open_front (h : Similar b n p q)
    (hf : ∀ ts e rest, ts.length < n → p ts = (.error e, rest) → Fails n p ts e rest)
    {pre post rest : List Lexeme} {a : α} (hn : (pre ++ post).length < n)
    (ha : p (pre ++ post) = (.ok a, rest)) (hr : rest.length ≤ post.length) : Open (p pre) := by
  obtain ho | ⟨a', l, rest', ha'⟩ | ⟨e, rest', he⟩ := h.open_or hf hn
  · exact ho
  · rw [ha] at ha'
    have := congrArg List.length (Prod.mk.inj ha').2
    simp only [List.cons_append, List.length_cons, List.length_append] at this
    omega
  · rw [ha] at he; cases he

end

theorem Similar.fails {p q : Parser α} (h : Similar b n p q) :
    ∀ ts e rest, ts.length < n → p ts = (.error e, rest) → Fails n p ts e rest := by
  induction h with
  | zero => intro ts e rest hn; omega
  | congr h hp _ ih =>
    intro ts e rest hn he
    rw [hp ts hn] at he
    have h0 : 0 < _ := Nat.lt_of_le_of_lt (Nat.zero_le _) hn
    exact (ih ts e rest hn he).congr hn (by rw [hp [] h0]; exact h.open_nil ih h0)
      fun us hus _ => hp us hus
  | weaken _ ih => exact ih
  | pure a => intro ts e rest _ he; cases he
  | next x accept =>
    intro ts e rest _ he
    cases ts with
    | nil => cases he; exact .ended x
    | cons l ts =>
      cases h : accept l.token with
      | some a => simp [Parser.next, h] at he
      | none =>
        simp only [Parser.next, h] at he
        cases he
        exact .refused [] [] (.inl rfl) (.inr ⟨x, rfl⟩) fun us _ => by simp [Parser.next, h]
  | @opt _ _ _ n accept f _ _ hn' ihs ihn =>
    intro ts e rest hn he
    have h0 : Open ((next? accept >>= f) []) := hn'.open_nil ihn (Nat.succ_pos n)
    cases ts with
    | nil =>
      refine (ihn [] e rest hn he).congr hn h0 fun us _ hus => ?_
      rw [List.head?_eq_none_iff.mp hus]
      rfl
    | cons l ts =>
      cases h : accept l.token with
      | none =>
        rw [next?_bind_none f h] at he
        refine (ihn _ e rest hn he).congr hn h0 fun us _ hus => ?_
        obtain ⟨us, rfl⟩ := List.head?_eq_some_iff.mp hus
        exact next?_bind_none f h us
      | some a =>
        rw [next?_bind_some f h] at he
        cases ihs a ts e rest (by simpa using hn) he with
        | ended x => exact .ended x
        | @refused x pre kept post l' hk ho hr =>
          refine .refused (l :: pre) kept hk ?_ fun us hus => ?_
          · rw [next?_bind_some f h]; exact ho
          · rw [List.cons_append, next?_bind_some f h]
            exact hr us (by simpa using hus)
  | @seq _ _ b c n p q f g hp hf ihp ihf =>
    intro ts e rest hn he
    have hnil : ∀ a, 0 < n - b.toNat → Open (f a []) := fun a h0 => (hf a).open_nil (ihf a) h0
    rcases hr : p ts with ⟨e' | a, mid⟩
    · rw [bind_of_error hr] at he
      cases he
      cases ihp ts e rest hn hr with
      | ended x => exact .ended x
      | @refused x pre kept post l hk ho h =>
        refine .refused _ kept hk (ho.bind fun a ha => hnil a ?_)
          fun us hus => bind_of_error (h us hus)
        simp only [List.length_append, List.length_cons] at hn
        have := (hp.leaves pre (by omega)).taken a [] ha
        omega
    · rw [bind_of_ok hr] at he
      have ht := (hp.leaves ts hn).taken a mid hr
      obtain ⟨u, rfl⟩ := (hp.leaves ts hn).exists_append hr
      have hlen := hn
      simp only [List.length_append] at hn ht
      cases ihf a mid e rest (by omega) he with
      | ended x => exact .ended x
      | @refused x pre kept post l hk ho h =>
        simp only [List.length_append, List.length_cons] at hn ht
        rw [← List.append_assoc]
        refine .refused _ kept hk ?_ fun us hus => ?_
        · cases pre with
          | nil =>
            rw [List.append_nil]
            exact (hp.open_front ihp hlen hr (Nat.le_refl _)).bind fun a _ => hnil a (by omega)
          | cons l' pre =>
            have h1 : p (u ++ l' :: pre) = (.ok a, l' :: pre) :=
              hp.stable hlen (by simp only [List.length_append, List.length_cons] at hn ⊢; omega)
                (by rfl) hr
            rw [bind_of_ok h1]
            exact ho
        · rw [List.append_assoc] at hus ⊢
          have h1 : p (u ++ (pre ++ l :: us)) = (.ok a, pre ++ l :: us) :=
            hp.stable hlen hus (by exact head?_append_congr pre rfl) hr
          rw [bind_of_ok h1]
          rw [List.length_append] at hus
          exact h us (by omega)
  | @dispatch _ _ n x known f _ hf ih =>
    intro ts e rest hn he
    have h0 : Open (Parser.dispatch x known f []) := .inr ⟨x, rfl⟩
    cases ts with
    | nil => cases he; exact .ended x
    | cons l ts =>
      cases h : known l.token with
      | false =>
        rw [dispatch_unknown h] at he
        cases he
        exact .refused [] [l] (.inr rfl) h0 fun us _ => dispatch_unknown h us
      | true =>
        rw [dispatch_known h] at he
        refine (ih l.token _ e rest hn he).congr hn h0 fun us _ hus => ?_
        obtain ⟨us, rfl⟩ := List.head?_eq_some_iff.mp hus
        exact dispatch_known h us
  | @unlessClosed _ n a p _ _ ih =>
    intro ts e rest hn he
    cases ts with
    | nil => cases he
    | cons l ts =>
      cases h : closesBlock l.token with
      | true => rw [unlessClosed_closed h] at he; cases he
      | false =>
        rw [unlessClosed_open h] at he
        refine (ih _ e rest hn he).congr hn (.inl ⟨a, rfl⟩) fun us _ hus => ?_
        obtain ⟨us, rfl⟩ := List.head?_eq_some_iff.mp hus
        exact unlessClosed_open h us

section

variable {p : Parser α} {ts rest : List Lexeme}

theorem Regular.leaves (h : Regular b p) (ts : List Lexeme) : Leaves b p ts :=
  (h (ts.length + 1)).leaves ts (Nat.lt_succ_self _)

theorem Regular.stable (h : Regular b p) {used rest' : List Lexeme} {a : α}
    (ha : p (used ++ rest) = (.ok a, rest)) (hh : rest'.head? = rest.head?) :
    p (used ++ rest') = (.ok a, rest') :=
  (h ((used ++ rest).length + (used ++ rest').length + 1)).stable (by omega) (by omega) hh ha

theorem Regular.extend (h : Regular b p) {a : α} {l : Lexeme} (ha : p ts = (.ok a, l :: rest))
    (us : List Lexeme) : p (ts ++ us) = (.ok a, l :: rest ++ us) := by
  obtain ⟨used, rfl⟩ := (h.leaves ts).exists_append ha
  rw [List.append_assoc]
  exact h.stable ha rfl

theorem Regular.open_front (h : Regular b p) {pre post : List Lexeme} {a : α}
    (ha : p (pre ++ post) = (.ok a, rest)) (hr : rest.length ≤ post.length) : Open (p pre) :=
  (h _).open_front (h _).fails (Nat.lt_succ_self _) ha hr

/-- No parser complains about tokens after the end; that is for `parse` to do. -/
theorem Regular.error_cases (h : Regular b p) {e : ParseError} (he : p ts = (.error e, rest)) :
    (∃ x, e = .unexpectedEndOfInput x 0 ∧ rest = []) ∨
      ∃ x t line, e = .unexpectedToken x t line := by
  cases (h (ts.length + 1)).fails ts e rest (Nat.lt_succ_self _) he with
  | ended x => exact .inl ⟨x, rfl, rfl⟩
  | refused => exact .inr ⟨_, _, _, rfl⟩

theorem cut_unique {pre pre' post post' : List Lexeme} {l l' : Lexeme}
    (h : pre ++ l :: post = pre' ++ l' :: post') (h1 : ∀ vs, pre' ≠ pre ++ l :: vs)
    (h2 : ∀ vs, pre ≠ pre' ++ l' :: vs) : pre = pre' ∧ l = l' ∧ post = post' := by
  obtain ⟨vs, rfl, hv⟩ | ⟨vs, rfl, hv⟩ := List.append_eq_append_iff.mp h <;> cases vs
  · simpa using hv
  · cases hv; exact absurd rfl (h1 _)
  · simpa [eq_comm] using hv
  · cases hv; exact absurd rfl (h2 _)

theorem Open.not_refused {pre kept : List Lexeme} {x : Expected} {t : Token} {line : Nat}
    (ho : Open (p pre)) : p pre ≠ (.error (.unexpectedToken x t line), kept) := by
  obtain ⟨a, ha⟩ | ⟨y, hy⟩ := ho
  · rw [ha]; simp
  · rw [hy]; simp

/-- The token where a parser gives up, found on inputs of any length. The input in front of it is
the longest one that the parser does not refuse, so the bound has no say in it. -/
theorem Regular.refused (h : Regular b p) {x : Expected} {t : Token} {line : Nat}
    (he : p ts = (.error (.unexpectedToken x t line), rest)) :
    ∃ pre l post kept, ts = pre ++ l :: post ∧ t = l.token ∧ line = l.line ∧
      (kept = [] ∨ kept = [l]) ∧ rest = kept ++ post ∧ Open (p pre) ∧
      ∀ us, p (pre ++ l :: us) = (.error (.unexpectedToken x l.token l.line), kept ++ us) := by
  have found : ∀ n, ts.length < n → ∃ pre l post kept, ts = pre ++ l :: post ∧ t = l.token ∧
      line = l.line ∧ (kept = [] ∨ kept = [l]) ∧ rest = kept ++ post ∧ Open (p pre) ∧
      ∀ us, (pre ++ l :: us).length < n →
        p (pre ++ l :: us) = (.error (.unexpectedToken x l.token l.line), kept ++ us) := by
    intro n hn
    generalize hq : ParseError.unexpectedToken x t line = e at he
    cases (h n).fails ts e rest hn he with
    | ended y => cases hq
    | @refused y pre kept post l hk ho h =>
      cases hq
      exact ⟨pre, l, post, kept, rfl, rfl, rfl, hk, rfl, ho, h⟩
  obtain ⟨pre, l, post, kept, rfl, rfl, rfl, hk, rfl, ho, hp⟩ := found _ (Nat.lt_succ_self _)
  refine ⟨pre, l, post, kept, rfl, rfl, rfl, hk, rfl, ho, fun us => ?_⟩
  obtain ⟨pre', l', post', kept', hts, ht, hl, hk', hr, ho', hp'⟩ :=
    found ((pre ++ l :: post).length + (pre ++ l :: us).length + 1) (by omega)
  have hpre' : pre'.length < (pre ++ l :: post).length + 1 := by
    rw [hts, List.length_append]
    omega
  have hpre : pre.length < (pre ++ l :: post).length + (pre ++ l :: us).length + 1 := by
    rw [List.length_append]
    omega
  obtain ⟨rfl, rfl, rfl⟩ := cut_unique hts
    (fun vs hv => ho'.not_refused (hv ▸ hp vs (by rwa [hv] at hpre')))
    (fun vs hv => ho.not_refused (hv ▸ hp' vs (by rwa [← hv])))
  obtain rfl := List.append_cancel_right hr
  exact hp' us (by omega)

end

end Bhasha.Parser
