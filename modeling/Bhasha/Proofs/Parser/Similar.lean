import Bhasha.Proofs.Parser.Steps

/-! Two parsers are similar when they are put together from the same steps and differ at most in the
bounds they carry. On inputs below the bounds similar parsers agree (`Similar.agree`), and what they
leave is the end of their input (`Similar.leaves`). -/

namespace Bhasha.Parser

/-- Two parsers made of the same steps, on inputs of fewer than `n` tokens. With `b`, they take a
token whenever they succeed. -/
inductive Similar : {α : Type} → Bool → Nat → Parser α → Parser α → Prop
  | zero {α} {b} {p q : Parser α} : Similar b 0 p q
  | congr {α} {b n} {p q p' q' : Parser α} (h : Similar b n p q)
      (hp : ∀ ts, ts.length < n → p' ts = p ts) (hq : ∀ ts, ts.length < n → q' ts = q ts) :
      Similar b n p' q'
  | weaken {α} {n} {p q : Parser α} (h : Similar true n p q) : Similar false n p q
  | pure {α} {n} (a : α) : Similar false n (pure a) (pure a)
  | next {α} {n} (expected : Expected) (accept : Token → Option α) :
      Similar true n (next expected accept) (next expected accept)
  | opt {α β} {b n} {accept : Token → Option α} {f g : Option α → Parser β}
      (hs : ∀ a, Similar false n (f (some a)) (g (some a)))
      (hn : Similar b (n + 1) (f none) (g none)) :
      Similar b (n + 1) (next? accept >>= f) (next? accept >>= g)
  | seq {α β} {b c n} {p q : Parser α} {f g : α → Parser β} (hp : Similar b n p q)
      (hf : ∀ a, Similar c (n - b.toNat) (f a) (g a)) : Similar (b || c) n (p >>= f) (q >>= g)
  | dispatch {α} {b n} (expected : Expected) (known : Token → Bool) {f g : Token → Parser α}
      (hf : ∀ t, Similar b n (f t) (g t)) :
      Similar b n (dispatch expected known f) (dispatch expected known g)
  | unlessClosed {α} {n} (a : α) {p q : Parser α} (hp : Similar false n p q) :
      Similar false n (unlessClosed a p) (unlessClosed a q)

variable {α β : Type} {b : Bool} {m n k : Nat}

namespace Similar

theorem any {p q : Parser α} (h : Similar b n p q) : Similar false n p q := by
  cases b with
  | false => exact h
  | true => exact h.weaken

theorem mono {p q : Parser α} (h : Similar b n p q) (hm : m ≤ n) : Similar b m p q := by
  induction h generalizing m with
  | zero => rw [Nat.le_zero.mp hm]; exact .zero
  | congr _ hp hq ih =>
    exact .congr (ih hm) (fun ts h => hp ts (by omega)) fun ts h => hq ts (by omega)
  | weaken _ ih => exact (ih hm).weaken
  | pure a => exact .pure a
  | next x f => exact .next x f
  | opt _ _ ihs ihn =>
    cases m with
    | zero => exact .zero
    | succ m => exact .opt (fun a => ihs a (by omega)) (ihn hm)
  | seq _ _ ihp ihf => exact .seq (ihp hm) fun a => ihf a (by omega)
  | dispatch x known _ ih => exact .dispatch x known fun t => ih t hm
  | unlessClosed a _ ih => exact .unlessClosed a (ih hm)

theorem right {p q : Parser α} (h : Similar b n p q) : Similar b n q q := by
  induction h with
  | zero => exact .zero
  | congr _ _ hq ih => exact .congr ih hq hq
  | weaken _ ih => exact ih.weaken
  | pure a => exact .pure a
  | next x f => exact .next x f
  | opt _ _ ihs ihn => exact .opt ihs ihn
  | seq _ _ ihp ihf => exact .seq ihp ihf
  | dispatch x known _ ih => exact .dispatch x known ih
  | unlessClosed a _ ih => exact .unlessClosed a ih

theorem bind {p q : Parser α} {f g : α → Parser β} (hp : Similar false n p q)
    (hf : ∀ a, Similar b n (f a) (g a)) : Similar b n (p >>= f) (q >>= g) := by
  rw [← Bool.false_or b]; exact .seq hp hf

/-- What follows a parser that takes a token sees a shorter input. -/
theorem take {p q : Parser α} {f g : α → Parser β} (hp : Similar true (n + 1) p q)
    (hf : ∀ a, Similar false n (f a) (g a)) : Similar true (n + 1) (p >>= f) (q >>= g) :=
  .seq hp hf

/-- As `take`, when what follows need not know it. -/
theorem first {p q : Parser α} {f g : α → Parser β} (hp : Similar true n p q)
    (hf : ∀ a, Similar false n (f a) (g a)) : Similar true n (p >>= f) (q >>= g) :=
  .seq hp fun a => (hf a).mono (Nat.sub_le _ _)

theorem optional {accept : Token → Option α} {f g : Option α → Parser β}
    (hs : ∀ a, Similar false n (f (some a)) (g (some a))) (hn : Similar b n (f none) (g none)) :
    Similar b n (next? accept >>= f) (next? accept >>= g) := by
  cases n with
  | zero => exact .zero
  | succ n => exact .opt (fun a => (hs a).mono (by omega)) hn

end Similar

/-- What a parser leaves is the end of its input. With `b`, it has taken a token if it succeeds. -/
structure Leaves (b : Bool) (p : Parser α) (ts : List Lexeme) : Prop where
  suffix : (p ts).2 <:+ ts
  taken : ∀ a rest, p ts = (.ok a, rest) → rest.length + b.toNat ≤ ts.length

theorem Leaves.exists_append {p : Parser α} {ts rest : List Lexeme} {r : Except ParseError α}
    (h : Leaves b p ts) (hr : p ts = (r, rest)) : ∃ used, ts = used ++ rest := by
  obtain ⟨used, hu⟩ := h.suffix
  exact ⟨used, by rw [← hu, hr]⟩

theorem Leaves.congr {p q : Parser α} {ts : List Lexeme} (h : Leaves b q ts) (he : p ts = q ts) :
    Leaves b p ts :=
  ⟨he ▸ h.suffix, fun a rest hr => h.taken a rest (he ▸ hr)⟩

theorem Leaves.bind {p : Parser α} {f : α → Parser β} {ts : List Lexeme} {c : Bool}
    (hp : Leaves b p ts) (hf : ∀ a mid, p ts = (.ok a, mid) → Leaves c (f a) mid) :
    Leaves (b || c) (p >>= f) ts := by
  have hs := hp.suffix
  rcases h : p ts with ⟨e | a, mid⟩ <;> rw [h] at hs
  · exact ⟨by rw [bind_of_error h]; exact hs, by simp [bind_of_error h]⟩
  · have hf := hf a mid h
    have hlen := hp.taken a mid h
    refine ⟨by rw [bind_of_ok h]; exact hf.suffix.trans hs, fun d rest hd => ?_⟩
    rw [bind_of_ok h] at hd
    have hlen' := hf.taken d rest hd
    have hbc : (b || c).toNat ≤ b.toNat + c.toNat := by cases b <;> cases c <;> decide
    omega

namespace Similar

theorem leaves {p q : Parser α} (h : Similar b n p q) :
    ∀ ts : List Lexeme, ts.length < n → Leaves b p ts := by
  induction h with
  | zero => intro ts h; omega
  | congr _ hp _ ih => intro ts h; exact (ih ts h).congr (hp ts h)
  | weaken _ ih =>
    intro ts h
    exact ⟨(ih ts h).suffix, fun a rest hr => Nat.le_of_succ_le ((ih ts h).taken a rest hr)⟩
  | pure a => intro ts _; exact ⟨List.suffix_refl ts, by simp⟩
  | next x accept =>
    intro ts _
    refine ⟨?_, fun a rest h => ?_⟩
    · cases ts with
      | nil => exact List.suffix_refl _
      | cons l ts => cases h : accept l.token <;> simp [Parser.next, h]
    · obtain ⟨l, rfl, -⟩ := next_eq_ok.mp h
      simp
  | @opt _ _ b _ accept f _ _ _ ihs ihn =>
    intro ts hts
    cases ts with
    | nil => exact (ihn [] hts).congr rfl
    | cons l ts =>
      cases h : accept l.token with
      | none => exact (ihn (l :: ts) hts).congr (next?_bind_none f h ts)
      | some a =>
        have := ihs a ts (by simpa using hts)
        have he := next?_bind_some f h ts
        refine ⟨he ▸ this.suffix.trans (List.suffix_cons l ts), fun c rest hc => ?_⟩
        have := this.taken c rest (he.symm.trans hc)
        have hb := Bool.toNat_le b
        rw [List.length_cons]
        omega
  | seq _ _ ihp ihf =>
    intro ts hts
    refine (ihp ts hts).bind fun a mid h => ihf a mid ?_
    have := (ihp ts hts).taken a mid h
    omega
  | @dispatch _ _ _ x known f _ _ ih =>
    intro ts hts
    cases ts with
    | nil => exact ⟨List.suffix_refl _, by simp [Parser.dispatch]⟩
    | cons l ts =>
      cases h : known l.token with
      | false => exact ⟨by simp [dispatch_unknown h], by simp [dispatch_unknown h]⟩
      | true => exact (ih l.token (l :: ts) hts).congr (dispatch_known h ts)
  | unlessClosed a _ ih =>
    intro ts hts
    cases ts with
    | nil => exact ⟨List.suffix_refl _, by simp [Parser.unlessClosed]⟩
    | cons l ts =>
      cases h : closesBlock l.token with
      | true => exact ⟨by simp [unlessClosed_closed h], by simp +contextual [unlessClosed_closed h]⟩
      | false => exact (ih (l :: ts) hts).congr (unlessClosed_open h ts)

/-- Similar parsers give the same result. -/
theorem agree {p q : Parser α} (h : Similar b n p q) :
    ∀ ts : List Lexeme, ts.length < n → p ts = q ts := by
  induction h with
  | zero => intro ts h; omega
  | congr _ hp hq ih => intro ts h; rw [hp ts h, hq ts h, ih ts h]
  | weaken _ ih => exact ih
  | pure a => intros; rfl
  | next x accept => intros; rfl
  | @opt _ _ _ _ accept f g _ _ ihs ihn =>
    intro ts hts
    cases ts with
    | nil => exact ihn [] hts
    | cons l ts =>
      cases h : accept l.token with
      | none => rw [next?_bind_none f h, next?_bind_none g h, ihn _ hts]
      | some a => rw [next?_bind_some f h, next?_bind_some g h, ihs a ts (by simpa using hts)]
  | @seq _ _ _ _ _ p q f g hp _ ihp ihf =>
    intro ts hts
    rcases h : p ts with ⟨e | a, mid⟩
    · rw [bind_of_error h, bind_of_error ((ihp ts hts).symm.trans h)]
    · have := (hp.leaves ts hts).taken a mid h
      rw [bind_of_ok h, bind_of_ok ((ihp ts hts).symm.trans h), ihf a mid (by omega)]
  | dispatch x known _ ih =>
    intro ts hts
    cases ts with
    | nil => rfl
    | cons l ts => simp only [Parser.dispatch, ih l.token _ hts]
  | unlessClosed a _ ih =>
    intro ts hts
    cases ts with
    | nil => rfl
    | cons l ts => simp only [Parser.unlessClosed, ih _ hts]

/-- A parser that takes its bound from the number of tokens is like one with any larger bound. -/
theorem unbound {p : Parser α} {F : Nat → Parser α}
    (h : ∀ j m, j ≤ n → j ≤ m → Similar b j p (F m)) :
    Similar b n p fun ts => F (ts.length + 1) ts := by
  refine .congr (h n n (Nat.le_refl n) (Nat.le_refl n)) (fun _ _ => rfl) fun ts hts => ?_
  have h1 := (h (ts.length + 1) (ts.length + 1) hts (Nat.le_refl _)).agree ts (Nat.lt_succ_self _)
  have h2 := (h (ts.length + 1) n hts hts).agree ts (Nat.lt_succ_self _)
  exact h1.symm.trans h2

/-- The equation of such a parser follows from what it does with a bound in hand. -/
theorem unbound_eq {F : Nat → Parser α} {q : Parser α}
    (h : ∀ n, Similar b (n + 1) (F (n + 1)) q) : (fun ts => F (ts.length + 1) ts) = q :=
  funext fun ts => (h ts.length).agree ts (Nat.lt_succ_self _)

end Similar

/-- A parser put together from the steps that `Similar` knows. -/
def Regular (b : Bool) (p : Parser α) : Prop := ∀ n, Similar b n p p

end Bhasha.Parser
