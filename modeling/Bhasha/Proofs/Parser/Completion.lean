import Bhasha.Proofs.Parser.Lookahead

/-! Whatever a parser has read when it runs out of tokens, some tokens finish it. `Completes G F p`
says so of `p` before an input in `F`, and that the tokens which finish a fresh `p` put it behind a
parser that is followed by an input in `G`. -/

namespace Bhasha.Parser

variable {α β : Type} {b : Bool} {m n : Nat} {F G H : List Lexeme → Prop}

/-- No condition on the input that follows. -/
def Anything (_ : List Lexeme) : Prop := True

structure Completes (n : Nat) (G F : List Lexeme → Prop) (p : Parser α) : Prop where
  /-- The parser can be run from nothing. -/
  start : ∃ ws a, ∀ vs, F vs → G (ws ++ vs) ∧ p (ws ++ vs) = (.ok a, vs)
  /-- The parser can be finished where it ran out. -/
  resume : ∀ ts x rest, ts.length < n → p ts = (.error (.unexpectedEndOfInput x 0), rest) →
    ∃ us a, ∀ vs, F vs → p (ts ++ (us ++ vs)) = (.ok a, vs)
  /-- The end of the input is as good as anything in `F`. -/
  stop : ∀ ts a, ts.length < n → p ts = (.ok a, []) → ∀ vs, F vs → p (ts ++ vs) = (.ok a, vs)
  /-- A parser that may take nothing lets through what may follow. -/
  skip : ∀ a, p [] = (.ok a, []) → ∀ vs, F vs → G vs

namespace Completes

theorem mono {p : Parser α} (h : Completes n G F p) (hm : m ≤ n) : Completes m G F p where
  start := h.start
  resume := fun ts x rest hts => h.resume ts x rest (by omega)
  stop := fun ts a hts => h.stop ts a (by omega)
  skip := h.skip

theorem weaken {p : Parser α} (h : Completes n G F p) (hG : ∀ vs, G vs → H vs) :
    Completes n H F p where
  start := by
    obtain ⟨ws, a, hw⟩ := h.start
    exact ⟨ws, a, fun vs hv => ⟨hG _ (hw vs hv).1, (hw vs hv).2⟩⟩
  resume := h.resume
  stop := h.stop
  skip := fun a ha vs hv => hG vs (h.skip a ha vs hv)

theorem any {p : Parser α} (h : Completes n G F p) : Completes n Anything F p :=
  h.weaken fun _ _ => trivial

/-- What can be finished before anything can be finished before an input in `F`. -/
theorem before {p : Parser α} (h : Completes n G Anything p) : Completes n G F p where
  start := by
    obtain ⟨ws, a, hw⟩ := h.start
    exact ⟨ws, a, fun vs _ => hw vs trivial⟩
  resume := fun ts x rest hts he => by
    obtain ⟨us, a, hu⟩ := h.resume ts x rest hts he
    exact ⟨us, a, fun vs _ => hu vs trivial⟩
  stop := fun ts a hts ha vs _ => h.stop ts a hts ha vs trivial
  skip := fun a ha vs _ => h.skip a ha vs trivial

/-- Nothing more is asked of a parser on no input. -/
protected theorem zero {p : Parser α} (hr : Regular true p)
    (hp : ∃ ws a, ∀ vs, F vs → G (ws ++ vs) ∧ p (ws ++ vs) = (.ok a, vs)) : Completes 0 G F p where
  start := hp
  resume := fun ts x rest h => by omega
  stop := fun ts a h => by omega
  skip := fun a ha => by have := (hr.leaves []).taken a [] ha; simp at this

protected theorem pure (a : α) (h : ∀ vs, F vs → G vs) : Completes n G F (pure a : Parser α) where
  start := ⟨[], a, fun vs hv => ⟨h vs hv, rfl⟩⟩
  resume := fun ts x rest _ he => by cases he
  stop := fun ts a' _ ha vs _ => by
    obtain ⟨rfl, rfl⟩ : a = a' ∧ ts = [] := by simpa using ha
    rfl
  skip := fun _ _ => h

protected theorem next {expected : Expected} {accept : Token → Option α} {t : Token} {a : α}
    (h : accept t = some a) (hG : ∀ vs, G (⟨t, 0⟩ :: vs)) :
    Completes n G F (next expected accept) where
  start := ⟨[⟨t, 0⟩], a, fun vs _ => ⟨hG vs, next_eq_ok.mpr ⟨_, rfl, h⟩⟩⟩
  resume := fun ts x rest _ he => by
    cases ts with
    | nil => exact ⟨[⟨t, 0⟩], a, fun vs _ => next_eq_ok.mpr ⟨_, rfl, h⟩⟩
    | cons l ts => cases hl : accept l.token <;> simp [Parser.next, hl] at he
  stop := fun ts a' _ ha vs _ => by
    obtain ⟨l, rfl, hl⟩ := next_eq_ok.mp ha
    exact next_eq_ok.mpr ⟨l, rfl, hl⟩
  skip := fun a' ha => by cases ha

/-- One parser after another. What starts the second may follow the first. -/
protected theorem bind {p : Parser α} {f : α → Parser β} (hr : Regular b p) (hp : Completes n G H p)
    (hf : ∀ a, Completes (n - b.toNat) H F (f a)) : Completes n G F (p >>= f) where
  start := by
    obtain ⟨ws, a, hw⟩ := hp.start
    obtain ⟨us, c, hu⟩ := (hf a).start
    refine ⟨ws ++ us, c, fun vs hv => ?_⟩
    obtain ⟨hH, hc⟩ := hu vs hv
    obtain ⟨hG, ha⟩ := hw (us ++ vs) hH
    rw [List.append_assoc, bind_of_ok ha]
    exact ⟨hG, hc⟩
  resume := by
    intro ts x rest hts he
    rcases h : p ts with ⟨e | a, mid⟩
    · rw [bind_of_error h] at he
      cases he
      obtain ⟨us, a, hu⟩ := hp.resume ts x rest hts h
      obtain ⟨ws, c, hw⟩ := (hf a).start
      refine ⟨us ++ ws, c, fun vs hv => ?_⟩
      rw [List.append_assoc, bind_of_ok (hu (ws ++ vs) (hw vs hv).1)]
      exact (hw vs hv).2
    · rw [bind_of_ok h] at he
      cases mid with
      | nil =>
        obtain ⟨ws, c, hw⟩ := (hf a).start
        refine ⟨ws, c, fun vs hv => ?_⟩
        rw [bind_of_ok (hp.stop ts a hts h (ws ++ vs) (hw vs hv).1)]
        exact (hw vs hv).2
      | cons l mid =>
        have ht := (hr.leaves ts).taken a _ h
        obtain ⟨us, c, hu⟩ := (hf a).resume (l :: mid) x rest (by omega) he
        refine ⟨us, c, fun vs hv => ?_⟩
        rw [bind_of_ok (hr.extend h _)]
        exact hu vs hv
  stop := by
    intro ts c hts hc vs hv
    obtain ⟨a, mid, h, hc⟩ := bind_eq_ok.mp hc
    have ht := (hr.leaves ts).taken a _ h
    have hs := (hf a).stop mid c (by omega) hc vs hv
    cases mid with
    | nil => rwa [bind_of_ok (hp.stop ts a hts h vs ((hf a).skip c hc vs hv))]
    | cons l mid => rwa [bind_of_ok (hr.extend h vs)]
  skip := by
    intro c hc vs hv
    obtain ⟨a, mid, h, hc⟩ := bind_eq_ok.mp hc
    obtain ⟨used, hu⟩ := (hr.leaves []).exists_append h
    obtain rfl := (List.nil_eq_append_iff.mp hu).2
    exact hp.skip a h vs ((hf a).skip c hc vs hv)

theorem opt {accept : Token → Option α} {f : Option α → Parser β}
    (hs : ∀ a, Completes (n - 1) Anything F (f (some a))) (hn : Completes n H F (f none))
    (hH : ∀ vs, H vs → G vs ∧ Clear accept vs) : Completes n G F (next? accept >>= f) := by
  have pass : ∀ vs, H vs → (next? accept >>= f) vs = f none vs :=
    fun vs hv => (hH vs hv).2.next?_bind f
  refine ⟨?_, ?_, ?_, fun c hc vs hv => (hH vs (hn.skip c hc vs hv)).1⟩
  · obtain ⟨ws, c, hw⟩ := hn.start
    refine ⟨ws, c, fun vs hv => ⟨(hH _ (hw vs hv).1).1, ?_⟩⟩
    rw [pass _ (hw vs hv).1]
    exact (hw vs hv).2
  · intro ts x rest hts he
    cases ts with
    | nil =>
      obtain ⟨ws, c, hw⟩ := hn.start
      refine ⟨ws, c, fun vs hv => ?_⟩
      rw [List.nil_append, pass _ (hw vs hv).1]
      exact (hw vs hv).2
    | cons l ts =>
      cases h : accept l.token with
      | none =>
        rw [next?_bind_none f h] at he
        obtain ⟨us, c, hu⟩ := hn.resume _ x rest hts he
        exact ⟨us, c, fun vs hv => (next?_bind_none f h _).trans (hu vs hv)⟩
      | some a =>
        rw [next?_bind_some f h] at he
        rw [List.length_cons] at hts
        obtain ⟨us, c, hu⟩ := (hs a).resume _ x rest (by omega) he
        exact ⟨us, c, fun vs hv => (next?_bind_some f h _).trans (hu vs hv)⟩
  · intro ts c hts hc vs hv
    cases ts with
    | nil =>
      rw [List.nil_append, pass vs (hn.skip c hc vs hv)]
      exact hn.stop [] c hts hc vs hv
    | cons l ts =>
      cases h : accept l.token with
      | none =>
        rw [next?_bind_none f h] at hc
        exact (next?_bind_none f h _).trans (hn.stop _ c hts hc vs hv)
      | some a =>
        rw [next?_bind_some f h] at hc
        rw [List.length_cons] at hts
        exact (next?_bind_some f h _).trans ((hs a).stop _ c (by omega) hc vs hv)

theorem next_bind {expected : Expected} {accept : Token → Option α} {f : α → Parser β} {t : Token}
    {a : α} (h : accept t = some a) (hG : ∀ vs, G (⟨t, 0⟩ :: vs))
    (hf : ∀ a, Completes (n - 1) Anything F (f a)) : Completes n G F (next expected accept >>= f) :=
  .bind (fun _ => .next _ _) (.next h hG) hf

theorem expect_bind {f : Unit → Parser β} (t : Token) (hG : ∀ vs, G (⟨t, 0⟩ :: vs))
    (hf : Completes (n - 1) Anything F (f ())) : Completes n G F (expect t >>= f) :=
  .next_bind (if_pos rfl) hG fun _ => hf

protected theorem dispatch {expected : Expected} {known : Token → Bool} {f : Token → Parser α}
    (hstart : ∃ ws a, ∀ vs, F vs →
      G (ws ++ vs) ∧ dispatch expected known f (ws ++ vs) = (.ok a, vs))
    (hf : ∀ t, Completes n Anything F (f t)) : Completes n G F (dispatch expected known f) where
  start := hstart
  resume := by
    intro ts x rest hts he
    cases ts with
    | nil =>
      obtain ⟨ws, a, hw⟩ := hstart
      exact ⟨ws, a, fun vs hv => (hw vs hv).2⟩
    | cons l ts =>
      cases h : known l.token with
      | false => rw [dispatch_unknown h] at he; cases he
      | true =>
        rw [dispatch_known h] at he
        obtain ⟨us, a, hu⟩ := (hf l.token).resume _ x rest hts he
        exact ⟨us, a, fun vs hv => (dispatch_known h _).trans (hu vs hv)⟩
  stop := by
    intro ts a hts ha vs hv
    cases ts with
    | nil => cases ha
    | cons l ts =>
      cases h : known l.token with
      | false => rw [dispatch_unknown h] at ha; cases ha
      | true =>
        rw [dispatch_known h] at ha
        exact (dispatch_known h _).trans ((hf l.token).stop _ a hts ha vs hv)
  skip := fun a ha => by cases ha

protected theorem unlessClosed {a : α} {p : Parser α}
    (hF : ∀ vs, F vs → G vs ∧ ∀ l ∈ vs.head?, closesBlock l.token = true)
    (hp : Completes n Anything F p) : Completes n G F (unlessClosed a p) := by
  have pass : ∀ vs, F vs → unlessClosed a p vs = (.ok a, vs) :=
    fun vs hv => unlessClosed_of_head (hF vs hv).2
  refine ⟨⟨[], a, fun vs hv => ⟨(hF vs hv).1, pass vs hv⟩⟩, ?_, ?_, fun _ _ vs hv => (hF vs hv).1⟩
  · intro ts x rest hts he
    cases ts with
    | nil => cases he
    | cons l ts =>
      cases h : closesBlock l.token with
      | true => rw [unlessClosed_closed h] at he; cases he
      | false =>
        rw [unlessClosed_open h] at he
        obtain ⟨us, c, hu⟩ := hp.resume _ x rest hts he
        exact ⟨us, c, fun vs hv => (unlessClosed_open h _).trans (hu vs hv)⟩
  · intro ts c hts hc vs hv
    cases ts with
    | nil => cases hc; exact pass vs hv
    | cons l ts =>
      cases h : closesBlock l.token with
      | true => rw [unlessClosed_closed h] at hc; cases hc
      | false =>
        rw [unlessClosed_open h] at hc
        exact (unlessClosed_open h _).trans (hp.stop _ c hts hc vs hv)

end Completes

/-- What may follow a complete expression. -/
def AfterExpr (vs : List Lexeme) : Prop := Clear (only .leftParen) vs ∧ Clear arithmetic vs

theorem tail_of_clear {vs : List Lexeme} (left : Expr) (h : Clear arithmetic vs) :
    tail left vs = (.ok left, vs) := by
  rw [tail_eq, h.next?_bind]
  rfl

theorem expression_starts (hG : ∀ vs, G (⟨.number "0", 0⟩ :: vs)) :
    ∃ ws e, ∀ vs, AfterExpr vs → G (ws ++ vs) ∧ expression (ws ++ vs) = (.ok e, vs) := by
  refine ⟨[⟨.number "0", 0⟩], .number "0", fun vs hv => ⟨hG vs, ?_⟩⟩
  rw [expression_eq]
  exact tail_of_clear _ hv.2

theorem completes_separated {p : Parser α} (hr : Regular true p) (hp : Completes n G H p)
    (hG : ∀ vs, H (⟨.rightParen, 0⟩ :: vs)) : Completes n G F (separated p .rightParen) := by
  have hstart : ∃ ws as, ∀ vs, F vs →
      G (ws ++ vs) ∧ separated p .rightParen (ws ++ vs) = (.ok as, vs) := by
    obtain ⟨ws, a, hw⟩ := hp.start
    refine ⟨ws ++ [⟨.rightParen, 0⟩], [a], fun vs _ => ?_⟩
    obtain ⟨hG, ha⟩ := hw (⟨.rightParen, 0⟩ :: vs) (hG vs)
    rw [List.append_assoc, separated_eq .rightParen hr]
    exact ⟨hG, bind_of_ok ha⟩
  induction n with
  | zero => exact .zero (regular_separated hr) hstart
  | succ n ih =>
    rw [separated_eq .rightParen hr]
    refine .bind hr hp fun first => .next_bind (a := false) (t := .rightParen) rfl hG fun more => ?_
    cases more with
    | false => exact .pure _ fun _ _ => trivial
    | true =>
      have h := ih (hp.mono (Nat.le_succ n))
      exact .bind (regular_separated hr) (h.mono (Nat.sub_le _ _)).any fun _ =>
        .pure _ fun _ h => h

theorem completes_listed {p : Parser α} (hr : Regular true p)
    (hp : Completes n (Clear (only .rightParen)) H p) (hH : ∀ vs, H (⟨.rightParen, 0⟩ :: vs)) :
    Completes n Anything F (listed p .rightParen) :=
  .opt (fun _ => .pure _ fun _ _ => trivial) (completes_separated hr hp hH) fun _ h => ⟨trivial, h⟩

theorem completes_primary (hG : ∀ vs, G (⟨.number "0", 0⟩ :: vs))
    (h : ∀ {G}, (∀ vs, G (⟨.number "0", 0⟩ :: vs)) → Completes n G AfterExpr expression) :
    Completes (n + 1) G (Clear (only .leftParen)) primary := by
  have closed : ∀ vs, AfterExpr (⟨.rightParen, 0⟩ :: vs) := by
    intro vs
    simp [AfterExpr, Clear, only, arithmetic]
  refine .next_bind (t := .number "0") rfl hG fun o => ?_
  cases o with
  | literal e => exact .pure e fun _ _ => trivial
  | name name =>
    have hargs : Completes n Anything Anything (listed expression .rightParen) :=
      completes_listed regular_expression (h (by simp [Clear, only])) closed
    refine .opt (fun _ => ?_) (.pure _ fun _ h => h) fun _ h => ⟨trivial, h⟩
    exact .bind (regular_listed regular_expression) (hargs.mono (Nat.sub_le _ _)) fun _ =>
      .pure _ fun _ _ => trivial
  | group =>
    exact .bind regular_expression (h fun _ => trivial) fun e =>
      .expect_bind .rightParen closed (.pure e fun _ _ => trivial)

theorem completes_tail (h : Completes n Anything (Clear (only .leftParen)) primary) (left : Expr) :
    Completes n (Clear (only .leftParen)) AfterExpr (tail left) := by
  induction n generalizing left with
  | zero =>
    exact ⟨⟨[], left, fun vs hv => ⟨hv.1, tail_of_clear left hv.2⟩⟩, fun _ _ _ h => by omega,
      fun _ _ h => by omega, fun _ _ _ hv => hv.1⟩
  | succ n ih =>
    have h' := h.mono (Nat.le_succ n)
    rw [tail_eq]
    refine .opt (fun op => ?_) (.pure left fun _ hv => hv) fun vs hv => hv
    exact .bind regular_primary h' fun right => (ih h' _).mono (Nat.sub_le _ _)

theorem completes_expression (hG : ∀ vs, G (⟨.number "0", 0⟩ :: vs)) :
    Completes n G AfterExpr expression := by
  induction n generalizing G with
  | zero => exact .zero regular_expression (expression_starts hG)
  | succ n ih =>
    have hp := completes_primary hG ih
    rw [expression_eq]
    exact .bind regular_primary hp fun left => completes_tail (hp.any.mono (Nat.sub_le _ _)) left

/-- What may follow a block that is to be finished. An `else` is left out: it could belong to a
conditional inside. -/
def AfterBlock (vs : List Lexeme) : Prop :=
  ∀ l ∈ vs.head?, l.token = .endLoop ∨ l.token = .rightBrace

theorem completes_binding (hG : ∀ vs, G (⟨.identifier "x", 0⟩ :: vs)) :
    Completes n G AfterExpr binding :=
  .next_bind (a := "x") (t := .identifier "x") rfl hG fun _ =>
    .expect_bind _ (fun _ => trivial) <| .bind regular_expression
      (completes_expression fun _ => trivial) fun _ => .pure _ fun _ hv => hv

theorem afterExpr_semicolon (vs : List Lexeme) : AfterExpr (⟨.semicolon, 0⟩ :: vs) := by
  simp [AfterExpr, Clear, only, arithmetic]

theorem completes_declaration : Completes n Anything Anything declaration :=
  .expect_bind _ (fun _ => trivial) <| .bind regular_binding
    (completes_binding fun _ => trivial) fun _ =>
      .expect_bind _ afterExpr_semicolon (.pure _ fun _ hv => hv)

theorem completes_assignmentClause : Completes n Anything AfterExpr assignmentClause :=
  .bind regular_binding (completes_binding fun _ => trivial) fun _ => .pure _ fun _ hv => hv

theorem completes_assignment : Completes n Anything Anything assignment :=
  .bind regular_assignmentClause completes_assignmentClause fun _ =>
    .expect_bind _ afterExpr_semicolon (.pure _ fun _ hv => hv)

theorem completes_print : Completes n Anything Anything print :=
  .expect_bind _ (fun _ => trivial) <| .expect_bind _ (fun _ => trivial) <|
    .bind regular_expression (completes_expression fun _ => trivial) fun _ =>
      .expect_bind _ (by simp [AfterExpr, Clear, only, arithmetic]) <|
        .expect_bind _ (fun _ => trivial) (.pure _ fun _ hv => hv)

theorem completes_ret (hG : ∀ vs, G (⟨.ret, 0⟩ :: vs)) : Completes n G Anything ret :=
  .expect_bind _ hG <| .bind regular_expression
    (completes_expression fun _ => trivial) fun _ =>
      .expect_bind _ afterExpr_semicolon (.pure _ fun _ hv => hv)

theorem completes_condition (hG : ∀ vs, G (⟨.number "0", 0⟩ :: vs)) :
    Completes n G Anything condition :=
  .next_bind (t := .number "0") rfl hG fun _ =>
    .next_bind (t := .operator .less) rfl (fun _ => trivial) fun _ =>
      .next_bind (t := .number "0") rfl (fun _ => trivial) fun _ => .pure _ fun _ hv => hv

theorem completes_header : Completes n Anything Anything header :=
  .expect_bind _ (fun _ => trivial) <| .bind regular_condition
    (completes_condition fun _ => trivial) fun _ =>
      .expect_bind _ (fun _ => trivial) (.pure _ fun _ hv => hv)

theorem completes_skip {t : Token} (hF : ∀ vs, F vs → G vs ∧ Clear (only t) vs) :
    Completes n G F (skip t) :=
  .opt (fun _ => .pure _ fun _ _ => trivial) (.pure _ fun _ hv => hv) hF

theorem completes_parameters : Completes n Anything Anything parameters := by
  rw [parameters_eq]
  refine completes_listed (H := Anything) regular_identifier ?_ fun _ => trivial
  exact .next (a := "x") (t := .identifier "x") rfl (by simp [Clear, only])

section

variable {block : Parser Block} (hr : Regular false block)
  (h : Completes n AfterBlock AfterBlock block)

include hr h

theorem completes_bodyWith : Completes n AfterBlock AfterBlock (bodyWith block) := by
  refine .opt (fun _ => ?_) h fun vs hv => ⟨hv, ?_⟩
  · exact .bind hr (h.any.mono (Nat.sub_le _ _)) fun b =>
      .expect_bind _ (by simp [AfterBlock]) (.pure b fun _ _ => trivial)
  · intro l hl
    obtain ht | ht := hv l hl <;> simp [only, ht]

theorem completes_conditionalWith :
    Completes (n + 1) Anything AfterBlock (conditionalWith block) := by
  have hb := completes_bodyWith hr h
  have hrb : Regular false (bodyWith block) := fun n => similar_bodyWith (hr n)
  refine .expect_bind _ (fun _ => trivial) <| .bind regular_header completes_header fun test => ?_
  refine .bind hrb (hb.any.mono (Nat.sub_le _ _)) fun yes => ?_
  refine .opt (fun _ => ?_) (.pure _ fun _ hv => hv) fun vs hv => ⟨hv, ?_⟩
  · exact .bind hrb (hb.any.mono (by omega)) fun no => .pure _ fun _ hv => hv
  · intro l hl
    obtain ht | ht := hv l hl <;> simp [only, ht]

theorem completes_whileLoopWith : Completes (n + 1) Anything AfterBlock (whileLoopWith block) := by
  have hb := completes_bodyWith hr h
  refine .expect_bind _ (fun _ => trivial) <| .bind regular_header completes_header fun test => ?_
  refine .bind (fun n => similar_bodyWith (hr n)) (hb.any.mono (Nat.sub_le _ _)) fun body => ?_
  exact .expect_bind _ (by simp [AfterBlock]) (.pure _ fun _ _ => trivial)

theorem completes_forLoopWith : Completes (n + 1) Anything AfterBlock (forLoopWith block) := by
  have hb := completes_bodyWith hr h
  refine .expect_bind _ (fun _ => trivial) <| .expect_bind _ (fun _ => trivial) ?_
  refine .bind regular_declaration completes_declaration fun init => ?_
  -- the next token begins the condition, or else is the second semicolon
  refine .bind (regular_skip _) (completes_skip fun vs hv => ⟨trivial, hv⟩) fun _ => ?_
  refine .bind regular_condition (completes_condition (by simp [Clear, only])) fun test => ?_
  refine .expect_bind _ (fun _ => trivial) ?_
  refine .bind regular_assignmentClause completes_assignmentClause fun step => ?_
  refine .bind (H := fun vs => AfterExpr vs ∧ Clear (only .semicolon) vs) (regular_skip _)
    (completes_skip fun vs hv => hv) fun _ => ?_
  refine .expect_bind _ (by simp [AfterExpr, Clear, only, arithmetic]) ?_
  refine .bind (fun n => similar_bodyWith (hr n)) (hb.any.mono (by omega)) fun body => ?_
  exact .expect_bind _ (by simp [AfterBlock]) (.pure _ fun _ _ => trivial)

theorem completes_functionWith : Completes (n + 1) Anything AfterBlock (functionWith block) := by
  refine .expect_bind _ (fun _ => trivial) ?_
  refine .next_bind (a := "x") (t := .identifier "x") rfl (fun _ => trivial) fun name => ?_
  refine .expect_bind _ (fun _ => trivial) ?_
  refine .bind regular_parameters completes_parameters fun params => ?_
  refine .expect_bind _ (fun _ => trivial) ?_
  refine .bind hr (h.any.mono (by omega)) fun body => ?_
  exact .expect_bind _ (by simp [AfterBlock]) (.pure _ fun _ _ => trivial)

theorem completes_statementWith : Completes (n + 1) Anything AfterBlock (statementWith block) := by
  rw [statementWith_eq]
  refine .dispatch ?_ fun t => ?_
  · -- any statement will do, so one that gives back a value
    have hret := completes_ret (n := 0) (G := fun vs => ∃ rest, vs = ⟨.ret, 0⟩ :: rest)
      fun vs => ⟨vs, rfl⟩
    obtain ⟨ws, s, hw⟩ := hret.start
    refine ⟨ws, s, fun vs _ => ⟨trivial, ?_⟩⟩
    obtain ⟨⟨rest, he⟩, hs⟩ := hw vs trivial
    rw [he] at hs ⊢
    exact (dispatch_known rfl _).trans hs
  · unfold statementOn
    split
    · exact completes_declaration.before
    · exact completes_print.before
    · exact completes_conditionalWith hr h
    · exact completes_whileLoopWith hr h
    · exact completes_forLoopWith hr h
    · exact (completes_ret fun _ => trivial).before
    · exact completes_functionWith hr h
    · exact completes_assignment.before

end

theorem completes_block : Completes n AfterBlock AfterBlock block := by
  have hF : ∀ vs, AfterBlock vs → AfterBlock vs ∧ ∀ l ∈ vs.head?, closesBlock l.token = true := by
    refine fun vs hv => ⟨hv, fun l hl => ?_⟩
    obtain ht | ht := hv l hl <;> rw [ht] <;> rfl
  induction n with
  | zero =>
    refine ⟨⟨[], [], fun vs hv => ⟨hv, ?_⟩⟩, fun _ _ _ h => by omega, fun _ _ h => by omega,
      fun _ _ _ hv => hv⟩
    rw [block_eq]
    exact unlessClosed_of_head (hF vs hv).2
  | succ n ih =>
    rw [block_eq]
    refine .unlessClosed hF <|
      .bind regular_statement (completes_statementWith regular_block ih) fun s => ?_
    exact .bind regular_block ih fun ss => .pure _ fun _ hv => hv

end Bhasha.Parser
