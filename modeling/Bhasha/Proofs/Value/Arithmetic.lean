import Bhasha.Value

/-! What the operators make of values. There is little that an operator complains of
(`Value.combine_error`). Its result on two integers is exact: the whole numbers are computed with,
and only a result out of range is refused (`Integer.combine_of_exact`). -/

namespace Bhasha

theorem bind_eq_error {α β : Type} {x : Except RunError α} {f : α → Except RunError β}
    {e : RunError} (h : (x >>= f) = .error e) :
    x = .error e ∨ ∃ a, x = .ok a ∧ f a = .error e := by
  cases x with
  | error e' =>
    cases h
    exact .inl rfl
  | ok a => exact .inr ⟨a, rfl, h⟩

theorem Integer.checked_error {op : Operator} {i : Int} {e : RunError}
    (h : checked op i = .error e) : e = .overflow op := by
  unfold checked at h
  split at h <;> cases h
  rfl

theorem Integer.combine_error {op : Operator} {a b : Integer} {e : RunError}
    (hop : op.combines = true) (h : Integer.combine op a b = .error e) :
    e = .overflow op ∨ e = .divisionByZero ∧ (op = .div ∨ op = .rem) := by
  cases op with
  | add | sub | mul => exact .inl (checked_error h)
  | div =>
    simp only [Integer.combine] at h
    split at h
    · cases h
      exact .inr ⟨rfl, .inl rfl⟩
    · exact .inl (checked_error h)
  | rem =>
    simp only [Integer.combine] at h
    split at h
    · cases h
      exact .inr ⟨rfl, .inr rfl⟩
    · rcases bind_eq_error h with hq | ⟨q, -, h⟩
      · exact .inl (checked_error hq)
      · exact .inl (checked_error h)
  | _ => cases hop

theorem Value.readInteger_error {context : String} {v : Value} {e : RunError}
    (h : v.readInteger context = .error e) :
    v.isStr = true ∧ Integer.parse? v.text = none ∧ e = .expectedInteger context v.text := by
  cases v with
  | int n => cases h
  | str s =>
    unfold readInteger at h
    dsimp only at h
    split at h <;> cases h
    next hp => exact ⟨rfl, hp, rfl⟩

theorem Value.asInteger_error {context : String} {v : Value} {e : RunError}
    (h : v.asInteger context = .error e) : e = .expectedInteger context v.text := by
  cases v with
  | int n => cases h
  | str s =>
    cases h
    rfl

/-- Two integers are always added, so `+` asks for no integer. -/
theorem Value.combine_error {op : Operator} {left right : Value} {e : RunError}
    (h : Value.combine op left right = .error e) :
    (op.combines = false ∧ e = .unknownOperator op) ∨
      op.combines = true ∧ (e = .overflow op ∨ e = .divisionByZero ∧ (op = .div ∨ op = .rem) ∨
        op ≠ .add ∧ ∃ found, Integer.parse? found = none ∧
          e = .expectedInteger ("Operator '" ++ op.text ++ "'") found) := by
  unfold Value.combine at h
  split at h
  · next hop =>
    cases h
    exact .inl ⟨by simpa using hop, rfl⟩
  split at h
  · cases h
  next hop hadd =>
  have hop : op.combines = true := by simpa using hop
  refine .inr ⟨hop, ?_⟩
  rcases bind_eq_error h with hl | ⟨a, -, h⟩
  · obtain ⟨hstr, hparse, rfl⟩ := Value.readInteger_error hl
    refine .inr (.inr ⟨?_, left.text, hparse, rfl⟩)
    rintro rfl
    exact hadd ⟨rfl, .inl hstr⟩
  rcases bind_eq_error h with hr | ⟨b, -, h⟩
  · obtain ⟨hstr, hparse, rfl⟩ := Value.readInteger_error hr
    refine .inr (.inr ⟨?_, right.text, hparse, rfl⟩)
    rintro rfl
    exact hadd ⟨rfl, .inr hstr⟩
  rcases bind_eq_error h with hc | ⟨c, -, h⟩
  · rcases Integer.combine_error hop hc with he | he
    · exact .inl he
    · exact .inr (.inl he)
  · cases h

theorem Integer.compare_error {op : Operator} {a b : Integer} {e : RunError}
    (h : Integer.compare op a b = .error e) :
    e = .unknownOperator op ∧
      op ∉ [Operator.less, .greater, .lessEqual, .greaterEqual, .equal] := by
  cases op <;> cases h <;> exact ⟨rfl, by decide⟩

/-- Division of `a` by `b` toward zero: the remainder `r` is smaller than the divisor and on the
side of the dividend. -/
structure TruncDiv (a b q r : Int) : Prop where
  whole : a = b * q + r
  small : r.natAbs < b.natAbs
  nonneg : 0 ≤ a → 0 ≤ r
  nonpos : a ≤ 0 → r ≤ 0

theorem truncDiv_iff {a b q r : Int} :
    TruncDiv a b q r ↔ b ≠ 0 ∧ a.tdiv b = q ∧ a.tmod b = r := by
  constructor
  · intro h
    have hb : b ≠ 0 := by
      rintro rfl
      exact Nat.not_lt_zero _ h.small
    have hsmall := h.small
    refine ⟨hb, ?_⟩
    rcases Int.le_total 0 a with ha | ha
    · have hr := h.nonneg ha
      refine (Int.tdiv_tmod_unique ha hb).mpr ⟨?_, hr, by omega⟩
      rw [h.whole, Int.add_comm]
    · -- division toward zero commutes with the sign, so this is the case of `-a`
      have hr := h.nonpos ha
      have hneg : -r + b * -q = -a := by
        rw [h.whole, Int.mul_neg, ← Int.neg_add, Int.add_comm]
      have := (Int.tdiv_tmod_unique (by omega : 0 ≤ -a) hb).mpr ⟨hneg, by omega, by omega⟩
      rw [Int.neg_tdiv, Int.neg_tmod] at this
      omega
  · rintro ⟨hb, rfl, rfl⟩
    refine ⟨(Int.mul_tdiv_add_tmod a b).symm, ?_, fun ha => Int.tmod_nonneg b ha, fun ha => ?_⟩
    · rw [Int.natAbs_tmod]
      exact Nat.mod_lt _ (Int.natAbs_pos.mpr hb)
    · have := Int.tmod_nonneg b (by omega : 0 ≤ -a)
      rw [Int.neg_tmod] at this
      omega

theorem truncDiv_of_ne (a : Int) {b : Int} (hb : b ≠ 0) : TruncDiv a b (a.tdiv b) (a.tmod b) :=
  truncDiv_iff.mpr ⟨hb, rfl, rfl⟩

/-- `i` is what the operator makes of two whole numbers. -/
def Operator.Exact (op : Operator) (a b i : Int) : Prop :=
  match op with
  | .add => i = a + b
  | .sub => i = a - b
  | .mul => i = a * b
  | .div => ∃ r, TruncDiv a b i r
  | .rem => ∃ q, TruncDiv a b q i
  | _ => False

/-- The range of 64 bits with a sign. -/
def InRange (i : Int) : Prop := -0x8000000000000000 ≤ i ∧ i ≤ 0x7fffffffffffffff

namespace Integer

theorem inRange (n : Integer) : InRange n.val := ⟨n.lower, Int.le_of_lt_add_one n.upper⟩

variable {op : Operator} {a b : Integer} {i : Int}

theorem checked_val (op : Operator) (n : Integer) : checked op n.val = .ok n := by
  unfold checked
  rw [ofInt?_val]

theorem checked_of_inRange (op : Operator) (h : InRange i) :
    ∃ n : Integer, n.val = i ∧ checked op i = .ok n := by
  let n : Integer := ⟨i, h.1, Int.lt_add_one_of_le h.2⟩
  exact ⟨n, rfl, checked_val op n⟩

theorem checked_eq_ok {n : Integer} (h : checked op i = .ok n) : n.val = i := by
  unfold checked at h
  split at h
  · next hn =>
    cases h
    exact ofInt?_eq_some.mp hn
  · cases h

theorem checked_eq_overflow (op : Operator) :
    checked op i = .error (.overflow op) ↔ ¬ InRange i := by
  constructor
  · intro h hr
    obtain ⟨n, -, hn⟩ := checked_of_inRange op hr
    rw [hn] at h
    cases h
  · intro hr
    have hn : ofInt? i = none := by
      rw [ofInt?_eq_none]
      unfold InRange at hr
      omega
    unfold checked
    rw [hn]

/-- Apart from `%`, the exact result is taken if it is in range. -/
theorem combine_of_exact (hop : op ≠ .rem) (h : op.Exact a.val b.val i) :
    combine op a b = checked op i := by
  cases op with
  | add | sub | mul =>
    cases h
    rfl
  | div =>
    obtain ⟨r, hr⟩ := h
    obtain ⟨hb, rfl, -⟩ := truncDiv_iff.mp hr
    exact if_neg hb
  | rem => exact absurd rfl hop
  | _ => exact h.elim

theorem combine_rem {q r : Int} (h : TruncDiv a.val b.val q r) :
    combine .rem a b = (checked .rem q).bind fun _ => checked .rem r := by
  obtain ⟨hb, rfl, rfl⟩ := truncDiv_iff.mp h
  exact if_neg hb

theorem combine_zero (hop : op = .div ∨ op = .rem) (hb : b.val = 0) :
    combine op a b = .error .divisionByZero := by
  rcases hop with rfl | rfl
  · exact if_pos hb
  · exact if_pos hb

end Integer

/-- What `r` has to be as the outcome of an operator of arithmetic on two integers. -/
structure Computed (op : Operator) (a b : Integer) (r : Except RunError Value) : Prop where
  zero : op = .div ∨ op = .rem → b.val = 0 → r = .error .divisionByZero
  total : (op = .div ∨ op = .rem → b.val ≠ 0) → ∃ i, op.Exact a.val b.val i
  given : op ≠ .rem → ∀ i, op.Exact a.val b.val i → InRange i →
    ∃ n : Integer, n.val = i ∧ r = .ok (.int n)
  refused : op ≠ .rem → ∀ i, op.Exact a.val b.val i → (r = .error (.overflow op) ↔ ¬ InRange i)
  /-- Of `%` it is asked that a remainder is exact, and that there is one as soon as the quotient is
  in range. -/
  remainder : op = .rem → ∀ n, r = .ok (.int n) → op.Exact a.val b.val n.val
  remainderGiven : op = .rem → ∀ q i, TruncDiv a.val b.val q i → InRange q →
    ∃ n, r = .ok (.int n)

namespace Integer

variable {op : Operator} {a b : Integer}

theorem exists_exact (hop : op ∈ [Operator.add, .sub, .mul, .div, .rem])
    (hb : op = .div ∨ op = .rem → b.val ≠ 0) : ∃ i, op.Exact a.val b.val i := by
  cases op with
  | add | sub | mul => exact ⟨_, rfl⟩
  | div => exact ⟨_, _, truncDiv_of_ne a.val (hb (.inl rfl))⟩
  | rem => exact ⟨_, _, truncDiv_of_ne a.val (hb (.inr rfl))⟩
  | _ => simp at hop

theorem inRange_remainder {q r : Int} (h : TruncDiv a.val b.val q r) : InRange r := by
  obtain ⟨hlower, hupper⟩ := b.inRange
  have hsmall := h.small
  unfold InRange
  omega

theorem combine_rem_exact {n : Integer} (h : combine .rem a b = .ok n) :
    Operator.rem.Exact a.val b.val n.val := by
  by_cases hb : b.val = 0
  · rw [combine_zero (.inr rfl) hb] at h
    cases h
  · have hdiv := truncDiv_of_ne a.val hb
    rw [combine_rem hdiv] at h
    cases hq : checked .rem (a.val.tdiv b.val) with
    | error e =>
      rw [hq] at h
      cases h
    | ok q =>
      rw [hq] at h
      rw [checked_eq_ok h]
      exact ⟨_, hdiv⟩

theorem computed_combine (hop : op ∈ [Operator.add, .sub, .mul, .div, .rem]) :
    Computed op a b ((combine op a b).map Value.int) where
  zero hop hb := by
    rw [combine_zero hop hb]
    rfl
  total := exists_exact hop
  given hop i hi hr := by
    obtain ⟨n, hn, hc⟩ := checked_of_inRange op hr
    exact ⟨n, hn, by rw [combine_of_exact hop hi, hc]; rfl⟩
  refused hop i hi := by
    rw [combine_of_exact hop hi, ← checked_eq_overflow op]
    cases checked op i <;> simp [Except.map]
  remainder hop n h := by
    subst hop
    cases hc : combine .rem a b with
    | error e =>
      rw [hc] at h
      cases h
    | ok m =>
      rw [hc] at h
      cases h
      exact combine_rem_exact hc
  remainderGiven hop q r hdiv hq := by
    subst hop
    obtain ⟨m, -, hm⟩ := checked_of_inRange .rem hq
    obtain ⟨n, -, hn⟩ := checked_of_inRange .rem (inRange_remainder hdiv)
    exact ⟨n, by rw [combine_rem hdiv, hm, Except.bind, hn]; rfl⟩

end Integer

namespace Value

variable {op : Operator} {v w : Value} {a b : Integer}

theorem readInteger_of_some {context : String} (h : Integer.parse? v.text = some a) :
    v.readInteger context = .ok a := by
  cases v with
  | int n =>
    rw [text, Integer.parse?_text] at h
    cases h
    rfl
  | str s =>
    rw [text] at h
    simp only [readInteger, h]

theorem readInteger_of_none {context : String} (h : Integer.parse? v.text = none) :
    v.readInteger context = .error (.expectedInteger context v.text) := by
  cases v with
  | int n =>
    rw [text, Integer.parse?_text] at h
    cases h
  | str s =>
    rw [text] at h
    simp only [readInteger, h, text]

/-- The operator is one of arithmetic and does not join texts here. -/
def Computes (op : Operator) (v w : Value) : Prop :=
  op ∈ [Operator.add, .sub, .mul, .div, .rem] ∧ ¬ (op = .add ∧ (v.isStr ∨ w.isStr))

theorem combine_unknown (h : op ∉ [Operator.add, .sub, .mul, .div, .rem]) :
    v.combine op w = .error (.unknownOperator op) := by
  have hop : (!op.combines) = true := by
    rw [Bool.not_eq_true', Bool.eq_false_iff]
    exact fun hc => h (op.combines_iff.mp hc)
  exact if_pos hop

theorem combine_join (h : v.isStr ∨ w.isStr) :
    v.combine .add w = .ok (.str (v.text ++ w.text)) :=
  (if_neg (by decide)).trans (if_pos ⟨rfl, h⟩)

theorem Computes.combine_eq (h : Computes op v w) :
    v.combine op w = do
      let a ← v.readInteger ("Operator '" ++ op.text ++ "'")
      let b ← w.readInteger ("Operator '" ++ op.text ++ "'")
      return .int (← Integer.combine op a b) := by
  have hop : ¬ (!op.combines) = true := by
    rw [op.combines_iff.mpr h.1]
    decide
  exact (if_neg hop).trans (if_neg h.2)

theorem Computes.combine_of_some (h : Computes op v w) (hv : Integer.parse? v.text = some a)
    (hw : Integer.parse? w.text = some b) :
    v.combine op w = (Integer.combine op a b).map .int := by
  rw [h.combine_eq, readInteger_of_some hv, readInteger_of_some hw]
  cases hc : Integer.combine op a b <;> simp [bind, Except.bind, pure, Except.pure, Except.map, hc]

theorem Computes.combine_of_left (h : Computes op v w) (hv : Integer.parse? v.text = none) :
    v.combine op w = .error (.expectedInteger ("Operator '" ++ op.text ++ "'") v.text) := by
  rw [h.combine_eq, readInteger_of_none hv]
  rfl

theorem Computes.combine_of_right (h : Computes op v w) (hv : Integer.parse? v.text = some a)
    (hw : Integer.parse? w.text = none) :
    v.combine op w = .error (.expectedInteger ("Operator '" ++ op.text ++ "'") w.text) := by
  rw [h.combine_eq, readInteger_of_some hv, readInteger_of_none hw]
  rfl

end Value

/-- An operator that is none of arithmetic is unknown, and `+` joins the texts as soon as one side
is a string. Otherwise each side is taken for the integer that its text spells, the left one first,
and a text that spells none is complained of. The outcome on two integers is the exact one, a
division by zero, or an overflow where the exact one is out of range. -/
theorem arithmetic_exact (op : Operator) (v w : Value) :
    (op ∉ [Operator.add, .sub, .mul, .div, .rem] →
      v.combine op w = .error (.unknownOperator op)) ∧
    (op = .add → v.isStr ∨ w.isStr → v.combine op w = .ok (.str (v.text ++ w.text))) ∧
    (Value.Computes op v w →
      (Integer.parse? v.text = none →
        v.combine op w = .error (.expectedInteger ("Operator '" ++ op.text ++ "'") v.text)) ∧
      (∀ a, Integer.parse? v.text = some a → Integer.parse? w.text = none →
        v.combine op w = .error (.expectedInteger ("Operator '" ++ op.text ++ "'") w.text)) ∧
      ∀ a b, Integer.parse? v.text = some a → Integer.parse? w.text = some b →
        Computed op a b (v.combine op w)) := by
  refine ⟨Value.combine_unknown, ?_, fun h => ⟨h.combine_of_left, fun _ => h.combine_of_right, ?_⟩⟩
  · rintro rfl hstr
    exact Value.combine_join hstr
  · intro a b hv hw
    rw [h.combine_of_some hv hw]
    exact Integer.computed_combine h.1

/-- The lowest integer, written as a text: no comparison is made with it and `+` joins it to a text.
It cannot be divided by -1, and 7 goes into it with the quotient cut off toward zero. -/
theorem arithmetic_exact_lowest :
    let lowest : Value := .str "-9223372036854775808"
    lowest.combine .less (.str "-1") = .error (.unknownOperator .less) ∧
    lowest.combine .add (.str "-1") = .ok (.str "-9223372036854775808-1") ∧
    lowest.combine .sub (.str "1 ") = .error (.expectedInteger "Operator '-'" "1 ") ∧
    lowest.combine .div (.str "-1") = .error (.overflow .div) ∧
    ∃ n : Integer, n.val = -1317624576693539401 ∧
      lowest.combine .div (.str "+7") = .ok (.int n) := by
  intro lowest
  let a : Integer := ⟨-9223372036854775808, by decide, by decide⟩
  have ha : Integer.parse? lowest.text = some a := by decide +kernel
  have hdiv (w : Value) : Value.Computes .div lowest w := ⟨by decide, by rintro ⟨⟨⟩, -⟩⟩
  have hsub (w : Value) : Value.Computes .sub lowest w := ⟨by decide, by rintro ⟨⟨⟩, -⟩⟩
  have hone : Integer.parse? (Value.str "-1").text = some ⟨-1, by decide, by decide⟩ := by
    decide +kernel
  have hseven : Integer.parse? (Value.str "+7").text = some ⟨7, by decide, by decide⟩ := by
    decide +kernel
  have hout := ((arithmetic_exact .div lowest (.str "-1")).2.2 (hdiv _)).2.2 _ _ ha hone
  have hin := ((arithmetic_exact .div lowest (.str "+7")).2.2 (hdiv _)).2.2 _ _ ha hseven
  refine ⟨(arithmetic_exact .less lowest _).1 (by decide),
    (arithmetic_exact .add lowest _).2.1 rfl (.inl rfl),
    ((arithmetic_exact .sub lowest _).2.2 (hsub _)).2.1 a ha (by decide +kernel), ?_, ?_⟩
  · refine (hout.refused (by decide) 9223372036854775808 ⟨0, ?_⟩).mpr ?_
    · exact ⟨rfl, by decide, fun _ => by decide, fun _ => by decide⟩
    · exact fun h => absurd h.2 (by decide)
  · refine hin.given (by decide) (-1317624576693539401) ⟨-1, ?_⟩ ⟨by decide, by decide⟩
    exact ⟨rfl, by decide, fun h => absurd h (by decide), fun _ => by decide⟩

end Bhasha
