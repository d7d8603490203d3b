import Bhasha.Proofs.Value.Arithmetic
import Mathlib.Data.List.Induction

/-! Which texts are read as integers: a sign or none, then digits, and a number in range
(`Integer.parse?_eq_some`). Apart from `+`, the operators of arithmetic see of a value only the
integer that its text spells, so each of them does the same to a value and to its text. -/

namespace Bhasha

namespace Text.Decimal

/-- The digits, each at the place of its value. -/
def digitChars : List Char := ['0', '1', '2', '3', '4', '5', '6', '7', '8', '9']

/-- One or more digits and the number that they denote. -/
inductive Denotes : List Char → Nat → Prop
  | digit {c : Char} {d : Nat} (hc : digitChars[d]? = some c) : Denotes [c] d
  | snoc {cs : List Char} {k : Nat} {c : Char} {d : Nat} (h : Denotes cs k)
      (hc : digitChars[d]? = some c) : Denotes (cs ++ [c]) (10 * k + d)

/-- At most one sign, then digits, and the number that they spell. -/
inductive Spells : List Char → Int → Prop
  | plain {cs : List Char} {k : Nat} (h : Denotes cs k) : Spells cs k
  | plus {cs : List Char} {k : Nat} (h : Denotes cs k) : Spells ('+' :: cs) k
  | minus {cs : List Char} {k : Nat} (h : Denotes cs k) : Spells ('-' :: cs) (-k)

theorem digitChars_get (c : Char) (d : Nat) :
    digitChars[d]? = some c ↔ c.isDigit = true ∧ c.toNat - '0'.toNat = d := by
  constructor
  · intro h
    obtain ⟨hd, rfl⟩ := List.getElem?_eq_some_iff.mp h
    revert hd
    decide +revert
  · rintro ⟨hc, rfl⟩
    obtain ⟨hlow, hhigh⟩ : 48 ≤ c.toNat ∧ c.toNat ≤ 57 := Char.isDigit_iff_toNat.mp hc
    have hplace : ∀ d < 10, digitChars[d]?.map Char.toNat = some (48 + d) := by decide
    obtain ⟨c', hc', hval⟩ := Option.map_eq_some_iff.mp (hplace (c.toNat - 48) (by omega))
    have heq : c' = c := Char.toNat_inj.mp (by omega)
    rw [← heq] at hc' ⊢
    exact hc'

theorem denotes_iff {cs : List Char} {n : Nat} :
    Denotes cs n ↔ cs ≠ [] ∧ cs.all Char.isDigit = true ∧ Nat.ofDigitChars 10 cs 0 = n := by
  constructor
  · intro h
    induction h with
    | digit hc =>
      obtain ⟨hdigit, hval⟩ := (digitChars_get _ _).mp hc
      simp [Nat.ofDigitChars_cons, hdigit, ← hval]
    | snoc _ hc ih =>
      obtain ⟨-, hall, hk⟩ := ih
      obtain ⟨hdigit, hval⟩ := (digitChars_get _ _).mp hc
      simp [Nat.ofDigitChars_append, Nat.ofDigitChars_cons, hall, hk, hdigit, ← hval]
  · -- The last digit counts once, so the induction takes the digits off at the end.
    induction cs using List.reverseRecOn generalizing n with
    | nil => simp
    | append_singleton cs c ih =>
      rintro ⟨-, hall, hval⟩
      rw [List.all_append, Bool.and_eq_true, List.all_cons, Bool.and_eq_true] at hall
      have hc := (digitChars_get c _).mpr ⟨hall.2.1, rfl⟩
      rw [Nat.ofDigitChars_append, Nat.ofDigitChars_cons, Nat.ofDigitChars_nil] at hval
      by_cases hcs : cs = []
      · subst hcs
        rw [Nat.ofDigitChars_nil, Nat.mul_zero, Nat.zero_add] at hval
        subst hval
        exact .digit hc
      · subst hval
        exact .snoc (ih ⟨hcs, hall.1, rfl⟩) hc

theorem digits?_eq_some {cs : List Char} {n : Nat} : digits? cs = some n ↔ Denotes cs n := by
  rw [denotes_iff, digits?]
  split
  · next h => simp [h]
  · next h => simpa using fun hne hall => absurd ⟨hne, by simpa using hall⟩ h

theorem integer?_eq_some {cs : List Char} {i : Int} : integer? cs = some i ↔ Spells cs i := by
  constructor
  · intro h
    unfold integer? at h
    split at h
    · next s =>
      cases hk : digits? s with
      | none => simp [hk] at h
      | some k =>
        obtain rfl : -(k : Int) = i := by simpa [hk] using h
        exact .minus (digits?_eq_some.mp hk)
    · obtain ⟨k, hk, rfl⟩ := Option.map_eq_some_iff.mp h
      unfold natural? at hk
      split at hk
      · exact .plus (digits?_eq_some.mp hk)
      · exact .plain (digits?_eq_some.mp hk)
  · intro h
    cases h with
    | plain h =>
      rw [integer?_of_digits (denotes_iff.mp h).2.1, digits?_eq_some.mpr h]
      rfl
    | plus h => simp [integer?, natural?, digits?_eq_some.mpr h]
    | minus h => simp [integer?, digits?_eq_some.mpr h]

end Text.Decimal

open Text.Decimal (Denotes Spells)

/-- A number out of range is spelled by many texts, but none of them is read. -/
theorem Integer.parse?_eq_some {s : String} {n : Integer} :
    parse? s = some n ↔ Spells s.toList n.val := by
  simp only [parse?, Option.bind_eq_some_iff, ofInt?_eq_some, Text.Decimal.integer?_eq_some]
  constructor
  · rintro ⟨i, h, rfl⟩
    exact h
  · intro h
    exact ⟨n.val, h, rfl⟩

namespace Value

variable {op : Operator} {v w : Value}

theorem readInteger_eq_ok {context : String} {n : Integer} :
    v.readInteger context = .ok n ↔ Integer.parse? v.text = some n := by
  cases h : Integer.parse? v.text with
  | some k => simp [readInteger_of_some h]
  | none => simp [readInteger_of_none h]

theorem readInteger_text (context : String) (v : Value) :
    (str v.text).readInteger context = v.readInteger context := by
  cases h : Integer.parse? v.text with
  | some n => rw [readInteger_of_some h, readInteger_of_some (v := str v.text) h]
  | none => rw [readInteger_of_none h, readInteger_of_none (v := str v.text) h]; rfl

theorem computes_of_ne_add (hop : op ∈ [Operator.sub, .mul, .div, .rem]) : Computes op v w :=
  ⟨List.mem_cons_of_mem _ hop, by rintro ⟨rfl, -⟩; simp at hop⟩

theorem combine_text (hop : op ∈ [Operator.sub, .mul, .div, .rem]) (v w : Value) :
    v.combine op w = (str v.text).combine op (str w.text) := by
  rw [(computes_of_ne_add hop).combine_eq, (computes_of_ne_add hop).combine_eq, readInteger_text,
    readInteger_text]

end Value

/-- The operators of arithmetic other than `+` do the same to two values as to their texts, errors
included. A text is read as the integer that it spells and no other text is read, and the text of
an integer is read as that integer. -/
theorem arithmetic_sees_texts :
    (∀ op ∈ [Operator.sub, .mul, .div, .rem], ∀ v w : Value,
      v.combine op w = (Value.str v.text).combine op (.str w.text)) ∧
    (∀ (context s : String) (n : Integer),
      (Value.str s).readInteger context = .ok n ↔ Spells s.toList n.val) ∧
    ∀ (context : String) (n : Integer),
      (Value.str (Value.int n).text).readInteger context = .ok n := by
  refine ⟨fun op hop => Value.combine_text hop, fun context s n => ?_, fun context n => ?_⟩
  · rw [Value.readInteger_eq_ok, ← Integer.parse?_eq_some]
    rfl
  · rw [Value.readInteger_text]
    rfl

/-- The lowest integer, whose digits alone are out of range, and a text with a sign and leading
zeros. -/
theorem arithmetic_sees_texts_signed :
    let lowest : Integer := ⟨-9223372036854775808, by decide, by decide⟩
    (Value.int lowest).combine .rem (.str "+007") =
      (Value.str "-9223372036854775808").combine .rem (.str "+007") ∧
    (Value.str "-9223372036854775808").readInteger "here" = .ok lowest ∧
    (Value.str "+007").readInteger "here" = .ok ⟨7, by decide, by decide⟩ := by
  intro lowest
  obtain ⟨hcombine, hread, htext⟩ := arithmetic_sees_texts
  have hlowest : (Value.int lowest).text = "-9223372036854775808" := by decide +kernel
  have hzeros : Denotes ['0', '0'] 0 := .snoc (d := 0) (.digit (d := 0) rfl) rfl
  have hseven : Spells "+007".toList 7 := by
    rw [show "+007".toList = ['+', '0', '0', '7'] by decide]
    exact .plus (hzeros.snoc (d := 7) rfl)
  rw [← hlowest]
  exact ⟨hcombine .rem (by decide) (.int lowest) (.str "+007"), htext "here" lowest,
    (hread "here" "+007" _).mpr hseven⟩

end Bhasha
