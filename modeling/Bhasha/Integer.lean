import Bhasha.Text.Decimal

/-! The integers of the language are those of 64 bits with a sign, from `-2 ^ 63` up to `2 ^ 63`.
Arithmetic is done exactly and then checked against the range, so nothing ever wraps. -/

namespace Bhasha

structure Integer where
  val : Int
  lower : -0x8000000000000000 ≤ val
  upper : val < 0x8000000000000000
  deriving DecidableEq

namespace Integer

def ofInt? (i : Int) : Option Integer :=
  if h : -0x8000000000000000 ≤ i ∧ i < 0x8000000000000000 then some ⟨i, h.1, h.2⟩ else none

def text (n : Integer) : String := String.ofList (Text.Decimal.ofInt n.val)

/-- Reads an optional sign and digits; `none` for other text and for a number out of range. -/
def parse? (s : String) : Option Integer := (Text.Decimal.integer? s.toList).bind ofInt?

theorem ofInt?_val (n : Integer) : ofInt? n.val = some n := dif_pos ⟨n.lower, n.upper⟩

theorem ofInt?_eq_some {i : Int} {n : Integer} : ofInt? i = some n ↔ n.val = i := by
  constructor
  · intro h
    unfold ofInt? at h
    split at h
    · cases h; rfl
    · cases h
  · rintro rfl
    exact ofInt?_val n

theorem ofInt?_eq_none {i : Int} : ofInt? i = none ↔ i < -0x8000000000000000 ∨ 0x8000000000000000 ≤ i := by
  simp only [ofInt?, dite_eq_right_iff, reduceCtorEq, imp_false]
  omega

theorem parse?_text (n : Integer) : parse? n.text = some n := by
  simp [parse?, text, Text.Decimal.integer?_ofInt, ofInt?_val]

end Integer

end Bhasha
