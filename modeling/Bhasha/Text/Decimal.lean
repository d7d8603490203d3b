/-! Whole numbers as decimal text. Writing gives the shortest form; reading takes one optional sign
and any number of leading zeros, ASCII digits only. What was written reads back
(`integer?_ofInt`). -/

namespace Bhasha.Text.Decimal

def ofNat (n : Nat) : List Char := Nat.toDigits 10 n

def ofInt : Int → List Char
  | .ofNat n => ofNat n
  | .negSucc n => '-' :: ofNat (n + 1)

/-- One or more digits, and nothing else. -/
def digits? (s : List Char) : Option Nat :=
  if s ≠ [] ∧ s.all Char.isDigit then some (Nat.ofDigitChars 10 s 0) else none

/-- Digits after at most one `+`. -/
def natural? : List Char → Option Nat
  | '+' :: s => digits? s
  | s => digits? s

/-- Digits after at most one `+` or `-`. -/
def integer? : List Char → Option Int
  | '-' :: s => (digits? s).map fun n => -(n : Int)
  | s => (natural? s).map Int.ofNat

theorem digits?_ofNat (n : Nat) : digits? (ofNat n) = some n := by
  have hd : (ofNat n).all Char.isDigit = true :=
    List.all_eq_true.mpr fun _ hc => Nat.isDigit_of_mem_toDigits (by decide) (by decide) hc
  rw [digits?, if_pos ⟨Nat.toDigits_ne_nil, hd⟩]
  exact congrArg some Nat.ofDigitChars_ten_toDigits

/-- Text of digits is never taken for a signed number. -/
theorem integer?_of_digits {s : List Char} (h : s.all Char.isDigit = true) :
    integer? s = (digits? s).map Int.ofNat := by
  match s with
  | [] => rfl
  | c :: s =>
    have hc : c.isDigit = true := (List.all_eq_true.mp h) c (by simp)
    unfold integer? natural?
    split
    · next heq => cases heq; simp at hc
    · split
      · next heq => cases heq; simp at hc
      · rfl

theorem integer?_ofInt (i : Int) : integer? (ofInt i) = some i := by
  match i with
  | .ofNat n =>
    have hd : (ofNat n).all Char.isDigit = true :=
      List.all_eq_true.mpr fun _ hc => Nat.isDigit_of_mem_toDigits (by decide) (by decide) hc
    simp [ofInt, integer?_of_digits hd, digits?_ofNat]
  | .negSucc n => simp [ofInt, integer?, digits?_ofNat, Int.negSucc_eq]

end Bhasha.Text.Decimal
