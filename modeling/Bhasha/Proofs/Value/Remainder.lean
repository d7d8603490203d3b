import Bhasha.Proofs.Value.Spelling

/-! The remainder of two integers is always in range, but `%` computes it by way of the quotient,
and one quotient is not: that of the lowest integer by -1. There, and only there, `%` overflows
though the remainder is 0. -/

namespace Bhasha

namespace Integer

variable {a b : Integer}

theorem inRange_quotient {q r : Int} (h : TruncDiv a.val b.val q r) :
    InRange q ↔ ¬ (a.val = -0x8000000000000000 ∧ b.val = -1) := by
  obtain ⟨hb, rfl, -⟩ := truncDiv_iff.mp h
  obtain ⟨hlower, hupper⟩ := a.inRange
  unfold InRange
  by_cases hone : b.val = 1
  · rw [hone, Int.tdiv_one]
    omega
  by_cases hminus : b.val = -1
  · rw [hminus, Int.tdiv_neg, Int.tdiv_one]
    omega
  · have hhalf : (a.val.tdiv b.val).natAbs ≤ a.val.natAbs / 2 := by
      rw [Int.natAbs_tdiv]
      exact Nat.div_le_div_left (by omega) (by decide)
    omega

theorem combine_rem_eq (a : Integer) (hb : b.val ≠ 0) :
    ∃ (q : Int) (r : Integer), TruncDiv a.val b.val q r.val ∧
      combine .rem a b =
        if a.val = -0x8000000000000000 ∧ b.val = -1 then .error (.overflow .rem) else .ok r := by
  have hdiv := truncDiv_of_ne a.val hb
  obtain ⟨r, hr, hchecked⟩ := checked_of_inRange .rem (inRange_remainder hdiv)
  refine ⟨a.val.tdiv b.val, r, hr ▸ hdiv, ?_⟩
  rw [combine_rem hdiv, hchecked]
  split
  · next hout =>
    have hq := fun hq => (inRange_quotient hdiv).mp hq hout
    rw [(checked_eq_overflow .rem).mpr hq]
    rfl
  · next hin =>
    obtain ⟨n, -, hn⟩ := checked_of_inRange .rem ((inRange_quotient hdiv).mpr hin)
    rw [hn]
    rfl

end Integer

/-- Two values taken for integers, the second one not zero, have a remainder toward zero that is in
range, and `%` gives it. Only of the lowest integer and -1 it says that their remainder
overflows. -/
theorem remainder_given_but_lowest (v w : Value) {context : String} {a b : Integer}
    (hv : v.readInteger context = .ok a) (hw : w.readInteger context = .ok b) (hb : b.val ≠ 0) :
    ∃ (q : Int) (r : Integer), TruncDiv a.val b.val q r.val ∧
      v.combine .rem w =
        if a.val = -0x8000000000000000 ∧ b.val = -1 then .error (.overflow .rem)
        else .ok (.int r) := by
  obtain ⟨q, r, hdiv, hcombine⟩ := Integer.combine_rem_eq a hb
  refine ⟨q, r, hdiv, ?_⟩
  rw [(Value.computes_of_ne_add (by decide)).combine_of_some (Value.readInteger_eq_ok.mp hv)
    (Value.readInteger_eq_ok.mp hw), hcombine]
  split <;> rfl

/-- The lowest integer, written as a text, by 7 and by -1. -/
theorem remainder_given_but_lowest_signs :
    let lowest : Value := .str "-9223372036854775808"
    (∃ r : Integer, r.val = -1 ∧ lowest.combine .rem (.str "7") = .ok (.int r)) ∧
      lowest.combine .rem (.str "-1") = .error (.overflow .rem) := by
  intro lowest
  have hlowest : lowest.readInteger "" = .ok ⟨-9223372036854775808, by decide, by decide⟩ := by
    decide +kernel
  have hseven : (Value.str "7").readInteger "" = .ok ⟨7, by decide, by decide⟩ := by
    decide +kernel
  have hone : (Value.str "-1").readInteger "" = .ok ⟨-1, by decide, by decide⟩ := by
    decide +kernel
  constructor
  · obtain ⟨q, r, hdiv, hout⟩ := remainder_given_but_lowest _ _ hlowest hseven (by decide)
    exact ⟨r, (truncDiv_iff.mp hdiv).2.2.symm, hout⟩
  · obtain ⟨q, r, -, hout⟩ := remainder_given_but_lowest _ _ hlowest hone (by decide)
    exact hout

end Bhasha
