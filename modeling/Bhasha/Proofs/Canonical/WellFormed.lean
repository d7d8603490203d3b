import Bhasha.Proofs.Grammar.Rules
import Bhasha.Proofs.Scan.Written

/-! The trees that a text can describe: names, literals and operators are such as a text can hold,
comparisons are between numbers and names, and a counting loop begins with a declaration and steps
by an assignment. What derives from the tokens of a text is such a tree (`Program.wellFormed`). -/

namespace Bhasha

mutual
def Expr.wellFormed : Expr → Bool
  | .number text => (Token.number text).wellFormed
  | .string text => (Token.string text).wellFormed
  | .var name => (Token.identifier name).wellFormed
  | .binary op left right => op.isArithmetic && left.wellFormed && right.wellFormed
  | .call name args => (Token.identifier name).wellFormed && Expr.allWellFormed args
termination_by structural e => e

def Expr.allWellFormed : List Expr → Bool
  | [] => true
  | e :: es => e.wellFormed && Expr.allWellFormed es
termination_by structural es => es
end

def Expr.isComparand : Expr → Bool
  | .number _ | .var _ => true
  | _ => false

def Condition.wellFormed (c : Condition) : Bool :=
  c.left.isComparand && c.left.wellFormed && c.right.isComparand && c.right.wellFormed

def Stmt.isDeclaration : Stmt → Bool
  | .declare .. => true
  | _ => false

def Stmt.isAssignment : Stmt → Bool
  | .assign .. => true
  | _ => false

theorem Stmt.isDeclaration_iff {s : Stmt} : s.isDeclaration = true ↔ ∃ x e, s = .declare x e := by
  cases s <;> simp [Stmt.isDeclaration]

theorem Stmt.isAssignment_iff {s : Stmt} : s.isAssignment = true ↔ ∃ x e, s = .assign x e := by
  cases s <;> simp [Stmt.isAssignment]

mutual
def Stmt.wellFormed : Stmt → Bool
  | .declare name value | .assign name value =>
    (Token.identifier name).wellFormed && value.wellFormed
  | .print value | .ret value => value.wellFormed
  | .cond test yes no =>
    test.wellFormed && Stmt.allWellFormed yes &&
      match no with
      | none => true
      | some no => Stmt.allWellFormed no
  | .whileLoop test body => test.wellFormed && Stmt.allWellFormed body
  | .forLoop init test step body =>
    init.isDeclaration && init.wellFormed && test.wellFormed && step.isAssignment &&
      step.wellFormed && Stmt.allWellFormed body
  | .function name params body =>
    (Token.identifier name).wellFormed && params.all (fun p => (Token.identifier p).wellFormed) &&
      Stmt.allWellFormed body
termination_by structural s => s

def Stmt.allWellFormed : List Stmt → Bool
  | [] => true
  | s :: ss => s.wellFormed && Stmt.allWellFormed ss
termination_by structural ss => ss
end

def Block.wellFormed (b : Block) : Bool := Stmt.allWellFormed b

namespace Grammar

/-- Tokens that a text can hold. -/
def Clean (ts : List Token) : Prop := ∀ t ∈ ts, t.wellFormed = true

theorem clean_cons {t : Token} {ts : List Token} :
    Clean (t :: ts) ↔ t.wellFormed = true ∧ Clean ts :=
  List.forall_mem_cons

mutual

theorem Primary.wellFormed {ts rest : List Token} {e : Expr} :
    Primary ts e rest → Clean ts → e.wellFormed = true ∧ Clean rest
  | .string, ht => clean_cons.mp ht
  | .number, ht => clean_cons.mp ht
  | .var, ht => clean_cons.mp ht
  | .call h, ht => by
    obtain ⟨hname, ht⟩ := clean_cons.mp ht
    obtain ⟨hargs, hr⟩ := Listed.wellFormed h (clean_cons.mp ht).2
    exact ⟨by simp [Expr.wellFormed, hname, hargs], hr⟩
  | .group h, ht => by
    obtain ⟨he, hr⟩ := Expression.wellFormed h (clean_cons.mp ht).2
    exact ⟨he, (clean_cons.mp hr).2⟩

theorem Expression.wellFormed {ts rest : List Token} {e : Expr} :
    Expression ts e rest → Clean ts → e.wellFormed = true ∧ Clean rest
  | .mk h hc, ht => by
    obtain ⟨hl, hm⟩ := Primary.wellFormed h ht
    exact Chain.wellFormed hc hl hm

theorem Chain.wellFormed {ts rest : List Token} {left e : Expr} :
    Chain left ts e rest → left.wellFormed = true → Clean ts → e.wellFormed = true ∧ Clean rest
  | .done, hl, ht => ⟨hl, ht⟩
  | .more ho h hc, hl, ht => by
    obtain ⟨hright, hm⟩ := Primary.wellFormed h (clean_cons.mp ht).2
    exact Chain.wellFormed hc (by simp [Expr.wellFormed, ho, hl, hright]) hm

theorem Listed.wellFormed {ts rest : List Token} {es : List Expr} :
    Listed Expression ts es rest → Clean ts → Expr.allWellFormed es = true ∧ Clean rest
  | .none, ht => ⟨rfl, (clean_cons.mp ht).2⟩
  | .some h, ht => by
    obtain ⟨he, hr⟩ := Separated.wellFormed h ht
    exact ⟨he, (clean_cons.mp hr).2⟩

theorem Separated.wellFormed {ts rest : List Token} {es : List Expr} :
    Separated Expression ts es rest → Clean ts → Expr.allWellFormed es = true ∧ Clean rest
  | .last h, ht => by
    obtain ⟨he, hr⟩ := Expression.wellFormed h ht
    exact ⟨by simp [Expr.allWellFormed, he], hr⟩
  | .more h hs, ht => by
    obtain ⟨he, hm⟩ := Expression.wellFormed h ht
    obtain ⟨hes, hr⟩ := Separated.wellFormed hs (clean_cons.mp hm).2
    exact ⟨by simp [Expr.allWellFormed, he, hes], hr⟩

end

theorem Separated.names_wellFormed {ts rest : List Token} {xs : List String}
    (h : Separated Name ts xs rest) (ht : Clean ts) :
    xs.all (fun x => (Token.identifier x).wellFormed) = true ∧ Clean rest := by
  induction h with
  | last h =>
    obtain ⟨⟩ := h
    obtain ⟨hx, hr⟩ := clean_cons.mp ht
    exact ⟨by simp [hx], hr⟩
  | more h _ ih =>
    obtain ⟨⟩ := h
    obtain ⟨hx, ht⟩ := clean_cons.mp ht
    obtain ⟨hxs, hr⟩ := ih (clean_cons.mp ht).2
    exact ⟨by rw [List.all_cons, hx, hxs]; rfl, hr⟩

theorem Listed.names_wellFormed {ts rest : List Token} {xs : List String}
    (h : Listed Name ts xs rest) (ht : Clean ts) :
    xs.all (fun x => (Token.identifier x).wellFormed) = true ∧ Clean rest := by
  cases h with
  | none => exact ⟨rfl, (clean_cons.mp ht).2⟩
  | some h =>
    obtain ⟨hx, hr⟩ := h.names_wellFormed ht
    exact ⟨hx, (clean_cons.mp hr).2⟩

theorem Test.wellFormed {ts rest : List Token} {c : Condition} (h : Test ts c rest)
    (ht : Clean ts) : c.wellFormed = true ∧ Clean rest := by
  obtain ⟨hl, hr⟩ := h
  simp only [clean_cons] at ht
  obtain ⟨hl', -, hr', ht⟩ := ht
  refine ⟨?_, ht⟩
  obtain ⟨⟩ | ⟨⟩ := hl <;> obtain ⟨⟩ | ⟨⟩ := hr <;>
    simp [Condition.wellFormed, Expr.isComparand, Expr.wellFormed, hl', hr']

theorem Declaration.wellFormed {ts rest : List Token} {s : Stmt} (h : Declaration ts s rest)
    (ht : Clean ts) : s.isDeclaration = true ∧ s.wellFormed = true ∧ Clean rest := by
  obtain ⟨h⟩ := h
  simp only [clean_cons] at ht
  obtain ⟨-, hx, -, ht⟩ := ht
  obtain ⟨he, hr⟩ := h.wellFormed ht
  exact ⟨rfl, by simp [Stmt.wellFormed, hx, he], (clean_cons.mp hr).2⟩

theorem Clause.wellFormed {ts rest : List Token} {s : Stmt} (h : Clause ts s rest)
    (ht : Clean ts) : s.isAssignment = true ∧ s.wellFormed = true ∧ Clean rest := by
  obtain ⟨h⟩ := h
  simp only [clean_cons] at ht
  obtain ⟨hx, -, ht⟩ := ht
  obtain ⟨he, hr⟩ := h.wellFormed ht
  exact ⟨rfl, by simp [Stmt.wellFormed, hx, he], hr⟩

theorem OptionalSemicolon.clean {ts rest : List Token} (h : OptionalSemicolon ts rest)
    (ht : Clean ts) : Clean rest := by
  cases h with
  | absent => exact ht
  | present => exact (clean_cons.mp ht).2

mutual

theorem Statement.wellFormed {ts rest : List Token} {s : Stmt} :
    Statement ts s rest → Clean ts → s.wellFormed = true ∧ Clean rest
  | .declare h, ht => (h.wellFormed ht).2
  | .assign h, ht => by
    obtain ⟨-, hs, hr⟩ := h.wellFormed ht
    exact ⟨hs, (clean_cons.mp hr).2⟩
  | .print h, ht => by
    simp only [clean_cons] at ht
    obtain ⟨he, hr⟩ := h.wellFormed ht.2.2
    simp only [clean_cons] at hr
    exact ⟨he, hr.2.2⟩
  | .ret h, ht => by
    obtain ⟨he, hr⟩ := h.wellFormed (clean_cons.mp ht).2
    exact ⟨he, (clean_cons.mp hr).2⟩
  | .ifThen hc hy _, ht => by
    simp only [clean_cons] at ht
    obtain ⟨hc, hm⟩ := hc.wellFormed ht.2.2
    obtain ⟨hy, hr⟩ := Body.wellFormed hy (clean_cons.mp hm).2
    exact ⟨by simp [Stmt.wellFormed, hc, hy], hr⟩
  | .ifElse hc hy hn, ht => by
    simp only [clean_cons] at ht
    obtain ⟨hc, hm⟩ := hc.wellFormed ht.2.2
    obtain ⟨hy, hm⟩ := Body.wellFormed hy (clean_cons.mp hm).2
    obtain ⟨hn, hr⟩ := Body.wellFormed hn (clean_cons.mp hm).2
    exact ⟨by simp [Stmt.wellFormed, hc, hy, hn], hr⟩
  | .whileLoop hc hb, ht => by
    simp only [clean_cons] at ht
    obtain ⟨hc, hm⟩ := hc.wellFormed ht.2.2
    obtain ⟨hb, hr⟩ := Body.wellFormed hb (clean_cons.mp hm).2
    exact ⟨by simp [Stmt.wellFormed, hc, hb], (clean_cons.mp hr).2⟩
  | .forLoop hi h₁ hc hs h₂ hb, ht => by
    simp only [clean_cons] at ht
    obtain ⟨hid, hi, hm⟩ := hi.wellFormed ht.2.2
    obtain ⟨hc, hm⟩ := hc.wellFormed (h₁.clean hm)
    obtain ⟨hsa, hs, hm⟩ := hs.wellFormed (clean_cons.mp hm).2
    obtain ⟨hb, hr⟩ := Body.wellFormed hb (clean_cons.mp (h₂.clean hm)).2
    exact ⟨by simp [Stmt.wellFormed, hid, hi, hc, hsa, hs, hb], (clean_cons.mp hr).2⟩
  | .function hp hb, ht => by
    simp only [clean_cons] at ht
    obtain ⟨hp, hm⟩ := hp.names_wellFormed ht.2.2.2
    obtain ⟨hb, hr⟩ := Sequence.wellFormed hb (clean_cons.mp hm).2
    refine ⟨?_, (clean_cons.mp hr).2⟩
    rw [Stmt.wellFormed, ht.2.1, hp, hb]
    rfl

theorem Body.wellFormed {ts rest : List Token} {b : Block} :
    Body ts b rest → Clean ts → Stmt.allWellFormed b = true ∧ Clean rest
  | .braced h, ht => by
    obtain ⟨hb, hr⟩ := Sequence.wellFormed h (clean_cons.mp ht).2
    exact ⟨hb, (clean_cons.mp hr).2⟩
  | .bare h _, ht => Sequence.wellFormed h ht

theorem Sequence.wellFormed {ts rest : List Token} {b : Block} :
    Sequence ts b rest → Clean ts → Stmt.allWellFormed b = true ∧ Clean rest
  | .nil, ht => ⟨rfl, ht⟩
  | .cons h hb, ht => by
    obtain ⟨hs, hm⟩ := Statement.wellFormed h ht
    obtain ⟨hb, hr⟩ := Sequence.wellFormed hb hm
    exact ⟨by simp [Stmt.allWellFormed, hs, hb], hr⟩

end

theorem Program.wellFormed {ts : List Token} {b : Block} (h : Program ts b) (ht : Clean ts) :
    b.wellFormed = true :=
  (Sequence.wellFormed h ht).1

end Grammar

end Bhasha
