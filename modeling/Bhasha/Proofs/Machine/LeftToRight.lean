import Bhasha.Proofs.Machine.Steps
import Bhasha.Proofs.Parser.OperatorChain

/-! Operators run in the order in which they are written. A chain of operands is read as a tree that
nests to the left, and evaluating that tree takes the operands from left to right, each with its
operator as soon as its value is there. -/

namespace Bhasha

open Bhasha.Parser

/-- The next operand is evaluated and its operator applied to the value so far. -/
def Link.step (n : Nat) (v : Value) (k : Link) : Run Value := do
  let w ← eval n k.right.expr
  .ofExcept (v.combine k.op w)

/-- The operands in order, each joined at once to the value of all before it. -/
def OperatorChain.leftToRight (n : Nat) (c : OperatorChain) : Run Value := do
  let v ← eval n c.first.expr
  c.links.foldlM (Link.step n) v

theorem eval_join (n : Nat) (e : Expr) (k : Link) :
    eval n (k.join e) = eval n e >>= fun v => k.step n v := rfl

theorem eval_foldl_join (n : Nat) (links : List Link) (e : Expr) :
    eval n (links.foldl Link.join e) = eval n e >>= links.foldlM (Link.step n) := by
  induction links generalizing e with
  | nil => exact (Run.bind_pure (eval n e)).symm
  | cons k links ih =>
    rw [List.foldl_cons, ih, eval_join, Run.bind_assoc]
    rfl

/-- A chain of operands is read to its end. Whatever the state of the machine, its tree is evaluated
as the operands are from left to right: to the same value or error, with the same output and the
same stores. In parentheses the chain is one operand of another, with the same tree. -/
theorem operators_run_left_to_right (c : OperatorChain) {rest : List Lexeme}
    (h : c.EndsBefore rest) :
    expression (c.tokens ++ rest) = (.ok c.tree, rest) ∧
      (∀ n m, eval n c.tree m = c.leftToRight n m) ∧
      ∀ l r : Lexeme, l.token = .leftParen → r.token = .rightParen →
        ∃ o : Operand, o.tokens = l :: c.tokens ++ [r] ∧ o.expr = c.tree := by
  refine ⟨c.expression_eq h, fun n m => ?_, fun l r hl hr => c.exists_operand hl hr⟩
  exact congrFun (eval_foldl_join n c.links c.first.expr) m

/-- One call that prints and a group, between operators that have no rank: `*` is applied last. -/
theorem operators_run_left_to_right_printing :
    let one : Operand := ⟨[⟨.number "1", 1⟩], .number "1", [], rfl⟩
    let call : Operand := ⟨[⟨.identifier "f", 1⟩, ⟨.leftParen, 1⟩, ⟨.number "2", 1⟩,
      ⟨.rightParen, 2⟩], .call "f" [.number "2"], [], rfl⟩
    let group : Operand := ⟨[⟨.leftParen, 2⟩, ⟨.identifier "x", 2⟩, ⟨.operator .sub, 2⟩,
      ⟨.number "3", 2⟩, ⟨.rightParen, 3⟩], .binary .sub (.var "x") (.number "3"), [], rfl⟩
    let c : OperatorChain := ⟨one, [⟨.add, 1, call, rfl⟩, ⟨.mul, 2, group, rfl⟩]⟩
    let m : Machine := { Machine.start 1 with
      vars := ⟨[("x", .int ⟨10, by decide, by decide⟩)]⟩
      functions := ⟨[("f", ⟨["y"], [.print (.var "y"), .ret (.number "5")]⟩)]⟩ }
    c.EndsBefore [⟨.leftParen, 3⟩] ∧
      expression (c.tokens ++ [⟨.leftParen, 3⟩]) = (.ok c.tree, [⟨.leftParen, 3⟩]) ∧
      ∃ m', eval 1 c.tree m = some (.ok (.int ⟨42, by decide, by decide⟩), m') ∧
        m'.output = "2\n" := by
  intro one call group c m
  have hends : c.EndsBefore [⟨.leftParen, 3⟩] := by
    refine ⟨?_, nofun⟩
    rintro _ ⟨⟩
    rfl
  obtain ⟨hread, heval, -⟩ := operators_run_left_to_right c hends
  refine ⟨hends, hread, ?_⟩
  rw [heval]
  exact ⟨_, rfl, rfl⟩

end Bhasha
