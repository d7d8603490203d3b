import Bhasha.Proofs.Parser.Completion
import Bhasha.Proofs.Parser.Progress

/-! Operands with operators between them. An operand that ends in a literal or a parenthesis is read
in the same way whatever follows; only a name looks at the next token, which may make a call of it
(`primary_before`). So a chain of operands is read to its end, as the tree that joins them from the
left (`OperatorChain.expression_eq`). -/

namespace Bhasha.Parser

variable {α β : Type} {b c : Bool} {used rest rest' : List Lexeme}

/-- If the parser succeeds, what follows the tokens it takes has no say in it. -/
def Closed (p : Parser α) : Prop :=
  ∀ (used rest rest' : List Lexeme) (a : α),
    p (used ++ rest) = (.ok a, rest) → p (used ++ rest') = (.ok a, rest')

theorem Regular.bind_split {p : Parser α} {f : α → Parser β} {x : β} (hp : Regular b p)
    (hf : ∀ a, Regular c (f a)) (h : (p >>= f) (used ++ rest) = (.ok x, rest)) :
    ∃ u v a, used = u ++ v ∧ p (u ++ (v ++ rest)) = (.ok a, v ++ rest) ∧
      f a (v ++ rest) = (.ok x, rest) ∧ c.toNat ≤ v.length := by
  obtain ⟨a, mid, ha, hx⟩ := bind_eq_ok.mp h
  obtain ⟨u, v, rfl, rfl, -⟩ := (hp _).split (fun a => hf a _) (Nat.lt_succ_self _) ha hx
  have htaken := ((hf a).leaves _).taken x rest hx
  rw [List.append_assoc] at ha
  rw [List.length_append] at htaken
  exact ⟨u, v, a, rfl, ha, hx, by omega⟩

theorem closed_pure (a : α) : Closed (pure a : Parser α) := by
  intro used rest rest' a' h
  simp only [pure_apply, Prod.mk.injEq, List.append_left_eq_self] at h ⊢
  exact h

theorem closed_next (expected : Expected) (accept : Token → Option α) :
    Closed (next expected accept) := by
  intro used rest rest' a h
  obtain ⟨l, hl, ha⟩ := next_eq_ok.mp h
  obtain rfl : used = [l] := List.append_cancel_right hl
  exact next_eq_ok.mpr ⟨l, rfl, ha⟩

theorem Closed.bind {p : Parser α} {f : α → Parser β} (hp : Regular b p)
    (hf : ∀ a, Regular c (f a)) (hc : Closed p) (hcf : ∀ a, Closed (f a)) : Closed (p >>= f) := by
  intro used rest rest' x hx
  obtain ⟨u, v, a, rfl, ha, hx, -⟩ := hp.bind_split hf hx
  rw [List.append_assoc, bind_of_ok (hc _ _ _ a ha)]
  exact hcf a _ _ _ x hx

/-- Where the second parser takes a token, that is the one at which the first may look. -/
theorem Closed.of_taking {p : Parser α} {f : α → Parser β} (hp : Regular b p)
    (hf : ∀ a, Regular true (f a)) (hcf : ∀ a, Closed (f a)) : Closed (p >>= f) := by
  intro used rest rest' x hx
  obtain ⟨u, v, a, rfl, ha, hx, hv⟩ := hp.bind_split hf hx
  cases v with
  | nil => cases hv
  | cons l v =>
    have h : p (u ++ (l :: v ++ rest')) = (.ok a, l :: v ++ rest') := hp.stable ha rfl
    rw [List.append_assoc, bind_of_ok h]
    exact hcf a _ _ _ x hx

section

variable {p : Parser α} {n : Nat}

/-- What follows an item: the other items after a comma, or nothing. -/
theorem regular_rest {closing : Token} (h : Regular false (items p closing n)) (first : α)
    (more : Bool) : Regular false (if more = true then
      (do return first :: (← items p closing n)) else pure [first]) := by
  cases more with
  | true => exact fun k => .bind (h k) fun _ => .pure _
  | false => exact fun _ => .pure _

variable (hp : Regular true p) (closing : Token)

include hp

theorem regular_items (n : Nat) : Regular false (items p closing n) := by
  induction n with
  | zero => exact fun _ => .pure []
  | succ n ih =>
    exact fun k => .weaken <| .first (hp k) fun first =>
      .bind (Similar.next _ _).any fun more => regular_rest ih first more k

theorem closed_items (n : Nat) : Closed (items p closing n) := by
  induction n with
  | zero => exact closed_pure []
  | succ n ih =>
    have hrest := regular_rest (regular_items hp closing n)
    refine .of_taking hp (fun first k => .first (.next _ _) fun more => hrest first more k)
      fun first => .bind (fun _ => .next _ _) (hrest first) (closed_next _ _) fun more => ?_
    cases more with
    | true => exact .bind (regular_items hp closing n) (fun _ _ => .pure _) ih fun _ => closed_pure _
    | false => exact closed_pure _

theorem closed_separated : Closed (separated p closing) := by
  intro used rest rest' as h
  -- one bound for both inputs
  let n := (used ++ rest).length + (used ++ rest').length + 1
  have heq : ∀ ts, ts.length < n → items p closing n ts = separated p closing ts :=
    (similar_separated (hp n) (Nat.le_refl n)).agree
  rw [← heq _ (by omega)] at h ⊢
  exact closed_items hp closing n _ _ _ as h

theorem closed_listed : Closed (listed p closing) := by
  intro used rest rest' as h
  rcases next?_bind_eq_ok.mp h with ⟨l, mid, _, hl, hclosing, has⟩ | ⟨hclear, has⟩
  · cases has
    obtain rfl : used = [l] := List.append_cancel_right hl
    exact next?_bind_eq_ok.mpr (.inl ⟨l, rest', _, rfl, hclosing, rfl⟩)
  · cases used with
    | nil =>
      have hshort : rest.length < rest.length := (regular_separated hp).shorter has
      omega
    | cons l used =>
      exact next?_bind_eq_ok.mpr (.inr ⟨hclear, closed_separated hp closing _ _ _ as has⟩)

end

theorem regular_call (name : String) :
    Regular false (listed expression .rightParen >>= fun args => pure (Expr.call name args)) :=
  fun k => .bind (regular_listed regular_expression k) fun _ => .pure _

theorem closed_call (name : String) :
    Closed (listed expression .rightParen >>= fun args => pure (Expr.call name args)) :=
  .bind (regular_listed regular_expression) (fun _ _ => .pure _)
    (closed_listed regular_expression _) fun _ => closed_pure _

theorem closed_group : Closed (expression >>= fun e => expect .rightParen >>= fun _ => pure e) :=
  .of_taking regular_expression (fun e k => .first (regular_expect _ k) fun _ => .pure e)
    fun e => .bind (regular_expect _) (fun _ _ => .pure e) (closed_next _ _) fun _ => closed_pure e

theorem opening_eq_name {t : Token} {name : String} (h : opening t = some (.name name)) :
    t = .identifier name := by
  cases t <;> cases h
  rfl

/-- Only an operand that is a name depends on what follows: a parenthesis makes a call of it. -/
theorem primary_before {e : Expr} (h : primary (used ++ rest) = (.ok e, rest))
    (hname : ∀ name line, used = [⟨.identifier name, line⟩] → Clear (only .leftParen) rest') :
    primary (used ++ rest') = (.ok e, rest') := by
  have hshort := regular_primary.shorter h
  obtain ⟨l, mid, o, hl, ho, h⟩ := next_bind_eq_ok.mp h
  cases used with
  | nil => simp at hshort
  | cons l used =>
    obtain ⟨rfl, rfl⟩ := List.cons.inj hl
    refine next_bind_eq_ok.mpr ⟨l, used ++ rest', o, rfl, ho, ?_⟩
    cases o with
    | literal e' => exact closed_pure e' _ _ _ e h
    | group => exact closed_group _ _ _ e h
    | name name =>
      rcases next?_bind_eq_ok.mp h with ⟨paren, mid, _, hl, hparen, h⟩ | ⟨-, h⟩
      · have hlen := ((regular_call name).leaves mid).taken e rest h
        cases used with
        | nil =>
          have hl : rest = paren :: mid := hl
          rw [hl, List.length_cons] at hlen
          omega
        | cons paren used =>
          obtain ⟨rfl, rfl⟩ := List.cons.inj hl
          exact next?_bind_eq_ok.mpr
            (.inl ⟨paren, used ++ rest', _, rfl, hparen, closed_call name _ _ _ e h⟩)
      · obtain ⟨he, hused⟩ := Prod.mk.inj h
        obtain rfl := List.append_left_eq_self.mp hused
        cases he
        have hclear := hname name l.line (by rw [← opening_eq_name ho])
        exact next?_bind_eq_ok.mpr (.inr ⟨hclear, rfl⟩)

end Bhasha.Parser

namespace Bhasha

open Bhasha.Parser

/-- Tokens that are read as one operand, to their end. It does not matter what they were followed
by: the next operator will do. -/
structure Operand where
  tokens : List Lexeme
  expr : Expr
  reads : ∃ rest, primary (tokens ++ rest) = (.ok expr, rest)

/-- What follows the operand does not make a call of it, which it could if the operand is a name. -/
def Operand.Uncalled (o : Operand) (rest : List Lexeme) : Prop :=
  ∀ name line, o.tokens = [⟨.identifier name, line⟩] → Clear (only .leftParen) rest

theorem Operand.primary_eq (o : Operand) {rest : List Lexeme} (h : o.Uncalled rest) :
    primary (o.tokens ++ rest) = (.ok o.expr, rest) := by
  obtain ⟨rest', hr⟩ := o.reads
  exact primary_before hr h

/-- An operator and the operand on its right. -/
structure Link where
  op : Operator
  line : Nat
  right : Operand
  arithmetic : op.isArithmetic = true

namespace Link

def tokens (k : Link) : List Lexeme := ⟨.operator k.op, k.line⟩ :: k.right.tokens

def join (left : Expr) (k : Link) : Expr := .binary k.op left k.right.expr

theorem arithmetic_op (k : Link) : Parser.arithmetic (.operator k.op) = some k.op :=
  if_pos k.arithmetic

end Link

/-- An operand, and any number of operators with an operand each. -/
structure OperatorChain where
  first : Operand
  links : List Link

namespace OperatorChain

def tokens (c : OperatorChain) : List Lexeme := c.first.tokens ++ c.links.flatMap Link.tokens

/-- The operators, each applied to all that stands on its left and to the one operand on its
right. -/
def tree (c : OperatorChain) : Expr := c.links.foldl Link.join c.first.expr

def last (c : OperatorChain) : Operand := c.links.foldl (fun _ k => k.right) c.first

/-- The tokens neither continue the chain nor make a call of its last operand. -/
structure EndsBefore (c : OperatorChain) (rest : List Lexeme) : Prop where
  clear : Clear arithmetic rest
  uncalled : c.last.Uncalled rest

theorem tail_links {links : List Link} {rest : List Lexeme} (hrest : Clear arithmetic rest)
    (o : Operand) (hlast : (links.foldl (fun _ k => k.right) o).Uncalled rest) :
    o.Uncalled (links.flatMap Link.tokens ++ rest) ∧
      ∀ left, tail left (links.flatMap Link.tokens ++ rest) =
        (.ok (links.foldl Link.join left), rest) := by
  induction links generalizing o with
  | nil => exact ⟨hlast, fun left => tail_of_clear left hrest⟩
  | cons k links ih =>
    obtain ⟨huncalled, htail⟩ := ih k.right hlast
    rw [List.flatMap_cons, List.append_assoc, Link.tokens, List.cons_append]
    refine ⟨fun _ _ _ => ?_, fun left => ?_⟩
    · rintro l ⟨⟩
      rfl
    · rw [tail_eq, next?_bind_some _ k.arithmetic_op]
      exact (bind_of_ok (k.right.primary_eq huncalled)).trans (htail _)

theorem expression_eq (c : OperatorChain) {rest : List Lexeme} (h : c.EndsBefore rest) :
    expression (c.tokens ++ rest) = (.ok c.tree, rest) := by
  obtain ⟨huncalled, htail⟩ := tail_links h.clear c.first h.uncalled
  rw [Parser.expression_eq, tokens, List.append_assoc, bind_of_ok (c.first.primary_eq huncalled)]
  exact htail _

/-- In parentheses the chain is an operand itself. -/
theorem exists_operand (c : OperatorChain) {l r : Lexeme} (hl : l.token = .leftParen)
    (hr : r.token = .rightParen) :
    ∃ o : Operand, o.tokens = l :: c.tokens ++ [r] ∧ o.expr = c.tree := by
  have hends : c.EndsBefore [r] := by
    refine ⟨?_, fun _ _ _ => ?_⟩ <;> rintro _ ⟨⟩ <;> rw [hr] <;> rfl
  refine ⟨⟨l :: c.tokens ++ [r], c.tree, [], ?_⟩, rfl, rfl⟩
  rw [List.append_nil]
  refine next_bind_eq_ok.mpr ⟨l, c.tokens ++ [r], .group, rfl, by rw [hl]; rfl, ?_⟩
  exact bind_eq_ok.mpr ⟨c.tree, [r], c.expression_eq hends,
    expect_bind_eq_ok.mpr ⟨r, [], rfl, hr, rfl⟩⟩

end OperatorChain

end Bhasha
