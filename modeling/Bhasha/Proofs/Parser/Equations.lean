import Bhasha.Proofs.Parser.Similar

/-! The bounds that the parsers of lists, expressions and blocks carry are never reached. Each of
them meets an equation that names no bound (`expression_eq`, `tail_eq`, `separated_eq`, `block_eq`),
and every parser of the grammar is put together from the steps that `Similar` knows. -/

namespace Bhasha.Parser

variable {α : Type} {m n k : Nat}

theorem regular_expect (t : Token) : Regular true (expect t) := fun _ => .next _ _

theorem regular_skip (t : Token) : Regular false (skip t) := fun _ =>
  .optional (fun _ => .pure ()) (.pure ())

theorem regular_identifier : Regular true identifier := fun _ => .next _ _

theorem similar_items {p q : Parser α} {closing : Token} (h : Similar true n p q) (hk : n ≤ k)
    (hm : n ≤ m) : Similar true n (items p closing k) (items q closing m) := by
  induction n generalizing k m with
  | zero => exact .zero
  | succ n ih =>
    obtain ⟨k, rfl⟩ : ∃ k', k = k' + 1 := ⟨k - 1, by omega⟩
    obtain ⟨m, rfl⟩ : ∃ m', m = m' + 1 := ⟨m - 1, by omega⟩
    refine .first h fun first => .weaken (.take (.next _ _) fun more => ?_)
    cases more with
    | true => exact .bind (ih (h.mono (by omega)) (by omega) (by omega)).any fun _ => .pure _
    | false => exact .pure _

theorem similar_list {p q : Parser α} {closing : Token} (h : Similar true n p q) (hk : n ≤ k)
    (hm : n ≤ m) : Similar false n (list p closing k) (list q closing m) :=
  .optional (fun _ => .pure _) (similar_items h hk hm).any

theorem similar_operand {p q : Parser Expr} (h : Similar true n p q) (hk : n ≤ k) (hm : n ≤ m) :
    Similar true (n + 1) (operand p k) (operand q m) := by
  refine .take (.next _ _) fun o => ?_
  cases o with
  | literal e => exact .pure e
  | name name => exact .optional (fun _ => .bind (similar_list h hk hm) fun _ => .pure _) (.pure _)
  | group => exact .bind h.any fun e => .bind (regular_expect _ _).any fun _ => .pure e

theorem similar_chain {p q : Parser Expr} (h : Similar true n p q) (hk : n ≤ k) (hm : n ≤ m)
    (left : Expr) : Similar false n (chain p k left) (chain q m left) := by
  induction n generalizing k m left with
  | zero => exact .zero
  | succ n ih =>
    obtain ⟨k, rfl⟩ : ∃ k', k = k' + 1 := ⟨k - 1, by omega⟩
    obtain ⟨m, rfl⟩ : ∃ m', m = m' + 1 := ⟨m - 1, by omega⟩
    have h' := h.mono (Nat.le_succ n)
    exact .opt (fun op => .bind h'.any fun right => ih h' (by omega) (by omega) _) (.pure left)

theorem similar_expressionAt (hk : n ≤ k) (hm : n ≤ m) :
    Similar true n (expressionAt k) (expressionAt m) := by
  induction n generalizing k m with
  | zero => exact .zero
  | succ n ih =>
    obtain ⟨k, rfl⟩ : ∃ k', k = k' + 1 := ⟨k - 1, by omega⟩
    obtain ⟨m, rfl⟩ : ∃ m', m = m' + 1 := ⟨m - 1, by omega⟩
    have hk : n ≤ k := by omega
    have hm : n ≤ m := by omega
    have h := similar_operand (ih hk hm) hk hm
    exact .take h fun left => similar_chain (h.mono (Nat.le_succ n)) hk hm left

/-- Items with commas between them, under no bound. -/
def separated (item : Parser α) (closing : Token) : Parser (List α) :=
  fun ts => items item closing (ts.length + 1) ts

/-- As `separated`, but there may be none. -/
def listed (item : Parser α) (closing : Token) : Parser (List α) := do
  match ← next? (only closing) with
  | some () => return []
  | none => separated item closing

/-- One operand, under no bound. -/
def primary : Parser Expr := do
  match ← next .expression opening with
  | .literal e => return e
  | .name name =>
    match ← next? (only .leftParen) with
    | some () => return .call name (← listed expression .rightParen)
    | none => return .var name
  | .group =>
    let e ← expression
    expect .rightParen
    return e

/-- The operators and operands after `left`, under no bound. -/
def tail (left : Expr) : Parser Expr := fun ts => chain primary (ts.length + 1) left ts

theorem similar_expression (hk : n ≤ k) : Similar true n (expressionAt k) expression :=
  .unbound fun _ _ hj hm => similar_expressionAt (Nat.le_trans hj hk) hm

theorem similar_separated {p q : Parser α} {closing : Token} (h : Similar true n p q) (hk : n ≤ k) :
    Similar true n (items p closing k) (separated q closing) :=
  .unbound fun _ _ hj hm => similar_items (h.mono hj) (Nat.le_trans hj hk) hm

theorem similar_listed {p q : Parser α} {closing : Token} (h : Similar true n p q) (hk : n ≤ k) :
    Similar false n (list p closing k) (listed q closing) :=
  .optional (fun _ => .pure _) (similar_separated h hk).any

theorem similar_primary (hk : n ≤ k) :
    Similar true (n + 1) (operand (expressionAt k) k) primary := by
  refine .take (.next _ _) fun o => ?_
  have h := similar_expression hk
  cases o with
  | literal e => exact .pure e
  | name name => exact .optional (fun _ => .bind (similar_listed h hk) fun _ => .pure _) (.pure _)
  | group => exact .bind h.any fun e => .bind (regular_expect _ _).any fun _ => .pure e

theorem similar_tail {p : Parser Expr} (h : Similar true n p primary) (hk : n ≤ k) (left : Expr) :
    Similar false n (chain p k left) (tail left) :=
  .unbound fun _ _ hj hm => similar_chain (h.mono hj) (Nat.le_trans hj hk) hm left

theorem regular_primary : Regular true primary := fun n =>
  ((similar_primary (Nat.le_refl n)).mono (Nat.le_succ n)).right

theorem expression_eq : expression = primary >>= tail :=
  Similar.unbound_eq fun n =>
    .take (similar_primary (Nat.le_refl n)) fun left =>
      similar_tail ((similar_primary (Nat.le_refl n)).mono (Nat.le_succ n)) (Nat.le_refl n) left

theorem tail_eq (left : Expr) :
    tail left = do
      match ← next? arithmetic with
      | some op => tail (.binary op left (← primary))
      | none => return left :=
  Similar.unbound_eq (F := fun k => chain primary k left) (b := false) fun n =>
    .opt (fun _ => .bind (regular_primary _).any fun _ =>
      similar_tail (regular_primary _) (Nat.le_refl n) _) (.pure left)

theorem separated_eq {p : Parser α} (closing : Token) (h : Regular true p) :
    separated p closing = do
      let first ← p
      if ← next (.separator closing) (continues closing) then
        return first :: (← separated p closing)
      else
        return [first] := by
  refine Similar.unbound_eq fun n => .first (h _) fun first => ?_
  refine .weaken (.take (.next _ _) fun more => ?_)
  cases more with
  | true => exact .bind (similar_separated (h n) (Nat.le_refl n)).any fun _ => .pure _
  | false => exact .pure _

theorem regular_separated {p : Parser α} {closing : Token} (h : Regular true p) :
    Regular true (separated p closing) := fun n =>
  (similar_separated (h n) (Nat.le_refl n)).right

theorem regular_listed {p : Parser α} {closing : Token} (h : Regular true p) :
    Regular false (listed p closing) := fun n =>
  (similar_listed (h n) (Nat.le_refl n)).right

theorem regular_expression : Regular true expression := fun n =>
  (similar_expression (Nat.le_refl n)).right

theorem regular_binding : Regular true binding := fun _ =>
  .first (regular_identifier _) fun _ =>
    .bind (regular_expect _ _).any fun _ => .bind (regular_expression _).any fun _ => .pure _

theorem regular_declaration : Regular true declaration := fun _ =>
  .first (regular_expect _ _) fun _ => .bind (regular_binding _).any fun _ =>
    .bind (regular_expect _ _).any fun _ => .pure _

theorem regular_assignmentClause : Regular true assignmentClause := fun _ =>
  .first (regular_binding _) fun _ => .pure _

theorem regular_assignment : Regular true assignment := fun _ =>
  .first (regular_assignmentClause _) fun _ => .bind (regular_expect _ _).any fun _ => .pure _

theorem regular_print : Regular true print := fun _ =>
  .first (regular_expect _ _) fun _ => .bind (regular_expect _ _).any fun _ =>
    .bind (regular_expression _).any fun _ => .bind (regular_expect _ _).any fun _ =>
      .bind (regular_expect _ _).any fun _ => .pure _

theorem regular_ret : Regular true ret := fun _ =>
  .first (regular_expect _ _) fun _ => .bind (regular_expression _).any fun _ =>
    .bind (regular_expect _ _).any fun _ => .pure _

theorem regular_condition : Regular true condition := fun _ =>
  .first (.next _ _) fun _ => .bind (Similar.next _ _).any fun _ =>
    .bind (Similar.next _ _).any fun _ => .pure _

theorem regular_header : Regular true header := fun _ =>
  .first (regular_expect _ _) fun _ => .bind (regular_condition _).any fun _ =>
    .bind (regular_expect _ _).any fun _ => .pure _

theorem parameters_eq : parameters = listed identifier .rightParen :=
  Similar.unbound_eq (F := list identifier .rightParen) fun _ =>
    similar_listed (regular_identifier _) (Nat.le_refl _)

theorem regular_parameters : Regular false parameters :=
  parameters_eq ▸ regular_listed regular_identifier

section

variable {p q : Parser Block} (h : Similar false n p q)

include h

theorem similar_bodyWith : Similar false n (bodyWith p) (bodyWith q) :=
  .optional (fun _ => .bind h fun _ => .bind (regular_expect _ _).any fun _ => .pure _) h

theorem similar_conditionalWith : Similar true (n + 1) (conditionalWith p) (conditionalWith q) :=
  .take (regular_expect _ _) fun _ => .bind (regular_header _).any fun _ =>
    .bind (similar_bodyWith h) fun _ =>
      .optional (fun _ => .bind (similar_bodyWith h) fun _ => .pure _) (.pure _)

theorem similar_whileLoopWith : Similar true (n + 1) (whileLoopWith p) (whileLoopWith q) :=
  .take (regular_expect _ _) fun _ => .bind (regular_header _).any fun _ =>
    .bind (similar_bodyWith h) fun _ => .bind (regular_expect _ _).any fun _ => .pure _

theorem similar_forLoopWith : Similar true (n + 1) (forLoopWith p) (forLoopWith q) :=
  .take (regular_expect _ _) fun _ => .bind (regular_expect _ _).any fun _ =>
    .bind (regular_declaration _).any fun _ => .bind (regular_skip _ _) fun _ =>
      .bind (regular_condition _).any fun _ => .bind (regular_expect _ _).any fun _ =>
        .bind (regular_assignmentClause _).any fun _ => .bind (regular_skip _ _) fun _ =>
          .bind (regular_expect _ _).any fun _ => .bind (similar_bodyWith h) fun _ =>
            .bind (regular_expect _ _).any fun _ => .pure _

theorem similar_functionWith : Similar true (n + 1) (functionWith p) (functionWith q) :=
  .take (regular_expect _ _) fun _ => .bind (regular_identifier _).any fun _ =>
    .bind (regular_expect _ _).any fun _ => .bind (regular_parameters _) fun _ =>
      .bind (regular_expect _ _).any fun _ => .bind h fun _ =>
        .bind (regular_expect _ _).any fun _ => .pure _

end

/-- The tokens a statement begins with. -/
def startsStatement : Token → Bool
  | .declare | .print | .cond | .whileLoop | .forLoop | .ret | .identifier _ | .function => true
  | _ => false

/-- The parser of statements that begin with the token. -/
def statementOn (block : Parser Block) : Token → Parser Stmt
  | .declare => declaration
  | .print => print
  | .cond => conditionalWith block
  | .whileLoop => whileLoopWith block
  | .forLoop => forLoopWith block
  | .ret => ret
  | .function => functionWith block
  | _ => assignment

theorem statementWith_eq (block : Parser Block) :
    statementWith block = dispatch .statement startsStatement (statementOn block) := by
  funext ts
  cases ts with
  | nil => rfl
  | cons l ts =>
    obtain ⟨t, line⟩ := l
    cases t <;> rfl

theorem similar_statementWith {p q : Parser Block} (h : Similar false n p q) :
    Similar true (n + 1) (statementWith p) (statementWith q) := by
  rw [statementWith_eq, statementWith_eq]
  refine .dispatch _ _ fun t => ?_
  unfold statementOn
  split
  · exact (regular_declaration _)
  · exact (regular_print _)
  · exact similar_conditionalWith h
  · exact similar_whileLoopWith h
  · exact similar_forLoopWith h
  · exact (regular_ret _)
  · exact similar_functionWith h
  · exact (regular_assignment _)

theorem blockAt_succ (n : Nat) :
    blockAt (n + 1) = unlessClosed [] do
      let s ← statementWith (blockAt n)
      return s :: (← blockAt n) := by
  funext ts
  cases ts with
  | nil => rfl
  | cons l ts =>
    cases h : closesBlock l.token <;> simp [blockAt, unlessClosed, bind_apply, peek, h]

theorem similar_blockAt (hk : n ≤ k) (hm : n ≤ m) : Similar false n (blockAt k) (blockAt m) := by
  induction n generalizing k m with
  | zero => exact .zero
  | succ n ih =>
    obtain ⟨k, rfl⟩ : ∃ k', k = k' + 1 := ⟨k - 1, by omega⟩
    obtain ⟨m, rfl⟩ : ∃ m', m = m' + 1 := ⟨m - 1, by omega⟩
    have h : Similar false n (blockAt k) (blockAt m) := ih (by omega) (by omega)
    rw [blockAt_succ, blockAt_succ]
    exact .unlessClosed _ <| .weaken <| .take (similar_statementWith h) fun _ =>
      .bind h fun _ => .pure _

theorem similar_block (hk : n ≤ k) : Similar false n (blockAt k) block :=
  .unbound fun _ _ hj hm => similar_blockAt (Nat.le_trans hj hk) hm

theorem regular_block : Regular false block := fun n => (similar_block (Nat.le_refl n)).right

theorem regular_statement : Regular true statement := fun n =>
  (similar_statementWith (regular_block _)).mono (Nat.le_succ n)

theorem regular_body : Regular false body := fun n => similar_bodyWith (regular_block n)

theorem regular_conditional : Regular true conditional := fun n =>
  (similar_conditionalWith (regular_block _)).mono (Nat.le_succ n)

theorem regular_whileLoop : Regular true whileLoop := fun n =>
  (similar_whileLoopWith (regular_block _)).mono (Nat.le_succ n)

theorem regular_forLoop : Regular true forLoop := fun n =>
  (similar_forLoopWith (regular_block _)).mono (Nat.le_succ n)

theorem block_eq :
    block = unlessClosed [] do
      let s ← statement
      return s :: (← block) := by
  refine Similar.unbound_eq (F := blockAt) (b := false) fun n => ?_
  have h := similar_block (Nat.le_refl n)
  rw [blockAt_succ]
  exact .unlessClosed _ <| .weaken <| .take (similar_statementWith h) fun _ =>
    .bind h fun _ => .pure _

end Bhasha.Parser
