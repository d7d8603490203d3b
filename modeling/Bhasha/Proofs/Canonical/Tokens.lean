import Bhasha.Proofs.Canonical.WellFormed
import Bhasha.Proofs.Grammar.Complete

/-! The tokens of a layout derive the tree that was laid out. Operators group to the left, so a left
operand needs no parentheses, and with braces around every body no `nahitar` can go astray. -/

namespace Bhasha.Layout

open Grammar

/-- The tokens of a layout, without its blanks. -/
def tokens : List Piece → List Token
  | [] => []
  | .token t :: ps => t :: tokens ps
  | _ :: ps => tokens ps

@[simp] theorem tokens_nil : tokens [] = [] := rfl

@[simp] theorem tokens_token (t : Token) (ps : List Piece) :
    tokens (.token t :: ps) = t :: tokens ps :=
  rfl

@[simp] theorem tokens_space (ps : List Piece) : tokens (.space :: ps) = tokens ps := rfl

@[simp] theorem tokens_newline (ps : List Piece) : tokens (.newline :: ps) = tokens ps := rfl

@[simp] theorem tokens_indent (depth : Nat) (ps : List Piece) :
    tokens (.indent depth :: ps) = tokens ps :=
  rfl

@[simp] theorem tokens_append (ps qs : List Piece) :
    tokens (ps ++ qs) = tokens ps ++ tokens qs := by
  induction ps with
  | nil => rfl
  | cons p ps ih => cases p <;> simp [ih]

theorem commas_cons (item next : List Piece) (items : List (List Piece)) :
    commas (item :: next :: items) = item ++ [.token .comma, .space] ++ commas (next :: items) :=
  rfl

/-- An operator and an operand after a chain lengthen it. -/
theorem chain_snoc {left e right : Expr} {op : Operator} {ts mid after rest : List Token}
    (ho : op.isArithmetic = true) (hr : Primary after right rest) :
    Chain left ts e mid → mid = .operator op :: after → Chain left ts (.binary op e right) rest
  | .done, hm => hm ▸ .more ho hr .done
  | .more ho' h hc, hm => .more ho' h (chain_snoc ho hr hc hm)

mutual

theorem tokens_expr (e : Expr) (he : e.wellFormed = true) (rest : List Token) :
    Expression (tokens (expr e) ++ rest) e rest ∧
      (e.isBinary = false → Primary (tokens (expr e) ++ rest) e rest) :=
  match e with
  | .number text => ⟨.mk .number .done, fun _ => .number⟩
  | .string text => ⟨.mk .string .done, fun _ => .string⟩
  | .var name => ⟨.mk .var .done, fun _ => .var⟩
  | .binary op left right => by
    simp only [Expr.wellFormed, Bool.and_eq_true] at he
    obtain ⟨⟨ho, hl⟩, hr⟩ := he
    have hright : Primary (tokens (if right.isBinary then parens (expr right) else expr right) ++
        rest) right rest := by
      cases hb : right.isBinary with
      | true =>
        have := (tokens_expr right hr (.rightParen :: rest)).1
        simpa [parens] using Primary.group this
      | false => exact (tokens_expr right hr rest).2 hb
    obtain ⟨hp, hc⟩ := (tokens_expr left hl _).1
    refine ⟨?_, fun h => by cases h⟩
    simp only [expr, spaced, tokens_append, List.append_assoc]
    exact .mk hp (chain_snoc ho hright hc rfl)
  | .call name args => by
    simp only [Expr.wellFormed, Bool.and_eq_true] at he
    have hargs : Listed Expression (tokens (commas (exprs args)) ++ .rightParen :: rest) args
        rest := by
      by_cases hn : args = []
      · rw [hn]
        exact .none
      · exact .some (tokens_exprs args hn he.2 (.rightParen :: rest))
    have hp : Primary (tokens (expr (.call name args)) ++ rest) (.call name args) rest := by
      simpa [expr, parens] using Primary.call hargs
    exact ⟨.mk hp .done, fun _ => hp⟩

theorem tokens_exprs (es : List Expr) (hn : es ≠ []) (hes : Expr.allWellFormed es = true)
    (rest : List Token) : Separated Expression (tokens (commas (exprs es)) ++ rest) es rest :=
  match es with
  | [] => absurd rfl hn
  | [e] => by
    simp only [Expr.allWellFormed, Bool.and_true] at hes
    exact .last (tokens_expr e hes rest).1
  | e :: e' :: es => by
    rw [Expr.allWellFormed, Bool.and_eq_true] at hes
    have hs := tokens_exprs (e' :: es) (by simp) hes.2 rest
    have he := (tokens_expr e hes.1 (.comma :: (tokens (commas (exprs (e' :: es))) ++ rest))).1
    simpa [exprs, commas_cons] using Separated.more he hs

end

theorem tokens_names (xs : List String) (rest : List Token) :
    Listed Name (tokens (commas (xs.map fun x => [.token (.identifier x)])) ++ .rightParen :: rest)
      xs rest := by
  cases xs with
  | nil => exact .none
  | cons x xs =>
    refine .some ?_
    induction xs generalizing x with
    | nil => exact .last .mk
    | cons y xs ih =>
      have := Separated.more (Name.mk (x := x)) (ih y)
      simpa [commas_cons] using this

theorem tokens_condition {c : Condition} (hc : c.wellFormed = true) (rest : List Token) :
    Test (tokens (condition c) ++ rest) c rest := by
  obtain ⟨left, op, right⟩ := c
  have comparand : ∀ e : Expr, e.isComparand = true →
      ∃ t, tokens (expr e) = [t] ∧ Comparand t e := by
    rintro (_ | _ | _ | _ | _) h
    · exact ⟨_, rfl, .number⟩
    · cases h
    · exact ⟨_, rfl, .var⟩
    · cases h
    · cases h
  simp only [Condition.wellFormed, Bool.and_eq_true] at hc
  obtain ⟨l, hl, hcl⟩ := comparand left hc.1.1.1
  obtain ⟨r, hr, hcr⟩ := comparand right hc.1.2
  have h : Test (l :: .operator op :: r :: rest) ⟨left, op, right⟩ rest := .mk hcl hcr
  simpa [condition, spaced, hl, hr] using h

theorem tokens_declare {x : String} {e : Expr} (he : e.wellFormed = true) (rest : List Token) :
    Declaration (.declare :: (tokens (binding x e) ++ .semicolon :: rest)) (.declare x e) rest :=
  .mk (tokens_expr e he (.semicolon :: rest)).1

theorem tokens_assign {x : String} {e : Expr} (he : e.wellFormed = true) (rest : List Token) :
    Clause (tokens (binding x e) ++ rest) (.assign x e) rest :=
  .mk (tokens_expr e he rest).1

theorem tokens_braces (depth : Nat) {lines : List Piece} {b : Block} {rest : List Token}
    (h : Sequence (tokens lines ++ .rightBrace :: rest) b (.rightBrace :: rest)) :
    Body (tokens (braces depth lines) ++ rest) b rest := by
  simpa [braces] using Body.braced h

theorem sequence_head {ts rest : List Token} {b : Block} (h : Sequence ts b rest)
    (hr : rest.head? ≠ some .otherwise) : ts.head? ≠ some .otherwise := by
  cases h with
  | nil => exact hr
  | cons h _ =>
    obtain ⟨t, ts, rfl, ht⟩ := h.starts
    rintro ⟨⟩
    cases ht

mutual

theorem tokens_stmt (depth : Nat) (s : Stmt) (hs : s.wellFormed = true) (rest : List Token)
    (hr : rest.head? ≠ some .otherwise) : Statement (tokens (stmt depth s) ++ rest) s rest :=
  match s with
  | .declare x e => by
    simp only [Stmt.wellFormed, Bool.and_eq_true] at hs
    simpa [stmt] using Statement.declare (tokens_declare hs.2 rest)
  | .assign x e => by
    simp only [Stmt.wellFormed, Bool.and_eq_true] at hs
    simpa [stmt] using Statement.assign (tokens_assign hs.2 (.semicolon :: rest))
  | .print e => by
    simp only [Stmt.wellFormed] at hs
    simpa [stmt, parens] using Statement.print (tokens_expr e hs _).1
  | .ret e => by
    simp only [Stmt.wellFormed] at hs
    simpa [stmt] using Statement.ret (tokens_expr e hs _).1
  | .cond c yes none => by
    simp only [Stmt.wellFormed, Bool.and_eq_true] at hs
    have hy := tokens_block (depth + 1) yes hs.1.2 (.rightBrace :: rest) (by simp)
    simpa [stmt, header, parens] using
      Statement.ifThen (tokens_condition hs.1.1 _) (tokens_braces depth hy) hr
  | .cond c yes (some no) => by
    simp only [Stmt.wellFormed, Bool.and_eq_true] at hs
    have hn := tokens_block (depth + 1) no hs.2 (.rightBrace :: rest) (by simp)
    have hy := tokens_block (depth + 1) yes hs.1.2 (.rightBrace :: .otherwise ::
      (tokens (braces depth (block (depth + 1) no)) ++ rest)) (by simp)
    simpa [stmt, header, parens] using Statement.ifElse (tokens_condition hs.1.1 _)
      (tokens_braces depth hy) (tokens_braces depth hn)
  | .whileLoop c body => by
    simp only [Stmt.wellFormed, Bool.and_eq_true] at hs
    have hb := tokens_block (depth + 1) body hs.2 (.rightBrace :: .endLoop :: rest) (by simp)
    simpa [stmt, header, parens] using
      Statement.whileLoop (tokens_condition hs.1 _) (tokens_braces depth hb)
  | .forLoop init c step body => by
    simp only [Stmt.wellFormed, Bool.and_eq_true] at hs
    obtain ⟨⟨⟨⟨⟨hid, hi⟩, hc⟩, hsa⟩, hstep⟩, hb⟩ := hs
    have hb := tokens_block (depth + 1) body hb (.rightBrace :: .endLoop :: rest) (by simp)
    obtain ⟨x, e, rfl⟩ := Stmt.isDeclaration_iff.mp hid
    obtain ⟨y, e', rfl⟩ := Stmt.isAssignment_iff.mp hsa
    simp only [Stmt.wellFormed, Bool.and_eq_true] at hi hstep
    simpa [stmt, parens] using Statement.forLoop (tokens_declare hi.2 _) .absent
      (tokens_condition hc _) (tokens_assign hstep.2 _) .absent (tokens_braces depth hb)
  | .function name params body => by
    simp only [Stmt.wellFormed, Bool.and_eq_true] at hs
    have hb := tokens_block (depth + 1) body hs.2 (.rightBrace :: rest) (by simp)
    simpa [stmt, parens, braces] using
      Statement.function (tokens_names params (.leftBrace :: _)) hb

theorem tokens_block (depth : Nat) (b : List Stmt) (hb : Stmt.allWellFormed b = true)
    (rest : List Token) (hr : rest.head? ≠ some .otherwise) :
    Sequence (tokens (block depth b) ++ rest) b rest :=
  match b with
  | [] => .nil
  | s :: ss => by
    rw [Stmt.allWellFormed, Bool.and_eq_true] at hb
    have hss := tokens_block depth ss hb.2 rest hr
    have hs := tokens_stmt depth s hb.1 _ (sequence_head hss hr)
    simpa [block] using Sequence.cons hs hss

end

end Bhasha.Layout
