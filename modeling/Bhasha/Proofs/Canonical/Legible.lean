import Bhasha.Proofs.Canonical.Tokens

/-! The text of a layout is scanned as the tokens that were laid out: no token runs into the next
(`Legible`), neither a name into a digit nor `/` into `/` nor the name `he` into a name after it. -/

namespace Bhasha.Layout

open Scan Text

variable {ps qs : List Piece} {rest : List Char} {t : Token}

/-- Every token can be told from what follows it, up to and with the text `rest`. -/
def Legible : List Piece → List Char → Prop
  | [], _ => True
  | .token t :: ps, rest =>
    t.wellFormed = true ∧ Parted t (ps.flatMap Piece.chars ++ rest) ∧ Legible ps rest
  | _ :: ps, rest => Legible ps rest

theorem legible_append : Legible (ps ++ qs) rest ↔
    Legible ps (qs.flatMap Piece.chars ++ rest) ∧ Legible qs rest := by
  induction ps with
  | nil => simp [Legible]
  | cons p ps ih => cases p <;> simp [Legible, ih, and_assoc]

theorem scanFrom_spaces (n line : Nat) (s : List Char) :
    scanFrom line (List.replicate n ' ' ++ s) = scanFrom line s := by
  induction n with
  | zero => rfl
  | succ n ih => rw [List.replicate_succ, List.cons_append, scanFrom_blank rfl, ih]

theorem scanFrom_legible (h : Legible ps []) (line : Nat) :
    (scanFrom line (ps.flatMap Piece.chars)).fault = none ∧
      (scanFrom line (ps.flatMap Piece.chars)).lexemes.map Lexeme.token = tokens ps := by
  induction ps generalizing line with
  | nil => rw [List.flatMap_nil, scanFrom_stuck line rfl]; exact ⟨rfl, rfl⟩
  | cons p ps ih =>
    rw [List.flatMap_cons]
    cases p with
    | token t =>
      obtain ⟨ht, hp, h⟩ := h
      rw [List.append_nil] at hp
      obtain ⟨hf, hl⟩ := ih h line
      rw [Piece.chars, scanFrom_token line (munch_written ht hp)]
      exact ⟨hf, by simp [Result.cons, hl]⟩
    | space =>
      rw [Piece.chars, List.singleton_append, scanFrom_blank rfl]
      exact ih h line
    | newline =>
      rw [Piece.chars, List.singleton_append, scanFrom_newline line rfl]
      exact ih h (line + 1)
    | indent depth =>
      rw [Piece.chars, scanFrom_spaces]
      exact ih h line

theorem scan_legible (h : Legible ps []) :
    ∃ ls, scan (text ps) = .ok ls ∧ ls.map Lexeme.token = tokens ps := by
  obtain ⟨hf, hl⟩ := scanFrom_legible h 1
  refine ⟨_, ?_, hl⟩
  simp only [scan, scanAll, toList_text, hf]

/-- A text that runs into nothing. -/
structure Delimited (rest : List Char) : Prop where
  stops : ∀ c ∈ rest.head?, isWordChar c = false ∧ c ≠ '=' ∧ c ≠ '/'
  apart : ∀ word, isDeclare word rest = false

theorem Delimited.parted (h : Delimited rest) : Parted t rest :=
  ⟨fun _ => h.stops, fun name _ => h.apart name.toList⟩

theorem delimited_mark {c : Char} (h : c ∈ ['(', ')', ',', ';']) : Delimited (c :: rest) := by
  simp only [List.mem_cons, List.not_mem_nil, or_false] at h
  rcases h with rfl | rfl | rfl | rfl <;>
    exact ⟨by rintro _ ⟨⟩; decide, fun word => by simp [isDeclare]⟩

theorem delimited_semicolon : Delimited ((.token .semicolon :: ps).flatMap Piece.chars ++ rest) :=
  delimited_mark (c := ';') (by simp)

theorem delimited_spaced (op : Operator) : Delimited (' ' :: (op.text.toList ++ rest)) := by
  refine ⟨by rintro _ ⟨⟩; decide, fun word => ?_⟩
  cases op <;> simp [isDeclare, Operator.text, fold, foldCase]

theorem parted_blank {c : Char} (hc : c = ' ' ∨ c = '\n') (ht : ∀ name, t ≠ .identifier name) :
    Parted t (c :: rest) := by
  refine ⟨fun _ => ?_, fun name h => absurd h (ht name)⟩
  rintro _ ⟨⟩
  rcases hc with rfl | rfl <;> decide

theorem parted_mark (h : runsOn t = false) : Parted t rest :=
  ⟨fun hr => by simp [h] at hr, by rintro name rfl; cases h⟩

theorem legible_mark (hm : runsOn t = false) (ht : t.wellFormed = true) :
    Legible (.token t :: ps) rest ↔ Legible ps rest :=
  ⟨fun h => h.2.2, fun h => ⟨ht, parted_mark hm, h⟩⟩

theorem legible_spaced (op : Operator) : Legible (spaced op) rest :=
  ⟨rfl, parted_blank (.inl rfl) (by simp), trivial⟩

theorem delimited_operator (op : Operator) :
    Delimited ((spaced op ++ ps).flatMap Piece.chars ++ rest) := by
  simp only [spaced, List.cons_append, List.flatMap_cons, List.append_assoc]
  exact delimited_spaced op

theorem legible_parens : Legible (parens ps) rest ↔ Legible ps (')' :: rest) := by
  rw [parens, List.cons_append, legible_mark rfl rfl, legible_append, legible_mark rfl rfl]
  simp [Legible, Piece.chars, Token.written, Token.lexeme]

mutual

theorem legible_expr (e : Expr) (he : e.wellFormed = true) (rest : List Char)
    (hr : Delimited rest) : Legible (expr e) rest :=
  match e with
  | .number text => ⟨he, hr.parted, trivial⟩
  | .string text => ⟨he, hr.parted, trivial⟩
  | .var name => ⟨he, hr.parted, trivial⟩
  | .binary op left right => by
    simp only [Expr.wellFormed, Bool.and_eq_true] at he
    rw [expr, List.append_assoc, legible_append, legible_append]
    refine ⟨legible_expr left he.1.2 _ (delimited_operator op), legible_spaced op, ?_⟩
    split
    · rw [legible_parens]
      exact legible_expr right he.2 _ (delimited_mark (by simp))
    · exact legible_expr right he.2 rest hr
  | .call name args => by
    simp only [Expr.wellFormed, Bool.and_eq_true] at he
    refine ⟨he.1, ?_, ?_⟩
    · exact (delimited_mark (c := '(') (by simp)).parted
    · rw [legible_parens]
      exact legible_exprs args he.2 _ (delimited_mark (by simp))

theorem legible_exprs (es : List Expr) (hes : Expr.allWellFormed es = true) (rest : List Char)
    (hr : Delimited rest) : Legible (commas (exprs es)) rest :=
  match es with
  | [] => trivial
  | [e] => by
    simp only [Expr.allWellFormed, Bool.and_true] at hes
    exact legible_expr e hes rest hr
  | e :: e' :: es => by
    rw [Expr.allWellFormed, Bool.and_eq_true] at hes
    rw [exprs, exprs, commas_cons, legible_append, legible_append, legible_mark rfl rfl, ← exprs]
    refine ⟨⟨legible_expr e hes.1 _ ?_, trivial⟩, legible_exprs (e' :: es) hes.2 rest hr⟩
    exact delimited_mark (c := ',') (by simp)

end

theorem legible_names {xs : List String}
    (hx : xs.all (fun x => (Token.identifier x).wellFormed) = true) (hr : Delimited rest) :
    Legible (commas (xs.map fun x => [.token (.identifier x)])) rest := by
  cases xs with
  | nil => trivial
  | cons x xs =>
    induction xs generalizing x with
    | nil =>
      simp only [List.all_cons, List.all_nil, Bool.and_true] at hx
      exact ⟨hx, hr.parted, trivial⟩
    | cons y xs ih =>
      rw [List.all_cons, Bool.and_eq_true] at hx
      rw [List.map_cons, List.map_cons, commas_cons, legible_append]
      exact ⟨⟨hx.1, (delimited_mark (c := ',') (by simp)).parted,
        (legible_mark rfl rfl).mpr trivial⟩, ih y hx.2⟩

theorem legible_condition {c : Condition} (hc : c.wellFormed = true) (hr : Delimited rest) :
    Legible (condition c) rest := by
  simp only [Condition.wellFormed, Bool.and_eq_true] at hc
  rw [condition, List.append_assoc, legible_append, legible_append]
  exact ⟨legible_expr c.left hc.1.1.2 _ (delimited_operator c.op), legible_spaced c.op,
    legible_expr c.right hc.2 rest hr⟩

theorem legible_binding {x : String} {e : Expr} (hx : (Token.identifier x).wellFormed = true)
    (he : e.wellFormed = true) (hr : Delimited rest) : Legible (binding x e) rest :=
  ⟨hx, (delimited_operator .assign).parted,
    legible_append.mpr ⟨legible_spaced .assign, legible_expr e he rest hr⟩⟩

theorem legible_keyword (ht : t.wellFormed = true) (hn : ∀ name, t ≠ .identifier name) :
    Legible (.token t :: .space :: ps) rest ↔ Legible ps rest :=
  ⟨fun h => h.2.2, fun h => ⟨ht, parted_blank (.inl rfl) hn, h⟩⟩

theorem legible_header {c : Condition} {keyword : Token} (hk : keyword.wellFormed = true)
    (hn : ∀ name, keyword ≠ .identifier name) (hc : c.wellFormed = true) :
    Legible (header keyword c) rest := by
  rw [header, List.append_assoc, List.cons_append, List.cons_append, List.nil_append,
    legible_keyword hk hn, legible_append, legible_parens]
  exact ⟨legible_condition hc (delimited_mark (by simp)), trivial⟩

theorem legible_braces (depth : Nat) (h : ∀ rest, Legible ps rest) :
    Legible (braces depth ps) rest := by
  rw [braces, legible_append, legible_append]
  exact ⟨⟨(legible_mark rfl rfl).mpr trivial, h _⟩, (legible_mark rfl rfl).mpr trivial⟩

theorem legible_endLoop : Legible [.space, .token .endLoop] ('\n' :: rest) :=
  ⟨rfl, parted_blank (.inr rfl) (by simp), trivial⟩

theorem legible_declare {depth : Nat} {x : String} {e : Expr}
    (hs : (Stmt.declare x e).wellFormed = true) : Legible (stmt depth (.declare x e)) rest := by
  simp only [Stmt.wellFormed, Bool.and_eq_true] at hs
  rw [stmt, List.append_assoc, List.cons_append, List.cons_append, List.nil_append,
    legible_keyword rfl (by simp), legible_append, legible_mark rfl rfl]
  exact ⟨legible_binding hs.1 hs.2 delimited_semicolon, trivial⟩

mutual

theorem legible_stmt (depth : Nat) (s : Stmt) (hs : s.wellFormed = true) (rest : List Char) :
    Legible (stmt depth s) ('\n' :: rest) :=
  match s with
  | .declare x e => legible_declare hs
  | .assign x e => by
    simp only [Stmt.wellFormed, Bool.and_eq_true] at hs
    rw [stmt, legible_append, legible_mark rfl rfl]
    exact ⟨legible_binding hs.1 hs.2 delimited_semicolon, trivial⟩
  | .print e => by
    simp only [Stmt.wellFormed] at hs
    rw [stmt, legible_append]
    refine ⟨⟨rfl, (delimited_mark (c := '(') (by simp)).parted, ?_⟩,
      (legible_mark rfl rfl).mpr trivial⟩
    exact legible_parens.mpr (legible_expr e hs _ (delimited_mark (by simp)))
  | .ret e => by
    simp only [Stmt.wellFormed] at hs
    rw [stmt, List.append_assoc, List.cons_append, List.cons_append, List.nil_append,
      legible_keyword rfl (by simp), legible_append, legible_mark rfl rfl]
    exact ⟨legible_expr e hs _ delimited_semicolon, trivial⟩
  | .cond c yes none => by
    simp only [Stmt.wellFormed, Bool.and_eq_true] at hs
    rw [stmt, legible_append, legible_append]
    exact ⟨⟨legible_header rfl (by simp) hs.1.1,
      legible_braces depth (legible_block (depth + 1) yes hs.1.2)⟩, trivial⟩
  | .cond c yes (some no) => by
    simp only [Stmt.wellFormed, Bool.and_eq_true] at hs
    rw [stmt, legible_append, legible_append, legible_append]
    exact ⟨⟨legible_header rfl (by simp) hs.1.1,
        legible_braces depth (legible_block (depth + 1) yes hs.1.2)⟩,
      (legible_keyword rfl (by simp)).mpr trivial,
      legible_braces depth (legible_block (depth + 1) no hs.2)⟩
  | .whileLoop c body => by
    simp only [Stmt.wellFormed, Bool.and_eq_true] at hs
    rw [stmt, legible_append, legible_append]
    exact ⟨⟨legible_header rfl (by simp) hs.1,
      legible_braces depth (legible_block (depth + 1) body hs.2)⟩, legible_endLoop⟩
  | .forLoop init c step body => by
    simp only [Stmt.wellFormed, Bool.and_eq_true] at hs
    obtain ⟨⟨⟨⟨⟨hid, hi⟩, hc⟩, hsa⟩, hstep⟩, hb⟩ := hs
    obtain ⟨x, e, rfl⟩ := Stmt.isDeclaration_iff.mp hid
    obtain ⟨y, e', rfl⟩ := Stmt.isAssignment_iff.mp hsa
    simp only [Stmt.wellFormed, Bool.and_eq_true] at hstep
    rw [stmt, legible_append, legible_append, legible_append, legible_append, legible_parens,
      legible_append, legible_append, legible_append, legible_append]
    exact ⟨⟨⟨⟨(legible_keyword rfl (by simp)).mpr trivial,
        ⟨⟨⟨legible_declare hi, trivial⟩, legible_condition hc delimited_semicolon⟩,
          (legible_mark rfl rfl).mpr trivial⟩,
        legible_binding hstep.1 hstep.2 (delimited_mark (by simp))⟩, trivial⟩,
      legible_braces depth (legible_block (depth + 1) body hb)⟩, legible_endLoop⟩
  | .function name params body => by
    simp only [Stmt.wellFormed, Bool.and_eq_true] at hs
    rw [stmt, legible_append, legible_append, legible_append, legible_parens,
      legible_keyword rfl (by simp)]
    refine ⟨⟨⟨⟨hs.1.1, ?_, trivial⟩, legible_names hs.1.2 (delimited_mark (by simp))⟩, trivial⟩,
      legible_braces depth (legible_block (depth + 1) body hs.2)⟩
    exact (delimited_mark (c := '(') (by simp)).parted

theorem legible_block (depth : Nat) (b : List Stmt) (hb : Stmt.allWellFormed b = true)
    (rest : List Char) : Legible (block depth b) rest :=
  match b with
  | [] => trivial
  | s :: ss => by
    rw [Stmt.allWellFormed, Bool.and_eq_true] at hb
    rw [block, legible_append, legible_append]
    exact ⟨⟨legible_stmt depth s hb.1 _, trivial⟩, legible_block depth ss hb.2 rest⟩

end

end Bhasha.Layout
