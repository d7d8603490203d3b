import Bhasha.Program.Basic

/-! Equality of trees is decidable. -/

namespace Bhasha

mutual
def Expr.decEq : (a b : Expr) → Decidable (a = b)
  | .number s, .number t => decidable_of_iff (s = t) (by simp)
  | .string s, .string t => decidable_of_iff (s = t) (by simp)
  | .var s, .var t => decidable_of_iff (s = t) (by simp)
  | .binary o l r, .binary o' l' r' =>
    have := Expr.decEq l l'
    have := Expr.decEq r r'
    decidable_of_iff (o = o' ∧ l = l' ∧ r = r') (by simp)
  | .call f as, .call g bs =>
    have := Expr.listDecEq as bs
    decidable_of_iff (f = g ∧ as = bs) (by simp)
  | .number _, .string _ | .number _, .var _ | .number _, .binary .. | .number _, .call ..
  | .string _, .number _ | .string _, .var _ | .string _, .binary .. | .string _, .call ..
  | .var _, .number _ | .var _, .string _ | .var _, .binary .. | .var _, .call ..
  | .binary .., .number _ | .binary .., .string _ | .binary .., .var _ | .binary .., .call ..
  | .call .., .number _ | .call .., .string _ | .call .., .var _ | .call .., .binary .. =>
    isFalse nofun
termination_by structural a => a

def Expr.listDecEq : (as bs : List Expr) → Decidable (as = bs)
  | [], [] => isTrue rfl
  | a :: as, b :: bs =>
    have := Expr.decEq a b
    have := Expr.listDecEq as bs
    decidable_of_iff (a = b ∧ as = bs) (by simp)
  | [], _ :: _ | _ :: _, [] => isFalse nofun
termination_by structural as => as
end

instance : DecidableEq Expr := Expr.decEq

deriving instance DecidableEq for Condition

mutual
def Stmt.decEq : (a b : Stmt) → Decidable (a = b)
  | .declare n e, .declare n' e' => decidable_of_iff (n = n' ∧ e = e') (by simp)
  | .assign n e, .assign n' e' => decidable_of_iff (n = n' ∧ e = e') (by simp)
  | .print e, .print e' => decidable_of_iff (e = e') (by simp)
  | .cond c y n, .cond c' y' n' =>
    have := Stmt.listDecEq y y'
    have := Stmt.optionDecEq n n'
    decidable_of_iff (c = c' ∧ y = y' ∧ n = n') (by simp)
  | .whileLoop c b, .whileLoop c' b' =>
    have := Stmt.listDecEq b b'
    decidable_of_iff (c = c' ∧ b = b') (by simp)
  | .forLoop i c s b, .forLoop i' c' s' b' =>
    have := Stmt.decEq i i'
    have := Stmt.decEq s s'
    have := Stmt.listDecEq b b'
    decidable_of_iff (i = i' ∧ c = c' ∧ s = s' ∧ b = b') (by simp)
  | .function f p b, .function f' p' b' =>
    have := Stmt.listDecEq b b'
    decidable_of_iff (f = f' ∧ p = p' ∧ b = b') (by simp)
  | .ret e, .ret e' => decidable_of_iff (e = e') (by simp)
  | .declare .., .assign .. | .declare .., .print _ | .declare .., .cond ..
  | .declare .., .whileLoop .. | .declare .., .forLoop .. | .declare .., .function ..
  | .declare .., .ret _
  | .assign .., .declare .. | .assign .., .print _ | .assign .., .cond ..
  | .assign .., .whileLoop .. | .assign .., .forLoop .. | .assign .., .function ..
  | .assign .., .ret _
  | .print _, .declare .. | .print _, .assign .. | .print _, .cond .. | .print _, .whileLoop ..
  | .print _, .forLoop .. | .print _, .function .. | .print _, .ret _
  | .cond .., .declare .. | .cond .., .assign .. | .cond .., .print _ | .cond .., .whileLoop ..
  | .cond .., .forLoop .. | .cond .., .function .. | .cond .., .ret _
  | .whileLoop .., .declare .. | .whileLoop .., .assign .. | .whileLoop .., .print _
  | .whileLoop .., .cond .. | .whileLoop .., .forLoop .. | .whileLoop .., .function ..
  | .whileLoop .., .ret _
  | .forLoop .., .declare .. | .forLoop .., .assign .. | .forLoop .., .print _
  | .forLoop .., .cond .. | .forLoop .., .whileLoop .. | .forLoop .., .function ..
  | .forLoop .., .ret _
  | .function .., .declare .. | .function .., .assign .. | .function .., .print _
  | .function .., .cond .. | .function .., .whileLoop .. | .function .., .forLoop ..
  | .function .., .ret _
  | .ret _, .declare .. | .ret _, .assign .. | .ret _, .print _ | .ret _, .cond ..
  | .ret _, .whileLoop .. | .ret _, .forLoop .. | .ret _, .function .. => isFalse nofun
termination_by structural a => a

def Stmt.listDecEq : (as bs : List Stmt) → Decidable (as = bs)
  | [], [] => isTrue rfl
  | a :: as, b :: bs =>
    have := Stmt.decEq a b
    have := Stmt.listDecEq as bs
    decidable_of_iff (a = b ∧ as = bs) (by simp)
  | [], _ :: _ | _ :: _, [] => isFalse nofun
termination_by structural as => as

def Stmt.optionDecEq : (a b : Option (List Stmt)) → Decidable (a = b)
  | none, none => isTrue rfl
  | some a, some b =>
    have := Stmt.listDecEq a b
    decidable_of_iff (a = b) (by simp)
  | none, some _ | some _, none => isFalse nofun
termination_by structural a => a
end

instance : DecidableEq Stmt := Stmt.decEq

deriving instance DecidableEq for Function

end Bhasha
