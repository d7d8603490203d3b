import Bhasha.Proofs.Machine.Compatible

/-! A bound that was enough for a run stays enough: with a larger one the run finishes in the same
way (`congruence_extends`). So a run ends in one way at most, whatever the bound. -/

namespace Bhasha

variable {α β : Type}

/-- However the first computation finishes, the second one does too. -/
def Run.Extends (x y : Run α) : Prop := ∀ m r m', x m = some (r, m') → y m = some (r, m')

namespace Run.Extends

theorem refl (x : Run α) : x.Extends x := fun _ _ _ h => h

theorem bind {x y : Run α} {f g : α → Run β} (hx : x.Extends y) (hf : ∀ a, (f a).Extends (g a)) :
    (x >>= f).Extends (y >>= g) := by
  intro m r m' h
  rcases bind_cases h with ⟨a, mid, ha, h⟩ | ⟨e, he, rfl⟩
  · rw [bind_of_ok (hx m _ _ ha)]
    exact hf a mid r m' h
  · exact bind_of_error (hx m _ _ he)

theorem invoke {run run' : Block → Run Flow} {bindAll bindAll' : List String → Run Unit}
    (hrun : ∀ b, (run b).Extends (run' b))
    (hbind : ∀ params, (bindAll params).Extends (bindAll' params)) (name : String) (count : Nat) :
    (invoke run name count bindAll).Extends (invoke run' name count bindAll') := by
  intro m r m' h
  rcases invoke_cases h with ⟨e, hc, rfl, rfl⟩ | ⟨f, result, mid, hc, hb, rfl, rfl⟩
  · exact invoke_of_error hc
  · have hbody := (hbind f.params).bind fun _ => hrun f.body
    exact invoke_of_ok hc (hbody _ _ _ hb)

end Run.Extends

theorem congruence_extends : Congruence Run.Extends Run.Extends where
  compatible hrun := {
    weaken := id
    ofExcept := fun r => .refl _
    look := fun name => .refl _
    bind := .bind
    bindG := .bind
    assign := fun name value => .refl _
    invoke := fun name count hbind => .invoke hrun hbind name count }
  unfinished := .refl _
  cutOff _ := by rintro m r m' ⟨⟩
  note _ := .refl _
  print _ := .refl _
  declare _ _ := .refl _

theorem runProgram_extends {n n' : Nat} (h : n ≤ n') (b : Block) :
    (runProgram n b).Extends (runProgram n' b) :=
  .bind (.refl _) fun _ => .bind (congruence_extends.execBlock h b) fun _ => .refl _

/-- With some bound, and then with every larger one, the computation finishes in this way. -/
def Ends (x : Nat → Run α) (m : Machine) (r : Except RunError α) (m' : Machine) : Prop :=
  ∃ n, x n m = some (r, m')

/-- Where a bound is enough, a larger one changes nothing. -/
def Steady (x : Nat → Run α) : Prop := ∀ {n n'}, n ≤ n' → (x n).Extends (x n')

theorem steady_exec (s : Stmt) : Steady (exec · s) := fun h => congruence_extends.exec h s

theorem steady_test (c : Condition) : Steady (test · c) := fun h => congruence_extends.test h c

theorem steady_execBlock (b : Block) : Steady (execBlock · b) :=
  fun h => congruence_extends.execBlock h b

theorem Ends.eventually {x : Nat → Run α} (hx : Steady x) {m m' : Machine}
    {r : Except RunError α} (h : Ends x m r m') : ∃ n, ∀ n' ≥ n, x n' m = some (r, m') := by
  obtain ⟨n, hn⟩ := h
  exact ⟨n, fun n' hn' => hx hn' m r m' hn⟩

end Bhasha
