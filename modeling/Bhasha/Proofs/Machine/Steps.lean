import Bhasha.Machine.Exec

/-! One step of the machine at a time: how a sequence of two computations finishes, how statements
in a row do, and how a call does. Proofs about runs take computations apart by these lemmas. -/

namespace Bhasha

namespace Run

variable {α β : Type} {x : Run α} {f : α → Run β} {m mid m' : Machine}

theorem bind_of_ok {a : α} (h : x m = some (.ok a, mid)) : (x >>= f) m = f a mid := by
  rw [bind_apply, h]

theorem bind_of_error {e : RunError} (h : x m = some (.error e, mid)) :
    (x >>= f) m = some (.error e, mid) := by
  rw [bind_apply, h]

theorem bind_of_none (h : x m = none) : (x >>= f) m = none := by
  rw [bind_apply, h]

/-- A sequence finishes by its second part, or by an error of the first. -/
theorem bind_cases {r : Except RunError β} (h : (x >>= f) m = some (r, m')) :
    (∃ a mid, x m = some (.ok a, mid) ∧ f a mid = some (r, m')) ∨
      ∃ e, x m = some (.error e, m') ∧ r = .error e := by
  rw [bind_apply] at h
  split at h
  · next a mid hx => exact .inl ⟨a, mid, hx, h⟩
  · next e mid hx => cases h; exact .inr ⟨e, hx, rfl⟩
  · cases h

theorem bind_congr {x : Run α} {f g : α → Run β}
    (h : ∀ m a mid, x m = some (.ok a, mid) → f a mid = g a mid) : x >>= f = x >>= g := by
  funext m
  cases hx : x m with
  | none => rw [bind_of_none hx, bind_of_none hx]
  | some done =>
    obtain ⟨result, mid⟩ := done
    cases result with
    | error e => rw [bind_of_error hx, bind_of_error hx]
    | ok a => rw [bind_of_ok hx, bind_of_ok hx, h m a mid hx]

theorem bind_assoc {γ : Type} (x : Run α) (f : α → Run β) (g : β → Run γ) :
    (x >>= f) >>= g = x >>= fun a => f a >>= g := by
  funext m
  cases hx : x m with
  | none => rw [bind_of_none hx, bind_of_none (bind_of_none hx)]
  | some done =>
    obtain ⟨result, mid⟩ := done
    cases result with
    | error e => rw [bind_of_error hx, bind_of_error (bind_of_error hx)]
    | ok a => rw [bind_of_ok hx, bind_apply, bind_of_ok hx, bind_apply]

theorem bind_pure (x : Run α) : x >>= pure = x := by
  funext m
  cases hx : x m with
  | none => rw [bind_of_none hx]
  | some done =>
    obtain ⟨result, mid⟩ := done
    cases result with
    | error e => rw [bind_of_error hx]
    | ok a => rw [bind_of_ok hx, pure_apply]

section

variable {x y : Run Flow}

/-- The second computation after the first one, unless that one gives back a value. -/
def unlessReturned (x y : Run Flow) : Run Flow := do
  match ← x with
  | .normal => y
  | .ret v => pure (.ret v)

theorem unlessReturned_of_normal (h : x m = some (.ok .normal, mid)) :
    x.unlessReturned y m = y mid :=
  bind_of_ok h

theorem unlessReturned_of_ne {r : Except RunError Flow} (h : x m = some (r, m'))
    (hr : r ≠ .ok .normal) : x.unlessReturned y m = some (r, m') := by
  match r, hr with
  | .error e, _ => exact bind_of_error h
  | .ok (.ret v), _ => exact bind_of_ok h

theorem unlessReturned_cases {r : Except RunError Flow}
    (h : x.unlessReturned y m = some (r, m')) :
    (∃ mid, x m = some (.ok .normal, mid) ∧ y mid = some (r, m')) ∨
      x m = some (r, m') ∧ r ≠ .ok .normal := by
  rcases bind_cases h with ⟨flow, mid, hx, h⟩ | ⟨e, hx, rfl⟩
  · cases flow with
    | normal => exact .inl ⟨mid, hx, h⟩
    | ret v =>
      cases h
      exact .inr ⟨hx, nofun⟩
  · exact .inr ⟨hx, nofun⟩

theorem unlessReturned_assoc (x y z : Run Flow) :
    (x.unlessReturned y).unlessReturned z = x.unlessReturned (y.unlessReturned z) := by
  refine (bind_assoc x _ _).trans (bind_congr fun m flow mid _ => ?_)
  cases flow <;> rfl

theorem unlessReturned_normal (x : Run Flow) : x.unlessReturned (pure .normal) = x := by
  funext m
  unfold unlessReturned
  cases hx : x m with
  | none => rw [bind_of_none hx]
  | some done =>
    obtain ⟨result, mid⟩ := done
    cases result with
    | error e => rw [bind_of_error hx]
    | ok flow => cases flow <;> exact bind_of_ok hx

end

end Run

/-- The function that a call would enter, or why the call is refused. -/
def Machine.callee (m : Machine) (name : String) (count : Nat) : Except RunError Function :=
  match m.functions.find? name with
  | none => .error (.undefinedFunction name)
  | some f =>
    if count ≠ f.params.length then
      .error (.argumentCountMismatch name f.params.length count)
    else if m.limit ≤ m.depth then
      .error (.callDepthExceeded name m.limit)
    else
      .ok f

variable {run : Block → Run Flow} {name : String} {count : Nat}
  {bindAll : List String → Run Unit} {m m' mid : Machine} {f : Function}

theorem Machine.callee_eq_ok : m.callee name count = .ok f ↔
    m.functions.find? name = some f ∧ count = f.params.length ∧ m.depth < m.limit := by
  unfold callee
  split
  · next hf => simp [hf]
  · next hf =>
    rw [hf, Option.some_inj]
    grind

theorem Machine.callee_eq_error {e : RunError} (h : m.callee name count = .error e) :
    e = .undefinedFunction name ∨ ∃ f, m.functions.find? name = some f ∧
      (count ≠ f.params.length ∧ e = .argumentCountMismatch name f.params.length count ∨
        count = f.params.length ∧ e = .callDepthExceeded name m.limit) := by
  unfold callee at h
  split at h
  · cases h
    exact .inl rfl
  · next f hf =>
    split at h
    · next hc =>
      cases h
      exact .inr ⟨f, hf, .inl ⟨hc, rfl⟩⟩
    split at h
    · next hc _ =>
      cases h
      exact .inr ⟨f, hf, .inr ⟨by simpa using hc, rfl⟩⟩
    · cases h

theorem invoke_of_error {e : RunError} (h : m.callee name count = .error e) :
    invoke run name count bindAll m = some (.error e, m) := by
  unfold Machine.callee at h
  split at h
  · next hf =>
    cases h
    simp only [invoke, hf]
  · next hf =>
    split at h
    · next hc =>
      cases h
      simp only [invoke, hf, if_pos hc]
    split at h
    · next hc hd =>
      cases h
      simp only [invoke, hf, if_neg hc, if_pos hd]
    · cases h

theorem invoke_of_callee (h : m.callee name count = .ok f) :
    invoke run name count bindAll m =
      ((bindAll f.params >>= fun _ => run f.body) (m.enter name)).map fun done =>
        (done.1.map Flow.value?, done.2.leave m) := by
  obtain ⟨hf, hc, hd⟩ := Machine.callee_eq_ok.mp h
  simp only [invoke, hf, hc, ne_eq, not_true_eq_false, if_false, if_neg (Nat.not_le.mpr hd)]
  cases (bindAll f.params >>= fun _ => run f.body) (m.enter name) <;> rfl

theorem invoke_of_ok {result : Except RunError Flow} (h : m.callee name count = .ok f)
    (hb : (bindAll f.params >>= fun _ => run f.body) (m.enter name) = some (result, mid)) :
    invoke run name count bindAll m = some (result.map Flow.value?, mid.leave m) := by
  rw [invoke_of_callee h, hb]
  rfl

theorem invoke_cases {r : Except RunError (Option Value)}
    (h : invoke run name count bindAll m = some (r, m')) :
    (∃ e, m.callee name count = .error e ∧ r = .error e ∧ m' = m) ∨
      ∃ f result mid, m.callee name count = .ok f ∧
        (bindAll f.params >>= fun _ => run f.body) (m.enter name) = some (result, mid) ∧
          r = result.map Flow.value? ∧ m' = mid.leave m := by
  cases hc : m.callee name count with
  | error e =>
    rw [invoke_of_error hc] at h
    cases h
    exact .inl ⟨e, rfl, rfl, rfl⟩
  | ok f =>
    rw [invoke_of_callee hc] at h
    obtain ⟨⟨result, mid⟩, hb, hdone⟩ := Option.map_eq_some_iff.mp h
    cases hdone
    exact .inr ⟨f, result, mid, rfl, hb, rfl, rfl⟩

end Bhasha
