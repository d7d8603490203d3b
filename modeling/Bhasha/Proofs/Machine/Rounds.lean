import Bhasha.Proofs.Machine.Bounds

/-! A counted loop goes round: from its test through the body and the step back to the test, until
the test, the body or the step makes it leave. All that a loop does is said by the states in which
it comes to its test (`ForLoop.AtTest`) and by how it leaves from there (`ForLoop.ends_iff`), also
for a loop that never ends. -/

namespace Bhasha

/-- The parts of a counted loop. -/
structure ForLoop where
  init : Stmt
  test : Condition
  step : Stmt
  body : Block

namespace ForLoop

variable (l : ForLoop)

def run (n : Nat) : Run Flow := execFor n l.init l.test l.step l.body

/-- The loop as a statement of a program. -/
def stmt : Stmt := .forLoop l.init l.test l.step l.body

/-- The test holds, and the body starts in this state. -/
def Passes (p s : Machine) : Prop := Ends (Bhasha.test · l.test) p (.ok true) s

/-- From one test to the next one. What the step gives back is dropped. -/
def Round (p p' : Machine) : Prop :=
  ∃ s t flow, l.Passes p s ∧ Ends (execBlock · l.body) s (.ok .normal) t ∧
    Ends (exec · l.step) t (.ok flow) p'

/-- The loop, started in the state `m`, is at its test for the `k`-th time, counted from 0. -/
inductive AtTest (m : Machine) : Nat → Machine → Prop
  | first {p : Machine} (hinit : Ends (exec · l.init) m (.ok .normal) p) : AtTest m 0 p
  | next {k : Nat} {p p' : Machine} (hk : AtTest m k p) (hround : l.Round p p') :
    AtTest m (k + 1) p'

/-- The body starts for the `k`-th time, counted from 0, in this state. -/
def Starts (m : Machine) (k : Nat) (s : Machine) : Prop := ∃ p, l.AtTest m k p ∧ l.Passes p s

/-- From its test in the state `p` the loop does not come to the next one, but ends. -/
inductive Leaves (p : Machine) : Except RunError Flow → Machine → Prop
  | done {m' : Machine} (htest : Ends (Bhasha.test · l.test) p (.ok false) m') :
    Leaves p (.ok .normal) m'
  | failed {e : RunError} {m' : Machine} (htest : Ends (Bhasha.test · l.test) p (.error e) m') :
    Leaves p (.error e) m'
  | left {s m' : Machine} {r : Except RunError Flow} (htest : l.Passes p s)
      (hbody : Ends (execBlock · l.body) s r m') (hr : r ≠ .ok .normal) : Leaves p r m'
  | stuck {s t m' : Machine} {e : RunError} (htest : l.Passes p s)
      (hbody : Ends (execBlock · l.body) s (.ok .normal) t)
      (hstep : Ends (exec · l.step) t (.error e) m') : Leaves p (.error e) m'

/-- What is left of the loop at its test: at most so many rounds, each within the bound `n`. -/
def rounds (n k : Nat) : Run Flow :=
  loop (Bhasha.test n l.test) (execBlock (n + 1) l.body) (do let _ ← exec n l.step) k

variable {l} {m m' p p' s t : Machine} {r : Except RunError Flow} {n k : Nat}

theorem exec_stmt (n : Nat) :
    exec n l.stmt = (Run.note (.executing "for") >>= fun _ => l.run n) :=
  exec_forLoop n l.init l.test l.step l.body

theorem run_eq (n : Nat) : l.run n = (exec n l.init).unlessReturned (l.rounds n n) := rfl

theorem rounds_of_false (ht : Bhasha.test n l.test p = some (.ok false, m')) :
    l.rounds n (k + 1) p = some (.ok .normal, m') :=
  Run.bind_of_ok ht

theorem rounds_of_error {e : RunError} (ht : Bhasha.test n l.test p = some (.error e, m')) :
    l.rounds n (k + 1) p = some (.error e, m') :=
  Run.bind_of_error ht

theorem rounds_of_true (ht : Bhasha.test n l.test p = some (.ok true, s)) :
    l.rounds n (k + 1) p =
      (execBlock (n + 1) l.body).unlessReturned (exec n l.step >>= fun _ => l.rounds n k) s := by
  have hstep : (do let _ ← exec n l.step) >>= (fun _ => l.rounds n k) =
      exec n l.step >>= fun _ => l.rounds n k :=
    Run.bind_assoc (exec n l.step) _ _
  rw [← hstep]
  exact Run.bind_of_ok ht

theorem rounds_extends {n' k' : Nat} (hn : n ≤ n') (hk : k ≤ k') :
    (l.rounds n k).Extends (l.rounds n' k') :=
  congruence_extends.execSteps.loop hk (congruence_extends.test hn l.test)
    (congruence_extends.execBlock (Nat.succ_le_succ hn) l.body)
    (.bind (congruence_extends.exec hn l.step) fun _ => .refl _)

/-- How a loop that ends got to its end. The induction is on the rounds that are left. -/
theorem leaves_of_rounds (hk : l.AtTest m k p) {left : Nat}
    (hr : l.rounds n left p = some (r, m')) : ∃ k p, l.AtTest m k p ∧ l.Leaves p r m' := by
  induction left generalizing k p with
  | zero => cases hr
  | succ left ih =>
    rcases Run.bind_cases hr with ⟨more, s, ht, hmore⟩ | ⟨e, ht, rfl⟩
    · cases more with
      | false =>
        cases hmore
        exact ⟨k, p, hk, .done ⟨n, ht⟩⟩
      | true =>
        rw [rounds_of_true ht] at hr
        rcases Run.unlessReturned_cases hr with ⟨t, hbody, hr⟩ | ⟨hbody, hne⟩
        · rcases Run.bind_cases hr with ⟨flow, p', hstep, hr⟩ | ⟨e, hstep, rfl⟩
          · exact ih (hk.next ⟨s, t, flow, ⟨n, ht⟩, ⟨n + 1, hbody⟩, ⟨n, hstep⟩⟩) hr
          · exact ⟨k, p, hk, .stuck ⟨n, ht⟩ ⟨n + 1, hbody⟩ ⟨n, hstep⟩⟩
        · exact ⟨k, p, hk, .left ⟨n, ht⟩ ⟨n + 1, hbody⟩ hne⟩
    · exact ⟨k, p, hk, .failed ⟨n, ht⟩⟩

/-- The loop, at its test in this state, ends in this way. -/
def EndsFrom (l : ForLoop) (p : Machine) (r : Except RunError Flow) (m' : Machine) : Prop :=
  ∃ n, l.rounds n n p = some (r, m')

theorem Leaves.endsFrom (hl : l.Leaves p r m') : l.EndsFrom p r m' := by
  cases hl with
  | done htest =>
    obtain ⟨n, hn⟩ := htest.eventually (steady_test _)
    exact ⟨n + 1, rounds_of_false (hn _ (Nat.le_succ n))⟩
  | failed htest =>
    obtain ⟨n, hn⟩ := htest.eventually (steady_test _)
    exact ⟨n + 1, rounds_of_error (hn _ (Nat.le_succ n))⟩
  | left htest hbody hne =>
    obtain ⟨n, hn⟩ := htest.eventually (steady_test _)
    obtain ⟨n', hn'⟩ := hbody.eventually (steady_execBlock _)
    refine ⟨n + n' + 1, (rounds_of_true (hn _ (by omega))).trans ?_⟩
    exact Run.unlessReturned_of_ne (hn' _ (by omega)) hne
  | stuck htest hbody hstep =>
    obtain ⟨n, hn⟩ := htest.eventually (steady_test _)
    obtain ⟨n', hn'⟩ := hbody.eventually (steady_execBlock _)
    obtain ⟨n'', hn''⟩ := hstep.eventually (steady_exec _)
    refine ⟨n + n' + n'' + 1, (rounds_of_true (hn _ (by omega))).trans ?_⟩
    refine (Run.unlessReturned_of_normal (hn' _ (by omega))).trans ?_
    exact Run.bind_of_error (hn'' _ (by omega))

theorem Round.endsFrom (hround : l.Round p p') (he : l.EndsFrom p' r m') : l.EndsFrom p r m' := by
  obtain ⟨s, t, flow, htest, hbody, hstep⟩ := hround
  obtain ⟨n, hn⟩ := htest.eventually (steady_test _)
  obtain ⟨n', hn'⟩ := hbody.eventually (steady_execBlock _)
  obtain ⟨n'', hn''⟩ := hstep.eventually (steady_exec _)
  obtain ⟨k, hk⟩ := he
  -- Each part ends within a bound of its own, and within their sum all of them end.
  refine ⟨n + n' + n'' + k + 1, (rounds_of_true (hn _ (by omega))).trans ?_⟩
  refine (Run.unlessReturned_of_normal (hn' _ (by omega))).trans ?_
  refine (Run.bind_of_ok (hn'' _ (by omega))).trans ?_
  exact rounds_extends (by omega) (by omega) _ _ _ hk

theorem AtTest.ends (hk : l.AtTest m k p) (he : l.EndsFrom p r m') : Ends l.run m r m' := by
  induction hk with
  | first hinit =>
    obtain ⟨n, hn⟩ := hinit.eventually (steady_exec _)
    obtain ⟨k, hk⟩ := he
    refine ⟨n + k, (Run.unlessReturned_of_normal (hn _ (by omega))).trans ?_⟩
    exact rounds_extends (by omega) (by omega) _ _ _ hk
  | next _ hround ih => exact ih (hround.endsFrom he)

/-- A counted loop ends where its start does not go on, or where it leaves from a test that it
comes to, and in no other way. -/
theorem ends_iff : Ends l.run m r m' ↔
    Ends (exec · l.init) m r m' ∧ r ≠ .ok .normal ∨
      ∃ k p, l.AtTest m k p ∧ l.Leaves p r m' := by
  constructor
  · rintro ⟨n, hn⟩
    rw [run_eq] at hn
    rcases Run.unlessReturned_cases hn with ⟨p, hinit, hr⟩ | ⟨hinit, hne⟩
    · exact .inr (leaves_of_rounds (.first ⟨n, hinit⟩) hr)
    · exact .inl ⟨⟨n, hinit⟩, hne⟩
  · rintro (⟨⟨n, hinit⟩, hne⟩ | ⟨k, p, hk, hl⟩)
    · exact ⟨n, Run.unlessReturned_of_ne hinit hne⟩
    · exact hk.ends hl.endsFrom

end ForLoop

end Bhasha
