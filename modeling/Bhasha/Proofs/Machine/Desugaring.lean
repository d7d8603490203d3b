import Bhasha.Proofs.Machine.Bounds
import Bhasha.Proofs.Machine.Returns

/-! A counted loop is a loop with a test: first its start, then round after round the body with the
step behind it. A counted loop drops what its step gives back, so the step must not return by
itself; a `return` of the body or an error leaves both loops alike. Only what is recorded tells the
two apart, and no run looks at that (`congruence_unrecorded`). -/

namespace Bhasha

variable {α β : Type}

/-- Whatever was recorded before, the second computation ends as the first one does. Only what is
recorded afterwards may differ. -/
def Run.Unrecorded (x y : Run α) : Prop :=
  ∀ m r m' events, x m = some (r, m') →
    ∃ events', y { m with events := events } = some (r, { m' with events := events' })

namespace Run.Unrecorded

theorem ofExcept (r : Except RunError α) : (ofExcept r).Unrecorded (ofExcept r) := by
  intro m r m' events h
  cases h
  exact ⟨events, rfl⟩

theorem look (name : String) : (look name).Unrecorded (look name) := by
  intro m r m' events h
  unfold Run.look at h ⊢
  dsimp only
  split at h <;> cases h <;> exact ⟨events, rfl⟩

theorem modify {f : Machine → Machine}
    (hf : ∀ m events, ∃ events', f { m with events := events } = { f m with events := events' }) :
    (modify f).Unrecorded (modify f) := by
  intro m r m' events h
  cases h
  obtain ⟨events', he⟩ := hf m events
  exact ⟨events', by rw [Run.modify, he]⟩

theorem bind {x y : Run α} {f g : α → Run β} (hx : x.Unrecorded y)
    (hf : ∀ a, (f a).Unrecorded (g a)) : (x >>= f).Unrecorded (y >>= g) := by
  intro m r m' events h
  rcases bind_cases h with ⟨a, mid, ha, h⟩ | ⟨e, he, rfl⟩
  · obtain ⟨events₁, hy⟩ := hx m _ _ events ha
    rw [bind_of_ok hy]
    exact hf a mid r m' events₁ h
  · obtain ⟨events₁, hy⟩ := hx m _ _ events he
    exact ⟨events₁, bind_of_error hy⟩

theorem cutOff (y : Run α) : unfinished.Unrecorded y := by
  intro m r m' events h
  cases h

theorem invoke {run run' : Block → Run Flow} {bindAll bindAll' : List String → Run Unit}
    (hrun : ∀ b, (run b).Unrecorded (run' b))
    (hbind : ∀ params, (bindAll params).Unrecorded (bindAll' params)) (name : String)
    (count : Nat) : (invoke run name count bindAll).Unrecorded (invoke run' name count bindAll') := by
  intro m r m' events h
  rcases invoke_cases h with ⟨e, hc, rfl, rfl⟩ | ⟨f, result, mid, hc, hb, rfl, rfl⟩
  · exact ⟨events, invoke_of_error hc⟩
  · have hbody := (hbind f.params).bind fun _ => hrun f.body
    obtain ⟨events', hy⟩ := hbody _ _ _ (.calling name (m.depth + 1) :: events) hb
    have hc' : { m with events := events }.callee name count = .ok f := hc
    exact ⟨events', invoke_of_ok hc' hy⟩

theorem unlessReturned {x x' y y' : Run Flow} (hx : x.Unrecorded x')
    (hy : y.Unrecorded y') : (x.unlessReturned y).Unrecorded (x'.unlessReturned y') := by
  refine hx.bind fun flow => ?_
  cases flow with
  | normal => exact hy
  | ret v => exact .ofExcept (.ok (Flow.ret v))

/-- A record more or less makes no difference. -/
theorem note_right {x y : Run α} (h : x.Unrecorded y) (e : Event) :
    x.Unrecorded (Run.note e >>= fun _ => y) :=
  fun m r m' events hm => h m r m' (e :: events) hm

theorem note_left {x y : Run α} (h : x.Unrecorded y) (e : Event) :
    Unrecorded (Run.note e >>= fun _ => x) y :=
  fun m r m' events hm => h { m with events := e :: m.events } r m' events hm

end Run.Unrecorded

theorem congruence_unrecorded : Congruence Run.Unrecorded Run.Unrecorded where
  compatible hrun := {
    weaken := id
    ofExcept := .ofExcept
    look := .look
    bind := .bind
    bindG := .bind
    assign := fun _ _ => .modify fun _ events => ⟨events, rfl⟩
    invoke := fun name count hbind => .invoke hrun hbind name count }
  unfinished := .cutOff _
  cutOff _ := .cutOff _
  note e := .modify fun _ events => ⟨e :: events, rfl⟩
  print _ := .modify fun _ events => ⟨events, rfl⟩
  declare _ _ :=
    .bind (.modify fun _ events => ⟨_ :: events, rfl⟩) fun _ =>
      .modify fun _ events => ⟨events, rfl⟩

variable {run : Block → Run Flow} {rounds : Nat}

theorem execAllWith_cons (s : Stmt) (ss : List Stmt) : execAllWith run rounds (s :: ss) =
    (execWith run rounds s).unlessReturned (execAllWith run rounds ss) := by
  rw [execAllWith]
  rfl

theorem execAllWith_singleton (s : Stmt) :
    execAllWith run rounds [s] = execWith run rounds s := by
  rw [execAllWith_cons, execAllWith, Run.unlessReturned_normal]

theorem execAllWith_append (ss ts : List Stmt) : execAllWith run rounds (ss ++ ts) =
    (execAllWith run rounds ss).unlessReturned (execAllWith run rounds ts) := by
  induction ss with
  | nil =>
    rw [List.nil_append, execAllWith]
    rfl
  | cons s ss ih =>
    rw [List.cons_append, execAllWith_cons, execAllWith_cons, ih, Run.unlessReturned_assoc]

/-- A step that only goes on may as well stand at the end of the body. -/
theorem loop_step {test : Run Bool} {body step : Run Flow} (hstep : step.Gives (· = .normal))
    (rounds : Nat) : loop test body (do let _ ← step) rounds =
      loop test (body.unlessReturned step) (pure ()) rounds := by
  induction rounds with
  | zero => rfl
  | succ rounds ih =>
    refine Run.bind_congr fun m more mid _ => ?_
    cases more with
    | false => rfl
    | true =>
      refine congrFun (Eq.trans (Run.bind_congr fun m flow mid _ => ?_)
        (Run.bind_assoc body _ _).symm) mid
      cases flow with
      | ret v => rfl
      | normal =>
        refine congrFun ((Run.bind_assoc step _ _).trans ?_) mid
        refine Run.bind_congr fun m flow mid hflow => ?_
        -- One loop drops this flow, the other one would leave by it.
        obtain rfl := hstep m flow mid hflow
        exact congrFun ih mid

/-- What has no return of its own never gives back a value. -/
theorem execWith_normal {s : Stmt} (h : ∀ e, Node.stmt (.ret e) ∉ s.nodes false) :
    (execWith run rounds s).Gives (· = .normal) := by
  refine (execWith_flow s).mono fun flow hflow => ?_
  cases flow with
  | normal => rfl
  | ret v =>
    obtain ⟨e, he⟩ := hflow
    exact absurd he (h e)

variable {init step : Stmt} {c : Condition} {body : Block}

theorem execFor_eq (hstep : ∀ e, Node.stmt (.ret e) ∉ step.nodes false) (n : Nat) :
    execFor n init c step body =
      (exec n init).unlessReturned (execWhile n c (body ++ [step])) := by
  have hbody : execAllWith (execBlock n) n (body ++ [step]) = _ := execAllWith_append body [step]
  rw [execAllWith_singleton] at hbody
  unfold execWhile
  rw [hbody, ← loop_step (execWith_normal hstep)]
  rfl

theorem execBlock_pair (n : Nat) (s t : Stmt) :
    execBlock (n + 1) [s, t] = (exec n s).unlessReturned (exec n t) := by
  rw [execBlock, execAllWith_cons, execAllWith_singleton]
  rfl

theorem execFor_unrecorded (hstep : ∀ e, Node.stmt (.ret e) ∉ step.nodes false) (n : Nat) :
    (execFor n init c step body).Unrecorded
        (execBlock (n + 1) [init, .whileLoop c (body ++ [step])]) ∧
      (execBlock (n + 1) [init, .whileLoop c (body ++ [step])]).Unrecorded
        (execFor n init c step body) := by
  have hinit := congruence_unrecorded.exec (Nat.le_refl n) init
  have hloop := congruence_unrecorded.execWhile (Nat.le_refl n) c (body ++ [step])
  rw [execFor_eq hstep, execBlock_pair, exec_whileLoop]
  exact ⟨hinit.unlessReturned (hloop.note_right _), hinit.unlessReturned (hloop.note_left _)⟩

/-- A counted loop ends if and only if its start, followed by a loop whose body has the step at its
end, does, with the same flow or the same error, and in the same state apart from what was
recorded. The step may be anything that has no return outside functions. -/
theorem counted_loop_is_while (init : Stmt) (c : Condition) {step : Stmt} (body : Block)
    (hstep : ∀ e, Node.stmt (.ret e) ∉ step.nodes false) (m : Machine) (r : Except RunError Flow)
    (m' : Machine) :
    (∃ events, Ends (execFor · init c step body) m r { m' with events := events }) ↔
      ∃ events, Ends (execBlock · [init, .whileLoop c (body ++ [step])]) m r
        { m' with events := events } := by
  constructor
  · rintro ⟨events, n, h⟩
    obtain ⟨events', h'⟩ := (execFor_unrecorded hstep n).1 m _ _ m.events h
    exact ⟨events', n + 1, h'⟩
  · rintro ⟨events, n, h⟩
    cases n with
    | zero => cases h
    | succ n =>
      obtain ⟨events', h'⟩ := (execFor_unrecorded hstep n).2 m _ _ m.events h
      exact ⟨events', n, h'⟩

/-- A loop that fails in its second round, with a step that declares a function with a return. -/
theorem counted_loop_is_while_failing :
    let init : Stmt := .declare "i" (.number "0")
    let c : Condition := ⟨.var "i", .less, .number "3"⟩
    let step : Stmt := .cond ⟨.var "i", .less, .number "1"⟩
      [.function "f" ["i"] [.ret (.var "i")], .assign "i" (.binary .add (.var "i") (.number "1"))]
      none
    let body : Block :=
      [.print (.binary .div (.number "6") (.binary .sub (.number "1") (.var "i")))]
    ∃ (m' : Machine) (events : List Event),
      Ends (execBlock · [init, .whileLoop c (body ++ [step])]) (.start 1)
        (.error .divisionByZero) { m' with events := events } ∧ m'.output = "6\n" := by
  intro init c step body
  have hstep : ∀ e, Node.stmt (.ret e) ∉ step.nodes false := by
    intro e
    simp [step, Stmt.nodes, Stmt.allNodes, Condition.nodes, Expr.nodes]
  obtain ⟨m', h, hout⟩ : ∃ m', Ends (execFor · init c step body) (.start 1)
      (.error .divisionByZero) m' ∧ m'.output = "6\n" := ⟨_, ⟨2, rfl⟩, by decide +kernel⟩
  obtain ⟨events, h'⟩ := (counted_loop_is_while init c body hstep (.start 1) _ m').mp ⟨_, h⟩
  exact ⟨m', events, h', hout⟩

end Bhasha
