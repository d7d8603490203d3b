import Bhasha.Proofs.Machine.Steps
import Bhasha.Proofs.Program.Nodes

/-! Two runs of one tree are related if the steps that its nodes take are. `V` says which nodes may
stand in the tree, so that a step has to respect the relations only where some node of that kind may
take it. `E` relates computations that evaluate and `G` computations that execute. -/

namespace Bhasha

variable {deep : Bool} {V : Node → Prop} {E G : ∀ {α : Type}, Run α → Run α → Prop}
  {run run' : Block → Run Flow}

/-- What evaluation needs of the two relations, where bodies of functions run by `run` on one side
and by `run'` on the other. -/
structure EvalSteps (V : Node → Prop) (E G : ∀ {α : Type}, Run α → Run α → Prop)
    (run run' : Block → Run Flow) : Prop where
  weaken : ∀ {α : Type} {x y : Run α}, E x y → G x y
  pure : ∀ {α : Type} (a : α), E (pure a : Run α) (pure a : Run α)
  bind : ∀ {α β : Type} {x y : Run α} {f g : α → Run β},
    E x y → (∀ a, E (f a) (g a)) → E (x >>= f) (y >>= g)
  bindG : ∀ {α β : Type} {x y : Run α} {f g : α → Run β},
    G x y → (∀ a, G (f a) (g a)) → G (x >>= f) (y >>= g)
  literal : ∀ text, V (.expr (.number text)) → Integer.parse? text = none →
    E (.fail (.literalTooLarge text) : Run Value) (.fail (.literalTooLarge text) : Run Value)
  look : ∀ name, V (.expr (.var name)) → E (.look name) (.look name)
  combine : ∀ op left right a b, V (.expr (.binary op left right)) →
    E (.ofExcept (Value.combine op a b)) (.ofExcept (Value.combine op a b))
  call : ∀ name args, V (.expr (.call name args)) →
    (∀ params, G (bindWith run params args) (bindWith run' params args)) →
      E (evalWith run (.call name args)) (evalWith run' (.call name args))
  /-- Arguments are bound to parameters, whatever these are called. -/
  bindParam : ∀ name value, G (.assign name value) (.assign name value)
  asInteger : ∀ c (v : Value), V (.test c) →
    E (.ofExcept (v.asInteger "Condition")) (.ofExcept (v.asInteger "Condition"))
  compare : ∀ c a b, V (.test c) →
    E (.ofExcept (Integer.compare c.op a b)) (.ofExcept (Integer.compare c.op a b))

namespace EvalSteps

mutual

theorem evalWith (h : EvalSteps V E G run run') (e : Expr) (he : ∀ x ∈ e.nodes, V x) :
    E (evalWith run e) (evalWith run' e) := by
  match e with
  | .number text =>
    rw [Expr.nodes, List.forall_mem_singleton] at he
    rw [Bhasha.evalWith, Bhasha.evalWith]
    split
    · exact h.pure _
    · next hp => exact h.literal text he hp
  | .string text =>
    rw [Bhasha.evalWith, Bhasha.evalWith]
    exact h.pure _
  | .var name =>
    rw [Expr.nodes, List.forall_mem_singleton] at he
    rw [Bhasha.evalWith, Bhasha.evalWith]
    exact h.look name he
  | .binary op left right =>
    rw [Expr.nodes, List.forall_mem_cons, List.forall_mem_append] at he
    obtain ⟨hop, hleft, hright⟩ := he
    rw [Bhasha.evalWith, Bhasha.evalWith]
    exact h.bind (evalWith h left hleft) fun a => h.bind (evalWith h right hright) fun b =>
      h.combine op left right a b hop
  | .call name args =>
    rw [Expr.nodes, List.forall_mem_cons] at he
    exact h.call name args he.1 fun params => bindWith h params args he.2

theorem bindWith (h : EvalSteps V E G run run') (params : List String) (args : List Expr)
    (ha : ∀ x ∈ Expr.allNodes args, V x) :
    G (bindWith run params args) (bindWith run' params args) := by
  match args, params with
  | [], _ =>
    rw [Bhasha.bindWith, Bhasha.bindWith]
    exact h.weaken (h.pure ())
  | _ :: _, [] =>
    rw [Bhasha.bindWith, Bhasha.bindWith]
    exact h.weaken (h.pure ())
  | arg :: args, param :: params =>
    rw [Expr.allNodes, List.forall_mem_append] at ha
    rw [Bhasha.bindWith, Bhasha.bindWith]
    exact h.bindG (h.weaken (evalWith h arg ha.1)) fun v =>
      h.bindG (h.bindParam param v) fun _ => bindWith h params args ha.2

end

theorem testWith (h : EvalSteps V E G run run') (c : Condition) (hc : ∀ x ∈ c.nodes, V x) :
    E (testWith run c) (testWith run' c) := by
  rw [Condition.nodes, List.forall_mem_cons, List.forall_mem_append] at hc
  obtain ⟨htest, hleft, hright⟩ := hc
  apply h.bind (h.evalWith c.left hleft)
  intro left
  apply h.bind (h.asInteger c left htest)
  intro a
  apply h.bind (h.evalWith c.right hright)
  intro right
  apply h.bind (h.asInteger c right htest)
  intro b
  exact h.compare c a b htest

end EvalSteps

/-- Expressions and tests made of such nodes are related. -/
structure Evaluated (V : Node → Prop) (G : ∀ {α : Type}, Run α → Run α → Prop)
    (run run' : Block → Run Flow) : Prop where
  value : ∀ e : Expr, (∀ x ∈ e.nodes, V x) → G (evalWith run e) (evalWith run' e)
  test : ∀ c : Condition, (∀ x ∈ c.nodes, V x) → G (testWith run c) (testWith run' c)

theorem EvalSteps.evaluated (h : EvalSteps V E G run run') : Evaluated V G run run' where
  value e he := h.weaken (h.evalWith e he)
  test c hc := h.weaken (h.testWith c hc)

/-- What execution needs besides. The first of two related runs may have a smaller bound, and where
that is used up it does not finish. With `deep`, the bodies of declared functions are made of such
nodes too. -/
structure ExecSteps (deep : Bool) (V : Node → Prop) (G : ∀ {α : Type}, Run α → Run α → Prop) :
    Prop where
  pure : ∀ {α : Type} (a : α), G (pure a : Run α) (pure a : Run α)
  bind : ∀ {α β : Type} {x y : Run α} {f g : α → Run β},
    G x y → (∀ a, G (f a) (g a)) → G (x >>= f) (y >>= g)
  unfinished : ∀ {α : Type}, G (.unfinished : Run α) .unfinished
  cutOff : ∀ {α : Type} {x y : Run α}, G x y → G .unfinished y
  note : ∀ kind, G (.note (.executing kind)) (.note (.executing kind))
  print : ∀ value, G (.print value) (.print value)
  assign : ∀ name e value, V (.stmt (.declare name e)) ∨ V (.stmt (.assign name e)) →
    G (.assign name value) (.assign name value)
  declare : ∀ name params body, V (.stmt (.function name params body)) →
    (deep = true → ∀ x ∈ Stmt.allNodes deep body, V x) →
      G (.declare name ⟨params, body⟩) (.declare name ⟨params, body⟩)

namespace ExecSteps

variable {rounds rounds' : Nat}

theorem loop (h : ExecSteps deep V G) (hr : rounds ≤ rounds') {test test' : Run Bool}
    {body body' : Run Flow} {step step' : Run Unit} (ht : G test test') (hb : G body body')
    (hs : G step step') : G (loop test body step rounds) (loop test' body' step' rounds') := by
  induction rounds' generalizing rounds with
  | zero =>
    cases Nat.le_zero.mp hr
    exact h.unfinished
  | succ rounds' ih =>
    have next {rounds : Nat} (hr : rounds ≤ rounds') :
        G (Bhasha.loop test body step (rounds + 1))
          (Bhasha.loop test' body' step' (rounds' + 1)) := by
      apply h.bind ht
      intro more
      cases more with
      | false => exact h.pure _
      | true =>
        apply h.bind hb
        intro flow
        cases flow with
        | normal => exact h.bind hs fun _ => ih hr
        | ret v => exact h.pure _
    cases rounds with
    | zero => exact h.cutOff (next (Nat.le_refl rounds'))
    | succ rounds => exact next (Nat.le_of_succ_le_succ hr)

theorem countedLoop (h : ExecSteps deep V G) (hr : rounds ≤ rounds')
    {init init' body body' step step' : Run Flow} {test test' : Run Bool} (hi : G init init')
    (ht : G test test') (hb : G body body') (hs : G step step') :
    G (countedLoop init test body step rounds) (countedLoop init' test' body' step' rounds') := by
  apply h.bind hi
  intro flow
  cases flow with
  | normal => exact h.loop hr ht hb (h.bind hs fun _ => h.pure ())
  | ret v => exact h.pure _

mutual

theorem execWith (h : ExecSteps deep V G) (hv : Evaluated V G run run') (hr : rounds ≤ rounds')
    (s : Stmt) (hs : ∀ x ∈ s.nodes deep, V x) :
    G (execWith run rounds s) (execWith run' rounds' s) := by
  match s with
  | .declare name e =>
    rw [Stmt.nodes, List.forall_mem_cons] at hs
    rw [Bhasha.execWith, Bhasha.execWith]
    exact h.bind (h.note _) fun _ => h.bind (hv.value e hs.2) fun v =>
      h.bind (h.assign name e v (.inl hs.1)) fun _ => h.pure _
  | .assign name e =>
    rw [Stmt.nodes, List.forall_mem_cons] at hs
    rw [Bhasha.execWith, Bhasha.execWith]
    exact h.bind (h.note _) fun _ => h.bind (hv.value e hs.2) fun v =>
      h.bind (h.assign name e v (.inr hs.1)) fun _ => h.pure _
  | .print e =>
    rw [Stmt.nodes, List.forall_mem_cons] at hs
    rw [Bhasha.execWith, Bhasha.execWith]
    exact h.bind (h.note _) fun _ => h.bind (hv.value e hs.2) fun v =>
      h.bind (h.print v) fun _ => h.pure _
  | .cond c yes none =>
    rw [Stmt.nodes, List.forall_mem_cons, List.forall_mem_append] at hs
    obtain ⟨-, htest, hyes⟩ := hs
    rw [Bhasha.execWith, Bhasha.execWith]
    apply h.bind (h.note _)
    intro _
    apply h.bind (hv.test c htest)
    intro b
    cases b with
    | true => exact execAllWith h hv hr yes hyes
    | false => exact h.pure _
  | .cond c yes (some no) =>
    rw [Stmt.nodes, List.forall_mem_cons, List.forall_mem_append, List.forall_mem_append] at hs
    obtain ⟨-, htest, hyes, hno⟩ := hs
    rw [Bhasha.execWith, Bhasha.execWith]
    apply h.bind (h.note _)
    intro _
    apply h.bind (hv.test c htest)
    intro b
    cases b with
    | true => exact execAllWith h hv hr yes hyes
    | false => exact execAllWith h hv hr no hno
  | .whileLoop c body =>
    rw [Stmt.nodes, List.forall_mem_cons, List.forall_mem_append] at hs
    obtain ⟨-, htest, hbody⟩ := hs
    rw [Bhasha.execWith, Bhasha.execWith]
    exact h.bind (h.note _) fun _ => h.loop hr (hv.test c htest)
      (execAllWith h hv hr body hbody) (h.pure ())
  | .forLoop init c step body =>
    rw [Stmt.nodes, List.forall_mem_cons, List.forall_mem_append, List.forall_mem_append,
      List.forall_mem_append] at hs
    obtain ⟨-, hinit, htest, hstep, hbody⟩ := hs
    rw [Bhasha.execWith, Bhasha.execWith]
    exact h.bind (h.note _) fun _ => h.countedLoop hr (execWith h hv hr init hinit)
      (hv.test c htest) (execAllWith h hv hr body hbody) (execWith h hv hr step hstep)
  | .function name params body =>
    rw [Stmt.nodes, List.forall_mem_cons] at hs
    obtain ⟨hs, hinside⟩ := hs
    have hbody : deep = true → ∀ x ∈ Stmt.allNodes deep body, V x := by
      intro hd
      rwa [if_pos hd] at hinside
    rw [Bhasha.execWith, Bhasha.execWith]
    exact h.bind (h.note _) fun _ => h.bind (h.declare name params body hs hbody) fun _ => h.pure _
  | .ret e =>
    rw [Stmt.nodes, List.forall_mem_cons] at hs
    rw [Bhasha.execWith, Bhasha.execWith]
    exact h.bind (h.note _) fun _ => h.bind (hv.value e hs.2) fun v => h.pure _

theorem execAllWith (h : ExecSteps deep V G) (hv : Evaluated V G run run') (hr : rounds ≤ rounds')
    (b : List Stmt) (hb : ∀ x ∈ Stmt.allNodes deep b, V x) :
    G (execAllWith run rounds b) (execAllWith run' rounds' b) := by
  match b with
  | [] =>
    rw [Bhasha.execAllWith, Bhasha.execAllWith]
    exact h.pure _
  | s :: ss =>
    rw [Stmt.allNodes, List.forall_mem_append] at hb
    rw [Bhasha.execAllWith, Bhasha.execAllWith]
    apply h.bind (execWith h hv hr s hb.1)
    intro flow
    cases flow with
    | normal => exact execAllWith h hv hr ss hb.2
    | ret v => exact h.pure _

end

/-- The bodies of functions come from the store, so this induction is on how deep calls nest. -/
theorem execBlock (h : ExecSteps deep V G)
    (hcall : ∀ {n n' : Nat},
      (∀ b : Block, (∀ x ∈ Stmt.allNodes deep b, V x) → G (execBlock n b) (execBlock n' b)) →
        Evaluated V G (execBlock n) (execBlock n'))
    {n n' : Nat} (hn : n ≤ n') (b : Block) (hb : ∀ x ∈ Stmt.allNodes deep b, V x) :
    G (execBlock n b) (execBlock n' b) := by
  induction n' generalizing n b with
  | zero =>
    cases Nat.le_zero.mp hn
    exact h.unfinished
  | succ n' ih =>
    have next {n : Nat} (hn : n ≤ n') :
        G (Bhasha.execBlock (n + 1) b) (Bhasha.execBlock (n' + 1) b) :=
      h.execAllWith (hcall (ih hn)) hn b hb
    cases n with
    | zero => exact h.cutOff (next (Nat.le_refl n'))
    | succ n => exact next (Nat.le_of_succ_le_succ hn)

end ExecSteps

end Bhasha
