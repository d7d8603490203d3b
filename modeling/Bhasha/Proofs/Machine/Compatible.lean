import Bhasha.Proofs.Machine.NodeSteps

/-! Relations that every step of the machine respects hold between two runs of any tree. `E` relates
computations that evaluate and `G` computations that execute; a call is the place where an execution
counts as an evaluation again. A relation that looks at one side only speaks of a single run. -/

namespace Bhasha

/-- What evaluation needs of the two relations, where bodies of functions run by `run` on one side
and by `run'` on the other. -/
structure Compatible (E G : ∀ {α : Type}, Run α → Run α → Prop) (run run' : Block → Run Flow) :
    Prop where
  weaken : ∀ {α : Type} {x y : Run α}, E x y → G x y
  ofExcept : ∀ {α : Type} (r : Except RunError α), E (.ofExcept r) (.ofExcept r)
  look : ∀ name, E (.look name) (.look name)
  bind : ∀ {α β : Type} {x y : Run α} {f g : α → Run β},
    E x y → (∀ a, E (f a) (g a)) → E (x >>= f) (y >>= g)
  bindG : ∀ {α β : Type} {x y : Run α} {f g : α → Run β},
    G x y → (∀ a, G (f a) (g a)) → G (x >>= f) (y >>= g)
  assign : ∀ name value, G (.assign name value) (.assign name value)
  invoke : ∀ {bindAll bindAll' : List String → Run Unit} name count,
    (∀ params, G (bindAll params) (bindAll' params)) →
      E (invoke run name count bindAll) (invoke run' name count bindAll')

variable {E G : ∀ {α : Type}, Run α → Run α → Prop} {run run' : Block → Run Flow}

namespace Compatible

theorem pureG (h : Compatible E G run run') {α : Type} (a : α) :
    G (pure a : Run α) (pure a : Run α) :=
  h.weaken (h.ofExcept (.ok a))

theorem evalSteps (h : Compatible E G run run') : EvalSteps (fun _ => True) E G run run' where
  weaken := h.weaken
  pure a := h.ofExcept (.ok a)
  bind := h.bind
  bindG := h.bindG
  literal text _ _ := h.ofExcept (.error (.literalTooLarge text))
  look name _ := h.look name
  combine op _ _ a b _ := h.ofExcept (a.combine op b)
  call name args _ hbind := by
    rw [Bhasha.evalWith, Bhasha.evalWith]
    refine h.bind (h.invoke name args.length hbind) fun v => ?_
    cases v with
    | some v => exact h.ofExcept (.ok v)
    | none => exact h.ofExcept (.error (.missingValue name))
  bindParam := h.assign
  asInteger _ v _ := h.ofExcept (v.asInteger "Condition")
  compare c a b _ := h.ofExcept (Integer.compare c.op a b)

theorem evalWith (h : Compatible E G run run') (e : Expr) :
    E (evalWith run e) (evalWith run' e) :=
  h.evalSteps.evalWith e fun _ _ => trivial

theorem bindWith (h : Compatible E G run run') (params : List String) (args : List Expr) :
    G (bindWith run params args) (bindWith run' params args) :=
  h.evalSteps.bindWith params args fun _ _ => trivial

theorem testWith (h : Compatible E G run run') (c : Condition) :
    E (testWith run c) (testWith run' c) :=
  h.evalSteps.testWith c fun _ _ => trivial

end Compatible

/-- What execution needs besides. The first of two related runs may have a smaller bound, and where
that is used up it does not finish. -/
structure Congruence (E G : ∀ {α : Type}, Run α → Run α → Prop) : Prop where
  compatible : ∀ {run run' : Block → Run Flow}, (∀ b, G (run b) (run' b)) →
    Compatible E G run run'
  unfinished : ∀ {α : Type}, G (.unfinished : Run α) .unfinished
  cutOff : ∀ {α : Type} {x y : Run α}, G x y → G .unfinished y
  note : ∀ e, G (.note e) (.note e)
  print : ∀ value, G (.print value) (.print value)
  declare : ∀ name f, G (.declare name f) (.declare name f)

namespace Congruence

theorem execSteps (h : Congruence E G) : ExecSteps false (fun _ => True) G :=
  -- what `G` itself has to respect does not depend on how bodies run
  have hc : Compatible E G (fun _ => .unfinished) (fun _ => .unfinished) :=
    h.compatible fun _ => h.unfinished
  { pure := hc.pureG
    bind := hc.bindG
    unfinished := h.unfinished
    cutOff := h.cutOff
    note := fun kind => h.note (.executing kind)
    print := h.print
    assign := fun name _ value _ => hc.assign name value
    declare := fun name params body _ _ => h.declare name ⟨params, body⟩ }

theorem execBlock (h : Congruence E G) {n n' : Nat} (hn : n ≤ n') (b : Block) :
    G (execBlock n b) (execBlock n' b) := by
  refine h.execSteps.execBlock (fun hrun => ?_) hn b fun _ _ => trivial
  exact (h.compatible fun b => hrun b fun _ _ => trivial).evalSteps.evaluated

theorem evaluated (h : Congruence E G) {n n' : Nat} (hn : n ≤ n') :
    Evaluated (fun _ => True) G (Bhasha.execBlock n) (Bhasha.execBlock n') :=
  (h.compatible fun b => h.execBlock hn b).evalSteps.evaluated

theorem test (h : Congruence E G) {n n' : Nat} (hn : n ≤ n') (c : Condition) :
    G (test n c) (test n' c) :=
  (h.evaluated hn).test c fun _ _ => trivial

theorem exec (h : Congruence E G) {n n' : Nat} (hn : n ≤ n') (s : Stmt) :
    G (exec n s) (exec n' s) :=
  h.execSteps.execWith (h.evaluated hn) hn s fun _ _ => trivial

theorem execWhile (h : Congruence E G) {n n' : Nat} (hn : n ≤ n') (c : Condition) (body : Block) :
    G (execWhile n c body) (execWhile n' c body) :=
  h.execSteps.loop hn (h.test hn c) (h.execBlock (Nat.succ_le_succ hn) body)
    (h.execSteps.pure ())

end Congruence

end Bhasha
