import Bhasha.Proofs.Machine.Bounds
import Bhasha.Proofs.Machine.NodeSteps
import Bhasha.Proofs.Machine.Returns
import Bhasha.Proofs.Value.Arithmetic

/-! Every error of a run is accounted for by the program. A body may run long after its function was
declared, and functions replace each other, so what is carried along the run is that every known
function is one of the program's own declarations (`Machine.Runs`). -/

namespace Bhasha

namespace Block

/-- Somewhere the function is called with so many arguments. -/
def Calls (b : Block) (name : String) (count : Nat) : Prop :=
  ∃ args, .expr (.call name args) ∈ b.nodes ∧ args.length = count

def Declares (b : Block) (name : String) (f : Function) : Prop :=
  .stmt (.function name f.params f.body) ∈ b.nodes

/-- The operator stands between two operands. -/
def Combines (b : Block) (op : Operator) : Prop :=
  ∃ left right, .expr (.binary op left right) ∈ b.nodes

/-- The operator stands in a test. -/
def Compares (b : Block) (op : Operator) : Prop :=
  ∃ left right, .test ⟨left, op, right⟩ ∈ b.nodes

end Block

/-- What has to stand in a program so that it can end in the error under this limit. -/
def RunError.Accounted (b : Block) (limit : Nat) : RunError → Prop
  | undefinedVariable name => .expr (.var name) ∈ b.nodes
  | undefinedFunction name => ∃ count, b.Calls name count
  | argumentCountMismatch name expected found =>
    expected ≠ found ∧ (∃ f, b.Declares name f ∧ f.params.length = expected) ∧ b.Calls name found
  | expectedInteger context found =>
    (context = "Condition" ∧ ∃ op, b.Compares op) ∨
      ∃ op ∈ [Operator.sub, .mul, .div, .rem], b.Combines op ∧
        context = "Operator '" ++ op.text ++ "'" ∧ Integer.parse? found = none
  | literalTooLarge literal => .expr (.number literal) ∈ b.nodes ∧ Integer.parse? literal = none
  | unknownOperator op =>
    (b.Compares op ∧ op ∉ [Operator.less, .greater, .lessEqual, .greaterEqual, .equal]) ∨
      (b.Combines op ∧ op ∉ [Operator.add, .sub, .mul, .div, .rem])
  | divisionByZero => b.Combines .div ∨ b.Combines .rem
  | overflow op => op ∈ [Operator.add, .sub, .mul, .div, .rem] ∧ b.Combines op
  | missingValue name =>
    ∃ f, b.Declares name f ∧ b.Calls name f.params.length ∧ f.body.alwaysReturns = false
  | returnOutsideFunction => ∃ value, .stmt (.ret value) ∈ b.ownNodes
  | callDepthExceeded name max =>
    max = limit ∧ ∃ f, b.Declares name f ∧ b.Calls name f.params.length

variable {α β : Type} {b : Block} {limit : Nat}

theorem accounted_combine {op : Operator} {left right : Value} {e : RunError} (hb : b.Combines op)
    (h : Value.combine op left right = .error e) : e.Accounted b limit := by
  rcases Value.combine_error h with ⟨hop, rfl⟩ | ⟨hop, h⟩
  · refine .inr ⟨hb, fun hmem => ?_⟩
    rw [← op.combines_iff, hop] at hmem
    cases hmem
  rcases h with rfl | ⟨rfl, rfl | rfl⟩ | ⟨hadd, found, hparse, rfl⟩
  · exact ⟨op.combines_iff.mp hop, hb⟩
  · exact .inl hb
  · exact .inr hb
  · refine .inr ⟨op, ?_, hb, rfl, hparse⟩
    exact (List.mem_cons.mp (op.combines_iff.mp hop)).resolve_left hadd

theorem accounted_asInteger {c : Condition} {v : Value} {e : RunError} (hc : .test c ∈ b.nodes)
    (h : v.asInteger "Condition" = .error e) : e.Accounted b limit := by
  rw [Value.asInteger_error h]
  exact .inl ⟨rfl, c.op, c.left, c.right, hc⟩

theorem accounted_compare {c : Condition} {x y : Integer} {e : RunError} (hc : .test c ∈ b.nodes)
    (h : Integer.compare c.op x y = .error e) : e.Accounted b limit := by
  obtain ⟨rfl, hop⟩ := Integer.compare_error h
  exact .inl ⟨⟨c.left, c.right, hc⟩, hop⟩

/-- A state in a run of the program under this limit: the known functions are declared in it. -/
structure Machine.Runs (b : Block) (limit : Nat) (m : Machine) : Prop where
  limit : m.limit = limit
  declared : ∀ name f, m.functions.find? name = some f → b.Declares name f
  inside : ∀ name f, m.functions.find? name = some f → ∀ x ∈ f.body.nodes, x ∈ b.nodes

theorem Machine.Runs.declare {m : Machine} {name : String} {f : Function} (h : m.Runs b limit)
    (hf : b.Declares name f) (hin : ∀ x ∈ f.body.nodes, x ∈ b.nodes) :
    Machine.Runs b limit { m with functions := m.functions.insert name f } :=
  ⟨h.limit, Store.forall_insert h.declared hf, Store.forall_insert h.inside hin⟩

/-- The computation stays in such states, and an error of it is accounted for. -/
structure Run.Accounts (b : Block) (limit : Nat) (x : Run α) : Prop where
  runs : ∀ {m m' r}, m.Runs b limit → x m = some (r, m') → m'.Runs b limit
  error : ∀ {m m' e}, m.Runs b limit → x m = some (.error e, m') → e.Accounted b limit

namespace Run.Accounts

theorem bind {x : Run α} {f : α → Run β} (hx : x.Accounts b limit)
    (hf : ∀ a, (f a).Accounts b limit) : (x >>= f).Accounts b limit where
  runs {m m' r} hm h := by
    rcases bind_cases h with ⟨a, mid, ha, h⟩ | ⟨e, he, rfl⟩
    · exact (hf a).runs (hx.runs hm ha) h
    · exact hx.runs hm he
  error {m m' e} hm h := by
    rcases bind_cases h with ⟨a, mid, ha, h⟩ | ⟨e', he, ⟨⟩⟩
    · exact (hf a).error (hx.runs hm ha) h
    · exact hx.error hm he

theorem ofExcept {r : Except RunError α} (h : ∀ e, r = .error e → e.Accounted b limit) :
    (ofExcept r).Accounts b limit where
  runs hm hr := by
    cases hr
    exact hm
  error {m m' e} hm hr := by
    cases hr
    exact h e rfl

theorem pure (a : α) : (pure a : Run α).Accounts b limit := ofExcept (r := .ok a) nofun

theorem look {name : String} (h : .expr (.var name) ∈ b.nodes) : (look name).Accounts b limit where
  runs hm hr := by
    unfold Run.look at hr
    split at hr <;> cases hr <;> exact hm
  error hm hr := by
    unfold Run.look at hr
    split at hr <;> cases hr
    exact h

theorem modify {f : Machine → Machine} (h : ∀ m, m.Runs b limit → (f m).Runs b limit) :
    (modify f).Accounts b limit where
  runs hm hr := by
    cases hr
    exact h _ hm
  error hm hr := by cases hr

theorem unfinished : (unfinished : Run α).Accounts b limit := ⟨nofun, nofun⟩

variable {run : Block → Run Flow} {bindAll : List String → Run Unit} {name : String} {count : Nat}

theorem invoke
    (hrun : ∀ body : Block, (∀ x ∈ body.nodes, x ∈ b.nodes) → (run body).Accounts b limit)
    (hbind : ∀ params, (bindAll params).Accounts b limit) (hcall : b.Calls name count) :
    (invoke run name count bindAll).Accounts b limit := by
  have hbody {m : Machine} {f : Function} (hm : m.Runs b limit)
      (hf : m.functions.find? name = some f) :
      (bindAll f.params >>= fun _ => run f.body).Accounts b limit :=
    (hbind f.params).bind fun _ => hrun f.body (hm.inside name f hf)
  constructor
  · intro m m' r hm h
    rcases invoke_cases h with ⟨e, -, -, rfl⟩ | ⟨f, result, mid, hc, hb, -, rfl⟩
    · exact hm
    · have hf := (Machine.callee_eq_ok.mp hc).1
      have hmid := (hbody hm hf).runs (m := m.enter name) ⟨hm.limit, hm.declared, hm.inside⟩ hb
      exact ⟨hmid.limit, hmid.declared, hmid.inside⟩
  · intro m m' e hm h
    rcases invoke_cases h with ⟨e', hc, ⟨⟩, rfl⟩ | ⟨f, result, mid, hc, hb, hr, rfl⟩
    · rcases Machine.callee_eq_error hc with rfl | ⟨f, hf, ⟨hne, rfl⟩ | ⟨rfl, rfl⟩⟩
      · exact ⟨count, hcall⟩
      · exact ⟨Ne.symm hne, ⟨f, hm.declared name f hf, rfl⟩, hcall⟩
      · exact ⟨hm.limit, f, hm.declared name f hf, hcall⟩
    · have hf := (Machine.callee_eq_ok.mp hc).1
      cases result with
      | ok flow => cases hr
      | error e' =>
        cases hr
        exact (hbody hm hf).error (m := m.enter name) ⟨hm.limit, hm.declared, hm.inside⟩ hb

/-- A call that gives back nothing went through a body that need not return. -/
theorem invoke_none {m m' : Machine}
    (hflow : ∀ body : Block, (run body).Gives (MayEnd body.alwaysReturns body.ownNodes))
    (hm : m.Runs b limit) (h : Bhasha.invoke run name count bindAll m = some (.ok none, m')) :
    ∃ f, b.Declares name f ∧ count = f.params.length ∧ f.body.alwaysReturns = false := by
  rcases invoke_cases h with ⟨e, -, ⟨⟩, -⟩ | ⟨f, result, mid, hc, hb, hr, -⟩
  obtain ⟨hf, hn, -⟩ := Machine.callee_eq_ok.mp hc
  refine ⟨f, hm.declared name f hf, hn, ?_⟩
  have hbody : (bindAll f.params >>= fun _ => run f.body).Gives
      (MayEnd f.body.alwaysReturns f.body.ownNodes) := .andThen fun _ => hflow f.body
  match result with
  | .ok .normal => exact hbody _ _ _ hb
  | .ok (.ret v) => cases hr
  | .error e => cases hr

end Run.Accounts

theorem evalSteps_accounts {run run' : Block → Run Flow}
    (hrun : ∀ body : Block, (∀ x ∈ body.nodes, x ∈ b.nodes) → (run body).Accounts b limit)
    (hflow : ∀ body : Block, (run body).Gives (MayEnd body.alwaysReturns body.ownNodes)) :
    EvalSteps (· ∈ b.nodes) (fun x _ => x.Accounts b limit) (fun x _ => x.Accounts b limit)
      run run' where
  weaken := id
  pure := .pure
  bind := .bind
  bindG := .bind
  literal text h hp := .ofExcept (r := .error (.literalTooLarge text)) (by
    rintro _ ⟨⟩
    exact ⟨h, hp⟩)
  look _ h := .look h
  combine op left right _ _ h := .ofExcept fun _ he => accounted_combine ⟨left, right, h⟩ he
  call name args h hbind := by
    have hcall : b.Calls name args.length := ⟨args, h, rfl⟩
    have hinvoke := Run.Accounts.invoke hrun hbind hcall
    rw [evalWith]
    constructor
    · intro m m' r hm hr
      rcases Run.bind_cases hr with ⟨v, mid, hv, hr⟩ | ⟨e, he, rfl⟩
      · have hmid := hinvoke.runs hm hv
        cases v <;> cases hr <;> exact hmid
      · exact hinvoke.runs hm he
    · intro m m' e hm hr
      rcases Run.bind_cases hr with ⟨v, mid, hv, hr⟩ | ⟨e', he, ⟨⟩⟩
      · cases v with
        | some v => cases hr
        | none =>
          cases hr
          obtain ⟨f, hf, hn, hflow⟩ := Run.Accounts.invoke_none hflow hm hv
          exact ⟨f, hf, hn ▸ hcall, hflow⟩
      · exact hinvoke.error hm he
  bindParam _ _ := .modify fun _ hm => ⟨hm.limit, hm.declared, hm.inside⟩
  asInteger _ _ h := .ofExcept fun _ he => accounted_asInteger h he
  compare _ _ _ h := .ofExcept fun _ he => accounted_compare h he

theorem execSteps_accounts :
    ExecSteps true (· ∈ b.nodes) (fun x _ => x.Accounts b limit) where
  pure := .pure
  bind := .bind
  unfinished := .unfinished
  cutOff _ := .unfinished
  note _ := .modify fun _ hm => ⟨hm.limit, hm.declared, hm.inside⟩
  print _ := .modify fun _ hm => ⟨hm.limit, hm.declared, hm.inside⟩
  assign _ _ _ _ := .modify fun _ hm => ⟨hm.limit, hm.declared, hm.inside⟩
  declare _ _ _ h hbody :=
    .bind (.modify fun _ hm => ⟨hm.limit, hm.declared, hm.inside⟩) fun _ =>
      .modify fun _ hm => hm.declare h (hbody rfl)

theorem execBlock_accounts (n : Nat) (b : Block) (limit : Nat) :
    (execBlock n b).Accounts b limit := by
  apply execSteps_accounts.execBlock _ (Nat.le_refl n) b fun x hx => hx
  intro n n' hrun
  exact (evalSteps_accounts hrun (execBlock_flow n)).evaluated

/-- Whatever error a program ends in, on a new machine and under any limit, the program holds what
the error speaks of: the name, literal or operator, the call and the declaration that do not fit, a
function that can end without a value, or a return outside all functions. -/
theorem run_error_accounted (b : Block) (limit : Nat) {e : RunError} {m' : Machine}
    (h : Ends (runProgram · b) (.start limit) (.error e) m') : e.Accounted b limit := by
  obtain ⟨n, h⟩ := h
  rcases Run.bind_cases h with ⟨_, mid, hnote, h⟩ | ⟨e', ⟨⟩, -⟩
  have hmid : mid.Runs b limit := by
    cases hnote
    exact ⟨rfl, nofun, nofun⟩
  rcases Run.bind_cases h with ⟨flow, m'', hflow, h⟩ | ⟨e', he, ⟨⟩⟩
  · cases flow with
    | normal => cases h
    | ret v =>
      cases h
      exact execBlock_flow n b _ _ _ hflow
  · exact (execBlock_accounts n b limit).error hmid he

/-- A function that always returns is replaced, in a call, by one that returns only sometimes. -/
theorem run_error_accounted_replaced :
    let b : Block :=
      [.function "g" [] [.ret (.number "1")],
        .function "f" ["n"]
          [.function "g" [] [.cond ⟨.var "n", .less, .number "0"⟩ [.ret (.var "n")] none],
            .ret (.binary .add (.call "g" []) (.number "1"))],
        .print (.call "g" []), .print (.call "f" [.number "2"])]
    ∃ m', Ends (runProgram · b) (.start 2) (.error (.missingValue "g")) m' ∧
      ∃ f, b.Declares "g" f ∧ b.Calls "g" f.params.length ∧ f.body.alwaysReturns = false := by
  intro b
  have h : Ends (runProgram · b) (.start 2) (.error (.missingValue "g")) _ := ⟨3, rfl⟩
  exact ⟨_, h, run_error_accounted b 2 h⟩

end Bhasha
