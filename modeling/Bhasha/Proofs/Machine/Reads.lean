import Bhasha.Proofs.Machine.Bounds
import Bhasha.Proofs.Machine.NodeSteps

/-! A run depends only on the variables that it can read. Calls see the whole store of their caller
and functions are declared while the program runs, but no step looks a variable up whose name does
not stand in the block or in a known function. So two runs from states that agree on those names
stay alike (`Run.Mirrors`), whatever else the states hold. -/

namespace Bhasha

variable {α β : Type} {R : String → Prop}

/-- The variable that an expression reads. -/
def Node.read? : Node → Option String
  | .expr (.var name) => some name
  | _ => none

/-- The names that occur as variables in a block, the functions that it declares included. -/
def Block.reads (b : Block) : List String := b.nodes.filterMap Node.read?

/-- A node that reads only such names. -/
def Node.ReadsIn (R : String → Prop) (x : Node) : Prop := ∀ name, x.read? = some name → R name

/-- The names that a run of the block in this state can read. -/
def Machine.CanRead (m : Machine) (b : Block) (name : String) : Prop :=
  name ∈ b.reads ∨ ∃ other f, m.functions.find? other = some f ∧ name ∈ f.body.reads

/-- Two states that agree on these variables, which are all that known functions read. They may
differ in other variables, and in what was printed and recorded. -/
structure Alike (R : String → Prop) (m n : Machine) : Prop where
  functions : ∀ name, n.functions.find? name = m.functions.find? name
  depth : n.depth = m.depth
  limit : n.limit = m.limit
  vars : ∀ name, R name → n.vars.find? name = m.vars.find? name
  bodies : ∀ name f, m.functions.find? name = some f → ∀ x ∈ f.body.nodes, x.ReadsIn R

namespace Alike

variable {m n m' n' : Machine}

theorem callee (h : Alike R m n) (name : String) (count : Nat) :
    n.callee name count = m.callee name count := by
  unfold Machine.callee
  rw [h.functions, h.depth, h.limit]

theorem enter (h : Alike R m n) (name : String) : Alike R (m.enter name) (n.enter name) :=
  ⟨h.functions, congrArg (· + 1) h.depth, h.limit, h.vars, h.bodies⟩

theorem leave (h : Alike R m n) (h' : Alike R m' n') : Alike R (m'.leave m) (n'.leave n) :=
  ⟨h'.functions, congrArg (· - 1) h'.depth, h'.limit, h.vars, h'.bodies⟩

theorem assign (h : Alike R m n) (name : String) (value : Value) :
    Alike R { m with vars := m.vars.insert name value }
      { n with vars := n.vars.insert name value } := by
  refine ⟨h.functions, h.depth, h.limit, ?_, h.bodies⟩
  intro other ho
  rw [Store.find?_insert, Store.find?_insert, h.vars other ho]

theorem declare (h : Alike R m n) (name : String) {f : Function}
    (hf : ∀ x ∈ f.body.nodes, x.ReadsIn R) :
    Alike R { m with functions := m.functions.insert name f }
      { n with functions := n.functions.insert name f } := by
  refine ⟨?_, h.depth, h.limit, h.vars, Store.forall_insert h.bodies hf⟩
  intro other
  rw [Store.find?_insert, Store.find?_insert, h.functions]

end Alike

/-- From a state that is alike, the second computation ends as the first one does, in a state that
is alike, and prints the same. -/
structure Run.Mirrors (R : String → Prop) (x y : Run α) : Prop where
  ends : ∀ {m n m' r}, Alike R m n → x m = some (r, m') →
    ∃ n' more, y n = some (r, n') ∧ Alike R m' n' ∧
      m'.output = m.output ++ more ∧ n'.output = n.output ++ more

namespace Run.Mirrors

theorem bind {x y : Run α} {f g : α → Run β} (hx : x.Mirrors R y)
    (hf : ∀ a, (f a).Mirrors R (g a)) : (x >>= f).Mirrors R (y >>= g) := by
  refine ⟨fun {m n m' r} hn h => ?_⟩
  rcases bind_cases h with ⟨a, mid, ha, h⟩ | ⟨e, he, rfl⟩
  · obtain ⟨nid, s, hy, hnid, hs, hs'⟩ := hx.ends hn ha
    obtain ⟨n', t, hg, hn', ht, ht'⟩ := (hf a).ends hnid h
    refine ⟨n', s ++ t, (bind_of_ok hy).trans hg, hn', ?_, ?_⟩
    · rw [ht, hs, String.append_assoc]
    · rw [ht', hs', String.append_assoc]
  · obtain ⟨n', s, hy, hn', hs⟩ := hx.ends hn he
    exact ⟨n', s, bind_of_error hy, hn', hs⟩

theorem ofExcept (r : Except RunError α) : (ofExcept r).Mirrors R (ofExcept r) := by
  refine ⟨fun {m n m' r} hn h => ?_⟩
  cases h
  exact ⟨n, "", rfl, hn, by simp⟩

theorem look {name : String} (hr : R name) : (look name).Mirrors R (look name) := by
  refine ⟨fun {m n m' r} hn h => ?_⟩
  unfold Run.look at h ⊢
  rw [hn.vars name hr]
  split at h <;> cases h <;> exact ⟨n, "", rfl, hn, by simp⟩

theorem modify {f : Machine → Machine} (more : String)
    (hf : ∀ {m n}, Alike R m n → Alike R (f m) (f n))
    (ho : ∀ m, (f m).output = m.output ++ more) : (modify f).Mirrors R (modify f) := by
  refine ⟨fun {m n m' r} hn h => ?_⟩
  cases h
  exact ⟨f n, more, rfl, hf hn, ho m, ho n⟩

theorem note (e : Event) : (note e).Mirrors R (note e) :=
  modify "" (fun h => ⟨h.functions, h.depth, h.limit, h.vars, h.bodies⟩) fun _ => by simp

theorem cutOff (y : Run α) : unfinished.Mirrors R y := by
  refine ⟨fun _ h => ?_⟩
  cases h

theorem invoke {run run' : Block → Run Flow} {bindAll bindAll' : List String → Run Unit}
    (hrun : ∀ b : Block, (∀ x ∈ b.nodes, x.ReadsIn R) → (run b).Mirrors R (run' b))
    (hbind : ∀ params, (bindAll params).Mirrors R (bindAll' params)) (name : String) (count : Nat) :
    (invoke run name count bindAll).Mirrors R (invoke run' name count bindAll') := by
  refine ⟨fun {m n m' r} hn h => ?_⟩
  rcases invoke_cases h with ⟨e, hc, rfl, rfl⟩ | ⟨f, result, mid, hc, hb, rfl, rfl⟩
  · exact ⟨n, "", invoke_of_error ((hn.callee name count).trans hc), hn, by simp⟩
  · have hf := hn.bodies name f (Machine.callee_eq_ok.mp hc).1
    have hbody := (hbind f.params).bind fun _ => hrun f.body hf
    obtain ⟨nid, more, hy, hnid, hout⟩ := hbody.ends (hn.enter name) hb
    have hc' : n.callee name count = .ok f := (hn.callee name count).trans hc
    exact ⟨nid.leave n, more, invoke_of_ok hc' hy, hn.leave hnid, hout⟩

end Run.Mirrors

theorem evalSteps_mirrors {run run' : Block → Run Flow}
    (hrun : ∀ b : Block, (∀ x ∈ b.nodes, x.ReadsIn R) → (run b).Mirrors R (run' b)) :
    EvalSteps (Node.ReadsIn R) (Run.Mirrors R) (Run.Mirrors R) run run' where
  weaken := id
  pure a := .ofExcept (.ok a)
  bind := .bind
  bindG := .bind
  literal text _ _ := .ofExcept (.error (.literalTooLarge text))
  look name h := .look (h name rfl)
  combine _ _ _ _ _ _ := .ofExcept _
  call name args _ hbind := by
    rw [evalWith, evalWith]
    apply Run.Mirrors.bind (.invoke hrun hbind name args.length)
    intro v
    cases v with
    | some v => exact .ofExcept (.ok v)
    | none => exact .ofExcept (.error (.missingValue name))
  bindParam name value := .modify "" (fun h => h.assign name value) fun _ => by simp
  asInteger _ _ _ := .ofExcept _
  compare _ _ _ _ := .ofExcept _

theorem execSteps_mirrors : ExecSteps true (Node.ReadsIn R) (Run.Mirrors R) where
  pure a := .ofExcept (.ok a)
  bind := .bind
  unfinished := .cutOff _
  cutOff _ := .cutOff _
  note _ := .note _
  print value := by
    apply Run.Mirrors.modify (value.text ++ "\n")
    · intro m n h
      exact ⟨h.functions, h.depth, h.limit, h.vars, h.bodies⟩
    · intro m
      exact String.append_assoc
  assign name _ value _ := .modify "" (fun h => h.assign name value) fun _ => by simp
  declare name params body _ hbody := by
    apply Run.Mirrors.bind (.note _)
    intro _
    apply Run.Mirrors.modify ""
    · intro m n h
      exact h.declare name (hbody rfl)
    · intro m
      simp

/-- In two states with the same functions, depth and limit that agree on all that the block and the
known functions read, the block ends in the same way, if it ends in one of them. It prints the same
after whatever was printed before, declares the same functions, and the states agree as before. -/
theorem run_depends_on_reads (b : Block) {m n : Machine}
    (hf : ∀ name, n.functions.find? name = m.functions.find? name) (hd : n.depth = m.depth)
    (hl : n.limit = m.limit)
    (hv : ∀ name, m.CanRead b name → n.vars.find? name = m.vars.find? name)
    {r : Except RunError Flow} {m' : Machine} (h : Ends (execBlock · b) m r m') :
    ∃ n' more, Ends (execBlock · b) n r n' ∧
      m'.output = m.output ++ more ∧ n'.output = n.output ++ more ∧
      (∀ name, n'.functions.find? name = m'.functions.find? name) ∧
      ∀ name, m.CanRead b name → n'.vars.find? name = m'.vars.find? name := by
  have hmn : Alike (m.CanRead b) m n := by
    refine ⟨hf, hd, hl, hv, ?_⟩
    intro name f hname x hx y hy
    exact .inr ⟨name, f, hname, List.mem_filterMap.mpr ⟨x, hx, hy⟩⟩
  have hb : ∀ x ∈ b.nodes, x.ReadsIn (m.CanRead b) :=
    fun x hx y hy => .inl (List.mem_filterMap.mpr ⟨x, hx, hy⟩)
  obtain ⟨k, hk⟩ := h
  have hmirror := execSteps_mirrors.execBlock (fun hrun => (evalSteps_mirrors hrun).evaluated)
    (Nat.le_refl k) b hb
  obtain ⟨n', more, hn', halike, hout, hout'⟩ := hmirror.ends hmn hk
  exact ⟨n', more, ⟨k, hn'⟩, hout, hout', halike.functions, halike.vars⟩

/-- Two states with different values of a variable that the block and a function it calls write and
never read, after different output. -/
theorem run_depends_on_reads_hidden :
    let b : Block :=
      [.function "g" ["n"] [.ret (.binary .add (.var "n") (.var "x"))],
        .assign "hidden" (.call "f" [.call "g" [.number "1"]]), .print (.var "x")]
    let f : Function := ⟨["p"], [.assign "hidden" (.var "p"), .print (.var "p"), .ret (.var "x")]⟩
    let m : Machine := { Machine.start 2 with
      vars := ⟨[("x", .str "5")]⟩, functions := Store.empty.insert "f" f, output := "a" }
    let n : Machine := { m with vars := ⟨[("hidden", .str "s"), ("x", .str "5")]⟩, output := "b" }
    ∃ n' more, Ends (execBlock · b) n (.ok .normal) n' ∧
      "a15\n5\n" = m.output ++ more ∧ n'.output = n.output ++ more := by
  intro b f m n
  have hv : ∀ name, m.CanRead b name → n.vars.find? name = m.vars.find? name := by
    intro name h
    have hname : name ∈ ["n", "x", "p"] := by
      rcases h with h | ⟨other, g, hg, h⟩
      · have hb : ∀ y ∈ b.reads, y ∈ ["n", "x", "p"] := by decide
        exact hb name h
      · rw [Store.find?_insert] at hg
        split at hg <;> cases hg
        have hf : ∀ y ∈ f.body.reads, y ∈ ["n", "x", "p"] := by decide
        exact hf name h
    simp only [List.mem_cons, List.not_mem_nil, or_false] at hname
    rcases hname with rfl | rfl | rfl <;> rfl
  obtain ⟨m', h, hm⟩ : ∃ m', Ends (execBlock · b) m (.ok .normal) m' ∧ m'.output = "a15\n5\n" :=
    ⟨_, ⟨3, rfl⟩, by decide +kernel⟩
  obtain ⟨n', more, hn, hout, hout', -⟩ :=
    run_depends_on_reads b (m := m) (n := n) (fun _ => rfl) rfl rfl hv h
  exact ⟨n', more, hn, hm.symm.trans hout, hout'⟩

end Bhasha
