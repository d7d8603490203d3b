import Bhasha.Proofs.Machine.Keeps

/-! Evaluation leaves the variables of its caller alone. Calls share the one store and may fail
anywhere, but every way out of a call puts the variables and the depth back. -/

namespace Bhasha

/-- What no run takes back: the depth and its limit are as they were, what was printed stays, and
a declared function stays declared. -/
structure Advances (m m' : Machine) : Prop where
  depth : m'.depth = m.depth
  limit : m'.limit = m.limit
  output : ∃ more, m'.output = m.output ++ more
  known : ∀ name, (m.functions.find? name).isSome → (m'.functions.find? name).isSome

/-- The same, with the variables as they were. -/
structure Undisturbed (m m' : Machine) : Prop extends Advances m m' where
  vars : m'.vars = m.vars

theorem Advances.refl (m : Machine) : Advances m m := ⟨rfl, rfl, ⟨"", by simp⟩, fun _ h => h⟩

theorem Advances.trans {a b c : Machine} (h : Advances a b) (h' : Advances b c) : Advances a c := by
  obtain ⟨s, hs⟩ := h.output
  obtain ⟨t, ht⟩ := h'.output
  exact ⟨h'.depth.trans h.depth, h'.limit.trans h.limit,
    ⟨s ++ t, by rw [ht, hs, String.append_assoc]⟩, fun name hn => h'.known name (h.known name hn)⟩

theorem advances_declare (m : Machine) (name : String) (f : Function) :
    Advances m { m with functions := m.functions.insert name f } := by
  refine ⟨rfl, rfl, ⟨"", by simp⟩, fun other h => ?_⟩
  simp only [Store.find?_insert]
  split
  · rfl
  · exact h

theorem undisturbed_leave {m m' : Machine} {name : String} (h : Advances (m.enter name) m') :
    Undisturbed m (m'.leave m) where
  depth := by rw [Machine.leave, h.depth]; rfl
  limit := h.limit
  output := h.output
  known := h.known
  vars := rfl

theorem kept_undisturbed : Kept Undisturbed Advances where
  refl m := ⟨.refl m, rfl⟩
  trans h h' := ⟨h.toAdvances.trans h'.toAdvances, h'.vars.trans h.vars⟩
  weaken h := h.toAdvances
  transG := Advances.trans
  note m e := ⟨rfl, rfl, ⟨"", by simp⟩, fun _ h => h⟩
  assign m name value := ⟨rfl, rfl, ⟨"", by simp⟩, fun _ h => h⟩
  print m text := ⟨rfl, rfl, ⟨text, rfl⟩, fun _ h => h⟩
  declare := advances_declare
  call _ h := undisturbed_leave h

/-- However an expression, a condition or a call ends, its caller goes on from the state it was in,
with at most more printed and more declared. -/
theorem evaluation_undisturbed (n : Nat) (m : Machine) :
    (∀ e r m', eval n e m = some (r, m') → Undisturbed m m') ∧
      (∀ c r m', test n c m = some (r, m') → Undisturbed m m') ∧
      ∀ name args r m', call n name args m = some (r, m') → Undisturbed m m' := by
  have hrun := kept_undisturbed.execBlock n
  refine ⟨fun e => ?_, fun c => ?_, fun name args => ?_⟩
  · exact kept_undisturbed.evalWith hrun e m
  · exact kept_undisturbed.testWith hrun c m
  · exact kept_undisturbed.invoke hrun name args.length
      (fun params => kept_undisturbed.bindWith hrun params args) m

/-- A call that assigns a variable of its caller, prints, declares a function and then fails. -/
theorem evaluation_undisturbed_failing :
    let body : Block := [.assign "y" (.var "x"), .print (.var "y"), .function "g" [] [],
      .print (.var "z")]
    let m : Machine := { Machine.start 1 with
      vars := ⟨[("y", .str "kept")]⟩, functions := ⟨[("f", ⟨["x"], body⟩)]⟩ }
    ∃ m', call 1 "f" [.string "lost"] m = some (.error (.undefinedVariable "z"), m') ∧
      Undisturbed m m' ∧ m'.output = "lost\n" := by
  intro body m
  exact ⟨_, rfl, (evaluation_undisturbed 1 m).2.2 "f" [.string "lost"] _ _ rfl, rfl⟩

end Bhasha
