import Bhasha.Proofs.Machine.NodeSteps
import Bhasha.Proofs.Machine.Undisturbed

/-! A block writes only the variables that its own statements name. The functions it calls write
into the same store whatever they like, parameters included, but each way out of a call takes that
back (`kept_undisturbed`), so what is left are the writes of the block itself. -/

namespace Bhasha

/-- The variable that a statement declares or assigns. -/
def Node.write? : Node → Option String
  | .stmt (.declare name _) | .stmt (.assign name _) => some name
  | _ => none

/-- The names that a block declares or assigns at any nesting of conditionals and loops, outside
the functions that it declares. -/
def Block.writes (b : Block) : List String := b.ownNodes.filterMap Node.write?

/-- Variables of other names are as they were, and none is gone. -/
structure WritesOnly (names : List String) (m m' : Machine) : Prop where
  same : ∀ name, name ∉ names → m'.vars.find? name = m.vars.find? name
  bound : ∀ name, (m.vars.find? name).isSome → (m'.vars.find? name).isSome

namespace WritesOnly

variable {names : List String}

theorem of_vars {m m' : Machine} (h : m'.vars = m.vars) : WritesOnly names m m' :=
  ⟨fun _ _ => by rw [h], fun _ hb => by rwa [h]⟩

theorem trans {a b c : Machine} (h : WritesOnly names a b) (h' : WritesOnly names b c) :
    WritesOnly names a c :=
  ⟨fun name hn => (h'.same name hn).trans (h.same name hn),
    fun name hb => h'.bound name (h.bound name hb)⟩

theorem insert {name : String} (hn : name ∈ names) (m : Machine) (value : Value) :
    WritesOnly names m { m with vars := m.vars.insert name value } := by
  constructor
  · intro other ho
    have hne : other ≠ name := by
      rintro rfl
      exact ho hn
    rw [Store.find?_insert, if_neg hne]
  · intro other ho
    rw [Store.find?_insert]
    split
    · rfl
    · exact ho

end WritesOnly

theorem execSteps_writesOnly (names : List String) :
    ExecSteps false (fun x => ∀ name, x.write? = some name → name ∈ names)
      (fun x _ => x.Keeps (WritesOnly names)) where
  pure a := .ofExcept (fun _ => .of_vars rfl) (.ok a)
  bind hx hf := hx.bind WritesOnly.trans hf
  unfinished := .unfinished
  cutOff _ := .unfinished
  note _ := .modify fun _ => .of_vars rfl
  print _ := .modify fun _ => .of_vars rfl
  assign name e value h := by
    have hn : name ∈ names := h.elim (fun h => h name rfl) (fun h => h name rfl)
    exact .modify fun m => .insert hn m value
  declare name params body _ _ :=
    .bind WritesOnly.trans (.modify fun _ => .of_vars rfl) fun _ => .modify fun _ => .of_vars rfl

theorem writesOnly_execBlock {n : Nat} {b : Block} {m m' : Machine} {r : Except RunError Flow}
    (h : execBlock n b m = some (r, m')) : WritesOnly b.writes m m' := by
  cases n with
  | zero => cases h
  | succ n =>
    have hrun := kept_undisturbed.execBlock n
    -- Whatever is called comes back with the variables of its caller.
    have hv : Evaluated (fun x => ∀ name, x.write? = some name → name ∈ b.writes)
        (fun x _ => x.Keeps (WritesOnly b.writes)) (execBlock n) (execBlock n) :=
      { value := fun e _ => (kept_undisturbed.evalWith hrun e).mono fun h => .of_vars h.vars
        test := fun c _ => (kept_undisturbed.testWith hrun c).mono fun h => .of_vars h.vars }
    have hb : ∀ x ∈ b.ownNodes, ∀ name, x.write? = some name → name ∈ b.writes :=
      fun x hx name hn => List.mem_filterMap.mpr ⟨x, hx, hn⟩
    exact (execSteps_writesOnly b.writes).execAllWith hv (Nat.le_refl n) b hb m r m' h

/-- However a block ends, each variable that it does not itself declare or assign is bound as it was
before, or still unbound, and no variable is gone. -/
theorem execBlock_writes_only (n : Nat) (b : Block) {m m' : Machine} {r : Except RunError Flow}
    (h : execBlock n b m = some (r, m')) :
    (∀ name, name ∉ b.writes → m'.vars.find? name = m.vars.find? name) ∧
      ∀ name, (m.vars.find? name).isSome → (m'.vars.find? name).isSome := by
  have hw := writesOnly_execBlock h
  exact ⟨hw.same, hw.bound⟩

/-- A loop that calls a function with the loop's own variable for a parameter. The function assigns
a variable of the caller and one that was unbound, and then fails. -/
theorem execBlock_writes_only_loop :
    let b : Block := [.forLoop (.declare "i" (.number "0")) ⟨.var "i", .less, .number "3"⟩
      (.assign "i" (.binary .add (.var "i") (.number "1")))
      [.function "g" [] [.assign "x" (.var "i")], .assign "y" (.call "f" [.number "7"])]]
    let f : Function := ⟨["i"], [.assign "x" (.var "i"), .assign "z" (.var "i"), .print (.var "u")]⟩
    let m : Machine := { Machine.start 1 with
      vars := ⟨[("x", .str "kept")]⟩, functions := ⟨[("f", f)]⟩ }
    b.writes = ["i", "i", "y"] ∧
      ∃ m', execBlock 2 b m = some (.error (.undefinedVariable "u"), m') ∧
        m'.vars.find? "x" = some (.str "kept") ∧ m'.vars.find? "z" = none := by
  intro b f m
  refine ⟨by decide, _, rfl, ?_⟩
  have h := (execBlock_writes_only 2 b (m := m) rfl).1
  exact ⟨h "x" (by decide), h "z" (by decide)⟩

end Bhasha
