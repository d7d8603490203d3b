import Bhasha.Proofs.Machine.Steps
import Bhasha.Proofs.Program.Rename
import Bhasha.Proofs.Value.Arithmetic

/-! Names carry no meaning. A machine uses a name only to find what was stored under it, so a
program and its renamed copy go in step (`Run.Renames`): at each point the stores of the one are
those of the other under new names. -/

namespace Bhasha

variable {α β : Type} {ρ : Renaming}

/-- The second store holds what the first one holds, under new names and with `f` applied. -/
structure Store.Renamed (g : String → String) (f : α → β) (s : Store α) (s' : Store β) : Prop where
  found : ∀ name, s'.find? (g name) = (s.find? name).map f
  only : ∀ name, (s'.find? name).isSome → ∃ old, g old = name

namespace Store.Renamed

variable {g : String → String} {f : α → β} {s : Store α} {s' : Store β}

theorem empty : Renamed g f .empty .empty := ⟨fun _ => rfl, nofun⟩

theorem insert (hg : Function.Injective g) (h : Renamed g f s s') (name : String) (a : α) :
    Renamed g f (s.insert name a) (s'.insert (g name) (f a)) := by
  constructor
  · intro other
    simp only [find?_insert, hg.eq_iff]
    split
    · rfl
    · exact h.found other
  · intro other ho
    rw [find?_insert] at ho
    split at ho
    · next hn => exact ⟨name, hn.symm⟩
    · exact h.only other ho

end Store.Renamed

/-- The names in an error renamed. Texts and literals are no names. -/
def RunError.rename (ρ : Renaming) : RunError → RunError
  | undefinedVariable name => undefinedVariable (ρ.var name)
  | undefinedFunction name => undefinedFunction (ρ.function name)
  | argumentCountMismatch name expected found =>
    argumentCountMismatch (ρ.function name) expected found
  | missingValue name => missingValue (ρ.function name)
  | callDepthExceeded name limit => callDepthExceeded (ρ.function name) limit
  | e => e

/-- Two states that differ in the names of variables and functions, and perhaps in what was
recorded. -/
structure Renamed (ρ : Renaming) (m m' : Machine) : Prop where
  output : m'.output = m.output
  depth : m'.depth = m.depth
  limit : m'.limit = m.limit
  vars : Store.Renamed ρ.var id m.vars m'.vars
  functions : Store.Renamed ρ.function (Function.rename ρ) m.functions m'.functions

namespace Renamed

variable {m m' mid mid' : Machine}

theorem start (limit : Nat) : Renamed ρ (.start limit) (.start limit) :=
  ⟨rfl, rfl, rfl, .empty, .empty⟩

theorem enter (h : Renamed ρ m m') (name name' : String) :
    Renamed ρ (m.enter name) (m'.enter name') :=
  ⟨h.output, congrArg (· + 1) h.depth, h.limit, h.vars, h.functions⟩

theorem leave (h : Renamed ρ m m') (hmid : Renamed ρ mid mid') :
    Renamed ρ (mid.leave m) (mid'.leave m') :=
  ⟨hmid.output, congrArg (· - 1) hmid.depth, hmid.limit, h.vars, hmid.functions⟩

theorem callee (h : Renamed ρ m m') (name : String) (count : Nat) :
    m'.callee (ρ.function name) count =
      ((m.callee name count).mapError (RunError.rename ρ)).map (Function.rename ρ) := by
  unfold Machine.callee
  rw [h.functions.found, h.depth, h.limit]
  cases m.functions.find? name with
  | none => rfl
  | some f =>
    have hlen : (f.rename ρ).params.length = f.params.length := List.length_map _
    simp only [Option.map_some, hlen]
    split
    · rfl
    split
    · rfl
    · rfl

end Renamed

/-- From states that differ in names, neither computation finishes, or both do, with results that
differ in names in states that differ in names. -/
def Run.Renames (ρ : Renaming) (x y : Run α) : Prop :=
  ∀ m m', Renamed ρ m m' → (x m = none ∧ y m' = none) ∨
    ∃ r mid mid', x m = some (r, mid) ∧ y m' = some (r.mapError (RunError.rename ρ), mid') ∧
      Renamed ρ mid mid'

namespace Run.Renames

theorem ofExcept {r : Except RunError α} (h : ∀ e, r = .error e → e.rename ρ = e) :
    Renames ρ (ofExcept r) (ofExcept r) := by
  intro m m' hm
  have hr : r.mapError (RunError.rename ρ) = r := by
    cases r with
    | ok a => rfl
    | error e => exact congrArg Except.error (h e rfl)
  exact .inr ⟨r, m, m', rfl, by rw [hr]; rfl, hm⟩

theorem pure (a : α) : Renames ρ (pure a : Run α) (pure a) := ofExcept (r := .ok a) nofun

theorem fail (e : RunError) : Renames ρ (fail e : Run α) (fail (e.rename ρ)) :=
  fun m m' hm => .inr ⟨.error e, m, m', rfl, rfl, hm⟩

theorem unfinished : Renames ρ (unfinished : Run α) unfinished := fun _ _ _ => .inl ⟨rfl, rfl⟩

theorem bind {x y : Run α} {f g : α → Run β} (hx : Renames ρ x y)
    (hf : ∀ a, Renames ρ (f a) (g a)) : Renames ρ (x >>= f) (y >>= g) := by
  intro m m' hm
  rcases hx m m' hm with ⟨h, h'⟩ | ⟨r, mid, mid', h, h', hmid⟩
  · exact .inl ⟨bind_of_none h, bind_of_none h'⟩
  cases r with
  | ok a =>
    rw [bind_of_ok h, bind_of_ok h']
    exact hf a mid mid' hmid
  | error e => exact .inr ⟨.error e, mid, mid', bind_of_error h, bind_of_error h', hmid⟩

theorem look (name : String) : Renames ρ (look name) (look (ρ.var name)) := by
  intro m m' hm
  have hv := hm.vars.found name
  unfold Run.look
  cases h : m.vars.find? name with
  | none =>
    rw [h] at hv
    exact .inr ⟨.error (.undefinedVariable name), m, m', rfl, by rw [hv]; rfl, hm⟩
  | some v =>
    rw [h] at hv
    exact .inr ⟨.ok v, m, m', rfl, by rw [hv]; rfl, hm⟩

theorem modify {f g : Machine → Machine} (h : ∀ m m', Renamed ρ m m' → Renamed ρ (f m) (g m')) :
    Renames ρ (modify f) (modify g) :=
  fun m m' hm => .inr ⟨.ok (), f m, g m', rfl, rfl, h m m' hm⟩

theorem note (e e' : Event) : Renames ρ (note e) (note e') :=
  modify fun _ _ hm => ⟨hm.output, hm.depth, hm.limit, hm.vars, hm.functions⟩

theorem assign (name : String) (value : Value) :
    Renames ρ (assign name value) (assign (ρ.var name) value) :=
  modify fun _ _ hm => ⟨hm.output, hm.depth, hm.limit, hm.vars.insert ρ.var_injective name value,
    hm.functions⟩

theorem print (value : Value) : Renames ρ (print value) (print value) :=
  modify fun m m' hm => ⟨by rw [hm.output], hm.depth, hm.limit, hm.vars, hm.functions⟩

theorem declare (name : String) (f : Function) :
    Renames ρ (declare name f) (declare (ρ.function name) (f.rename ρ)) :=
  bind (note _ _) fun _ => modify fun _ _ hm => ⟨hm.output, hm.depth, hm.limit, hm.vars,
    hm.functions.insert ρ.function_injective name f⟩

theorem invoke {run run' : Block → Run Flow} {bindAll bindAll' : List String → Run Unit}
    (hrun : ∀ b : Block, Renames ρ (run b) (run' (b.rename ρ)))
    (hbind : ∀ params, Renames ρ (bindAll params) (bindAll' (params.map ρ.var))) (name : String)
    (count : Nat) :
    Renames ρ (invoke run name count bindAll) (invoke run' (ρ.function name) count bindAll') := by
  intro m m' hm
  have hc := hm.callee name count
  cases hf : m.callee name count with
  | error e =>
    rw [hf] at hc
    exact .inr ⟨.error e, m, m', invoke_of_error hf, invoke_of_error hc, hm⟩
  | ok f =>
    rw [hf] at hc
    have hbody := (hbind f.params).bind fun _ => hrun f.body
    rw [invoke_of_callee hf, invoke_of_callee hc]
    rcases hbody _ _ (hm.enter name (ρ.function name)) with
      ⟨h, h'⟩ | ⟨r, mid, mid', h, h', hmid⟩
    · exact .inl ⟨by rw [h]; rfl, by rw [Function.rename, h']; rfl⟩
    · refine .inr ⟨r.map Flow.value?, mid.leave m, mid'.leave m', by rw [h]; rfl, ?_, hm.leave hmid⟩
      rw [Function.rename, h']
      cases r <;> rfl

variable {test test' : Run Bool} {init init' body body' step step' : Run Flow}

theorem loop {next next' : Run Unit} (ht : Renames ρ test test') (hb : Renames ρ body body')
    (hs : Renames ρ next next') (rounds : Nat) :
    Renames ρ (loop test body next rounds) (loop test' body' next' rounds) := by
  induction rounds with
  | zero => exact unfinished
  | succ rounds ih =>
    apply bind ht
    intro more
    cases more with
    | false => exact pure _
    | true =>
      apply bind hb
      intro flow
      cases flow with
      | normal => exact bind hs fun _ => ih
      | ret v => exact pure _

theorem countedLoop (hi : Renames ρ init init') (ht : Renames ρ test test')
    (hb : Renames ρ body body') (hs : Renames ρ step step') (rounds : Nat) :
    Renames ρ (countedLoop init test body step rounds)
      (countedLoop init' test' body' step' rounds) := by
  apply bind hi
  intro flow
  cases flow with
  | normal => exact loop ht hb (bind hs fun _ => pure ()) rounds
  | ret v => exact pure _

end Run.Renames

/-- Operators know no names, and their errors hold none. -/
theorem rename_combine_error {op : Operator} {a b : Value} {e : RunError}
    (h : Value.combine op a b = .error e) : e.rename ρ = e := by
  rcases Value.combine_error h with ⟨-, rfl⟩ | ⟨-, rfl | ⟨rfl, -⟩ | ⟨-, _, -, rfl⟩⟩ <;> rfl

theorem rename_compare_error {op : Operator} {a b : Integer} {e : RunError}
    (h : Integer.compare op a b = .error e) : e.rename ρ = e := by
  rw [(Integer.compare_error h).1]
  rfl

theorem rename_asInteger_error {context : String} {v : Value} {e : RunError}
    (h : v.asInteger context = .error e) : e.rename ρ = e := by
  rw [Value.asInteger_error h]
  rfl

section

open Run (Renames)

variable {run run' : Block → Run Flow}

mutual

theorem evalWith_renames (hrun : ∀ b : Block, Renames ρ (run b) (run' (b.rename ρ))) (e : Expr) :
    Renames ρ (evalWith run e) (evalWith run' (e.rename ρ)) := by
  match e with
  | .number text =>
    rw [Expr.rename, evalWith, evalWith]
    split
    · exact .pure _
    · exact .fail _
  | .string text =>
    rw [Expr.rename, evalWith, evalWith]
    exact .pure _
  | .var name =>
    rw [Expr.rename, evalWith, evalWith]
    exact .look name
  | .binary op left right =>
    rw [Expr.rename, evalWith, evalWith]
    exact .bind (evalWith_renames hrun left) fun a => .bind (evalWith_renames hrun right) fun b =>
      .ofExcept fun _ h => rename_combine_error h
  | .call name args =>
    rw [Expr.rename, evalWith, evalWith, Expr.length_renameAll]
    apply Renames.bind (.invoke hrun (fun params => bindWith_renames hrun params args) name _)
    intro v
    cases v with
    | some v => exact .pure v
    | none => exact .fail (.missingValue name)

theorem bindWith_renames (hrun : ∀ b : Block, Renames ρ (run b) (run' (b.rename ρ)))
    (params : List String) (args : List Expr) :
    Renames ρ (bindWith run params args)
      (bindWith run' (params.map ρ.var) (Expr.renameAll ρ args)) := by
  match args, params with
  | [], _ =>
    rw [Expr.renameAll, bindWith, bindWith]
    exact .pure ()
  | _ :: _, [] =>
    rw [Expr.renameAll, List.map_nil, bindWith, bindWith]
    exact .pure ()
  | arg :: args, param :: params =>
    rw [Expr.renameAll, List.map_cons, bindWith, bindWith]
    exact .bind (evalWith_renames hrun arg) fun v => .bind (.assign param v) fun _ =>
      bindWith_renames hrun params args

end

theorem testWith_renames (hrun : ∀ b : Block, Renames ρ (run b) (run' (b.rename ρ)))
    (c : Condition) : Renames ρ (testWith run c) (testWith run' (c.rename ρ)) := by
  apply Renames.bind (evalWith_renames hrun c.left)
  intro left
  apply Renames.bind (.ofExcept fun _ h => rename_asInteger_error h)
  intro a
  apply Renames.bind (evalWith_renames hrun c.right)
  intro right
  apply Renames.bind (.ofExcept fun _ h => rename_asInteger_error h)
  intro b
  exact .ofExcept fun _ h => rename_compare_error h

mutual

theorem execWith_renames (hrun : ∀ b : Block, Renames ρ (run b) (run' (b.rename ρ)))
    (rounds : Nat) (s : Stmt) :
    Renames ρ (execWith run rounds s) (execWith run' rounds (s.rename ρ)) := by
  match s with
  | .declare name e | .assign name e =>
    rw [Stmt.rename, execWith, execWith]
    exact .bind (.note _ _) fun _ => .bind (evalWith_renames hrun e) fun v =>
      .bind (.assign name v) fun _ => .pure _
  | .print e =>
    rw [Stmt.rename, execWith, execWith]
    exact .bind (.note _ _) fun _ => .bind (evalWith_renames hrun e) fun v =>
      .bind (.print v) fun _ => .pure _
  | .cond c yes none =>
    rw [Stmt.rename, execWith, execWith]
    apply Renames.bind (.note _ _)
    intro _
    apply Renames.bind (testWith_renames hrun c)
    intro b
    cases b with
    | true => exact execAllWith_renames hrun rounds yes
    | false => exact .pure _
  | .cond c yes (some no) =>
    rw [Stmt.rename, execWith, execWith]
    apply Renames.bind (.note _ _)
    intro _
    apply Renames.bind (testWith_renames hrun c)
    intro b
    cases b with
    | true => exact execAllWith_renames hrun rounds yes
    | false => exact execAllWith_renames hrun rounds no
  | .whileLoop c body =>
    rw [Stmt.rename, execWith, execWith]
    exact .bind (.note _ _) fun _ => .loop (testWith_renames hrun c)
      (execAllWith_renames hrun rounds body) (.pure ()) rounds
  | .forLoop init c step body =>
    rw [Stmt.rename, execWith, execWith]
    exact .bind (.note _ _) fun _ => .countedLoop (execWith_renames hrun rounds init)
      (testWith_renames hrun c) (execAllWith_renames hrun rounds body)
      (execWith_renames hrun rounds step) rounds
  | .function name params body =>
    rw [Stmt.rename, execWith, execWith]
    exact .bind (.note _ _) fun _ => .bind (.declare name ⟨params, body⟩) fun _ => .pure _
  | .ret e =>
    rw [Stmt.rename, execWith, execWith]
    exact .bind (.note _ _) fun _ => .bind (evalWith_renames hrun e) fun v => .pure _

theorem execAllWith_renames (hrun : ∀ b : Block, Renames ρ (run b) (run' (b.rename ρ)))
    (rounds : Nat) (b : List Stmt) :
    Renames ρ (execAllWith run rounds b) (execAllWith run' rounds (Stmt.renameAll ρ b)) := by
  match b with
  | [] =>
    rw [Stmt.renameAll, execAllWith, execAllWith]
    exact .pure _
  | s :: ss =>
    rw [Stmt.renameAll, execAllWith, execAllWith]
    apply Renames.bind (execWith_renames hrun rounds s)
    intro flow
    cases flow with
    | normal => exact execAllWith_renames hrun rounds ss
    | ret v => exact .pure _

end

theorem execBlock_renames (n : Nat) (b : Block) :
    Renames ρ (execBlock n b) (execBlock n (b.rename ρ)) := by
  induction n generalizing b with
  | zero => exact .unfinished
  | succ n ih => exact execAllWith_renames ih n b

theorem runProgram_renames (n : Nat) (b : Block) :
    Renames ρ (runProgram n b) (runProgram n (b.rename ρ)) := by
  apply Renames.bind (.note _ _)
  intro _
  apply Renames.bind (execBlock_renames n b)
  intro flow
  cases flow with
  | normal => exact .pure ()
  | ret v => exact .fail .returnOutsideFunction

end

/-- A program and its renamed copy, each on a new machine, both end or neither does. If they end,
they have printed the same, and the results and the stores differ in the names only. -/
theorem names_are_opaque (ρ : Renaming) (b : Block) (n limit : Nat) :
    (runProgram n b (.start limit) = none ∧ runProgram n (b.rename ρ) (.start limit) = none) ∨
      ∃ r m m', runProgram n b (.start limit) = some (r, m) ∧
        runProgram n (b.rename ρ) (.start limit) =
          some (r.mapError (RunError.rename ρ), m') ∧ Renamed ρ m m' :=
  runProgram_renames n b _ _ (.start limit)

/-- A variable, a function and both of its parameters are called `x`, and the function replaces
itself by one that gives nothing back. Variables and functions are renamed differently. -/
theorem names_are_opaque_shared :
    let b : Block :=
      [.declare "x" (.number "1"),
        .function "x" ["x", "x"] [.print (.var "x"), .function "x" [] [.print (.var "x")],
          .assign "y" (.call "x" [])],
        .print (.call "x" [.number "2", .binary .add (.var "x") (.var "x")])]
    let ρ : Renaming :=
      { var := fun name => name ++ "1"
        function := fun name => "g" ++ name
        var_injective := fun _ _ h => (String.append_left_inj "1").mp h
        function_injective := fun _ _ h => (String.append_right_inj "g").mp h }
    ∃ m m', runProgram 3 b (.start 2) = some (.error (.missingValue "x"), m) ∧
      m.output = "4\n4\n" ∧
      runProgram 3 (b.rename ρ) (.start 2) = some (.error (.missingValue "gx"), m') ∧
      Renamed ρ m m' := by
  intro b ρ
  obtain ⟨m, h, hout⟩ : ∃ m, runProgram 3 b (.start 2) = some (.error (.missingValue "x"), m) ∧
      m.output = "4\n4\n" := ⟨_, rfl, by decide +kernel⟩
  rcases names_are_opaque ρ b 3 2 with ⟨hnone, -⟩ | ⟨r, m₁, m', h₁, h', hm⟩
  · rw [hnone] at h
    cases h
  · rw [h₁] at h
    cases h
    exact ⟨m, m', h₁, hout, h', hm⟩

end Bhasha
