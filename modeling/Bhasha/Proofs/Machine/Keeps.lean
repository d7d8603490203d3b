import Bhasha.Proofs.Machine.Compatible

/-! What every run keeps follows from what each step of the machine keeps. A `Kept` pair of
relations says what evaluation and what execution may do to the machine; if the single steps and
the return from a call respect it, so does whatever finishes, with a value or an error
(`Kept.evalWith`, `Kept.execBlock`). -/

namespace Bhasha

variable {α β : Type} {E G R : Machine → Machine → Prop}

/-- However the computation finishes, the state before and the state after are related. -/
def Run.Keeps (R : Machine → Machine → Prop) (x : Run α) : Prop :=
  ∀ m r m', x m = some (r, m') → R m m'

namespace Run.Keeps

theorem mono {x : Run α} (hx : x.Keeps E) (h : ∀ {m m'}, E m m' → G m m') : x.Keeps G :=
  fun m r m' hm => h (hx m r m' hm)

theorem bind {x : Run α} {f : α → Run β} (ht : ∀ {a b c}, R a b → R b c → R a c)
    (hx : x.Keeps R) (hf : ∀ a, (f a).Keeps R) : (x >>= f).Keeps R := by
  intro m r m' hm
  rcases bind_cases hm with ⟨a, mid, h, hm⟩ | ⟨e, h, -⟩
  · exact ht (hx m _ mid h) (hf a mid r m' hm)
  · exact hx m _ _ h

theorem ofExcept (hr : ∀ m, R m m) (r : Except RunError α) : (ofExcept r).Keeps R := by
  rintro m _ _ ⟨⟩
  exact hr m

theorem look (hr : ∀ m, R m m) (name : String) : (look name).Keeps R := by
  intro m r m' h
  unfold Run.look at h
  split at h <;> cases h <;> exact hr m

theorem unfinished : (unfinished : Run α).Keeps R := by
  rintro m r m' ⟨⟩

theorem modify {f : Machine → Machine} (h : ∀ m, R m (f m)) : (modify f).Keeps R := by
  rintro m _ _ ⟨⟩
  exact h m

end Run.Keeps

/-- What evaluation (`E`) and execution (`G`) may do to the machine. -/
structure Kept (E G : Machine → Machine → Prop) : Prop where
  refl : ∀ m, E m m
  trans : ∀ {a b c}, E a b → E b c → E a c
  weaken : ∀ {a b}, E a b → G a b
  transG : ∀ {a b c}, G a b → G b c → G a c
  note : ∀ m e, G m { m with events := e :: m.events }
  assign : ∀ m name value, G m { m with vars := m.vars.insert name value }
  print : ∀ m text, G m { m with output := m.output ++ text }
  declare : ∀ m name f, G m { m with functions := m.functions.insert name f }
  /-- A call may do to its own state what execution may do, and is then left. -/
  call : ∀ {m m' name}, m.depth < m.limit → G (m.enter name) m' → E m (m'.leave m)

namespace Kept

open Run (Keeps)

variable {run : Block → Run Flow}

theorem invoke (h : Kept E G) (hrun : ∀ b, (run b).Keeps G) (name : String) (count : Nat)
    {bindAll : List String → Run Unit} (hbind : ∀ params, (bindAll params).Keeps G) :
    (invoke run name count bindAll).Keeps E := by
  intro m r m' hm
  rcases invoke_cases hm with ⟨e, -, -, rfl⟩ | ⟨f, result, mid, hf, hb, -, rfl⟩
  · exact h.refl m'
  · have hbody : (bindAll f.params >>= fun _ => run f.body).Keeps G :=
      .bind h.transG (hbind f.params) fun _ => hrun f.body
    exact h.call (Machine.callee_eq_ok.mp hf).2.2 (hbody _ _ _ hb)

theorem compatible (h : Kept E G) (hrun : ∀ b, (run b).Keeps G) (run' : Block → Run Flow) :
    Compatible (fun x _ => x.Keeps E) (fun x _ => x.Keeps G) run run' where
  weaken hx := hx.mono h.weaken
  ofExcept r := .ofExcept h.refl r
  look name := .look h.refl name
  bind hx hf := hx.bind h.trans hf
  bindG hx hf := hx.bind h.transG hf
  assign name value := .modify fun m => h.assign m name value
  invoke name count hbind := h.invoke hrun name count hbind

theorem congruence (h : Kept E G) :
    Congruence (fun x _ => x.Keeps E) (fun x _ => x.Keeps G) where
  compatible hrun := h.compatible hrun _
  unfinished := .unfinished
  cutOff _ := .unfinished
  note e := .modify fun m => h.note m e
  print _ := .modify fun m => h.transG (h.print m _) (h.print _ _)
  declare name f :=
    .bind h.transG (.modify fun m => h.note m _) fun _ => .modify fun m => h.declare m name f

theorem evalWith (h : Kept E G) (hrun : ∀ b, (run b).Keeps G) (e : Expr) :
    (evalWith run e).Keeps E :=
  (h.compatible hrun run).evalWith e

theorem bindWith (h : Kept E G) (hrun : ∀ b, (run b).Keeps G) (params : List String)
    (args : List Expr) : (bindWith run params args).Keeps G :=
  (h.compatible hrun run).bindWith params args

theorem testWith (h : Kept E G) (hrun : ∀ b, (run b).Keeps G) (c : Condition) :
    (testWith run c).Keeps E :=
  (h.compatible hrun run).testWith c

theorem execBlock (h : Kept E G) (n : Nat) (b : Block) : (execBlock n b).Keeps G :=
  h.congruence.execBlock (Nat.le_refl n) b

end Kept

end Bhasha
