import Bhasha.Proofs.Machine.Steps
import Bhasha.Proofs.Program.Nodes

/-! Whether a block can go on to what follows it, and whether it can give back a value, is seen from
its tree (`execBlock_flow`). -/

namespace Bhasha

variable {α β : Type}

mutual
/-- No way through the statement goes on to the next one. A loop need not go round, and what the
step of a counted loop gives back is dropped. -/
def Stmt.alwaysReturns : Stmt → Bool
  | .ret _ => true
  | .cond _ yes (some no) => Stmt.anyReturns yes && Stmt.anyReturns no
  | .forLoop init _ _ _ => init.alwaysReturns
  | .cond _ _ none | .whileLoop .. | .declare .. | .assign .. | .print _ | .function .. => false
termination_by structural s => s

def Stmt.anyReturns : List Stmt → Bool
  | [] => false
  | s :: ss => s.alwaysReturns || Stmt.anyReturns ss
termination_by structural ss => ss
end

/-- One of the statements of the block is a return, or returns in all its branches. -/
def Block.alwaysReturns (b : Block) : Bool := Stmt.anyReturns b

/-- How a tree can end that returns always or not and has these nodes. -/
def MayEnd (returns : Bool) (nodes : List Node) : Flow → Prop
  | .normal => returns = false
  | .ret _ => ∃ e, .stmt (.ret e) ∈ nodes

theorem MayEnd.mono {returns returns' : Bool} {nodes nodes' : List Node} {flow : Flow}
    (h : MayEnd returns nodes flow) (hr : returns = false → returns' = false)
    (hn : nodes ⊆ nodes') : MayEnd returns' nodes' flow := by
  cases flow with
  | normal => exact hr h
  | ret v =>
    obtain ⟨e, he⟩ := h
    exact ⟨e, hn he⟩

/-- Whatever the computation results in without an error has the property. -/
def Run.Gives (p : α → Prop) (x : Run α) : Prop := ∀ m a m', x m = some (.ok a, m') → p a

namespace Run.Gives

variable {p : α → Prop} {q : β → Prop}

theorem mono {p' : α → Prop} {x : Run α} (hx : x.Gives p) (h : ∀ a, p a → p' a) : x.Gives p' :=
  fun m a m' ha => h a (hx m a m' ha)

theorem pure {a : α} (h : p a) : (pure a : Run α).Gives p := by
  intro m b m' hb
  cases hb
  exact h

theorem bind {x : Run α} {f : α → Run β} (hx : x.Gives p) (hf : ∀ a, p a → (f a).Gives q) :
    (x >>= f).Gives q := by
  intro m b m' h
  rcases bind_cases h with ⟨a, mid, ha, h⟩ | ⟨e, -, he⟩
  · exact hf a (hx m a mid ha) mid b m' h
  · cases he

/-- Nothing is asked of the first of two computations. -/
theorem andThen {x : Run α} {f : α → Run β} (hf : ∀ a, (f a).Gives q) : (x >>= f).Gives q :=
  bind (p := fun _ => True) (fun _ _ _ _ => trivial) fun a _ => hf a

theorem loop {p : Flow → Prop} {test : Run Bool} {body : Run Flow} {step : Run Unit}
    (hn : p .normal) (hb : body.Gives fun flow => flow ≠ .normal → p flow) (rounds : Nat) :
    (loop test body step rounds).Gives p := by
  induction rounds with
  | zero =>
    intro m a m' h
    cases h
  | succ rounds ih =>
    refine andThen fun more => ?_
    cases more with
    | false => exact pure hn
    | true =>
      refine bind hb fun flow hflow => ?_
      cases flow with
      | normal => exact andThen fun _ => ih
      | ret v => exact pure (hflow nofun)

end Run.Gives

variable {run : Block → Run Flow} {rounds : Nat}

mutual

theorem execWith_flow (s : Stmt) :
    (execWith run rounds s).Gives (MayEnd s.alwaysReturns (s.nodes false)) := by
  match s with
  | .declare name e | .assign name e | .print e =>
    rw [execWith]
    exact .andThen fun _ => .andThen fun _ => .andThen fun _ => .pure rfl
  | .cond c yes none =>
    rw [execWith]
    refine .andThen fun _ => .andThen fun b => ?_
    cases b with
    | true =>
      refine (execAllWith_flow yes).mono fun flow h => ?_
      exact h.mono (fun _ => rfl) fun x hx => by simp [Stmt.nodes, hx]
    | false => exact .pure rfl
  | .cond c yes (some no) =>
    rw [execWith]
    refine .andThen fun _ => .andThen fun b => ?_
    cases b with
    | true =>
      refine (execAllWith_flow yes).mono fun flow h => ?_
      exact h.mono (fun hr => by simp [Stmt.alwaysReturns, hr]) fun x hx => by
        simp [Stmt.nodes, hx]
    | false =>
      refine (execAllWith_flow no).mono fun flow h => ?_
      exact h.mono (fun hr => by simp [Stmt.alwaysReturns, hr]) fun x hx => by
        simp [Stmt.nodes, hx]
  | .whileLoop c body =>
    rw [execWith]
    refine .andThen fun _ => .loop ?_ ((execAllWith_flow body).mono fun flow h _ => ?_) rounds
    · exact rfl
    · exact h.mono (fun _ => rfl) fun x hx => by simp [Stmt.nodes, hx]
  | .forLoop init c step body =>
    rw [execWith]
    refine .andThen fun _ => .bind (execWith_flow init) fun flow hinit => ?_
    cases flow with
    | normal =>
      refine .loop ?_ ((execAllWith_flow body).mono fun flow h _ => ?_) rounds
      · exact hinit
      · exact h.mono (fun _ => hinit) fun x hx => by simp [Stmt.nodes, hx]
    | ret v => exact .pure (hinit.mono id fun x hx => by simp [Stmt.nodes, hx])
  | .function name params body =>
    rw [execWith]
    exact .andThen fun _ => .andThen fun _ => .pure rfl
  | .ret e =>
    rw [execWith]
    exact .andThen fun _ => .andThen fun _ => .pure ⟨e, by simp [Stmt.nodes]⟩

theorem execAllWith_flow (b : List Stmt) :
    (execAllWith run rounds b).Gives (MayEnd (Stmt.anyReturns b) (Stmt.allNodes false b)) := by
  match b with
  | [] =>
    rw [execAllWith]
    exact .pure rfl
  | s :: ss =>
    rw [execAllWith]
    refine .bind (execWith_flow s) fun flow hs => ?_
    cases flow with
    | normal =>
      have hs : s.alwaysReturns = false := hs
      refine (execAllWith_flow ss).mono fun flow h => ?_
      exact h.mono (fun hr => by simp [Stmt.anyReturns, hs, hr]) fun x hx => by
        simp [Stmt.allNodes, hx]
    | ret v =>
      obtain ⟨e, he⟩ := hs
      exact .pure ⟨e, by simp [Stmt.allNodes, he]⟩

end

theorem execBlock_flow (n : Nat) (b : Block) :
    (execBlock n b).Gives (MayEnd b.alwaysReturns b.ownNodes) := by
  cases n with
  | zero =>
    intro m a m' h
    cases h
  | succ n => exact execAllWith_flow b

end Bhasha
