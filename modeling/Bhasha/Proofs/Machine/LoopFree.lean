import Bhasha.Proofs.Machine.Bounds

/-! A program without loops always ends. Functions may call each other in any way and be declared
anew while they run; each call still takes one of the finitely many levels that the limit leaves,
and within a level evaluation goes down in the tree (`Run.Completes`). -/

namespace Bhasha

mutual
def Stmt.loopFree : Stmt → Bool
  | .cond _ yes no =>
    Stmt.allLoopFree yes &&
      match no with
      | none => true
      | some no => Stmt.allLoopFree no
  | .whileLoop .. | .forLoop .. => false
  | .function _ _ body => Stmt.allLoopFree body
  | .declare .. | .assign .. | .print _ | .ret _ => true
termination_by structural s => s

def Stmt.allLoopFree : List Stmt → Bool
  | [] => true
  | s :: ss => s.loopFree && Stmt.allLoopFree ss
termination_by structural ss => ss
end

/-- No loop at any nesting, bodies of declared functions included. -/
def Block.loopFree (b : Block) : Bool := Stmt.allLoopFree b

/-- The bodies of all known functions are free of loops. -/
def Machine.LoopFree (m : Machine) : Prop :=
  ∀ name f, m.functions.find? name = some f → Block.loopFree f.body = true

theorem Machine.LoopFree.declare {m : Machine} {f : Function} (hm : m.LoopFree)
    (hf : Block.loopFree f.body = true) (name : String) :
    Machine.LoopFree { m with functions := m.functions.insert name f } :=
  Store.forall_insert hm hf

/-- Where the limit leaves at most `k` more levels of calls, the computation finishes, at the depth
and under the limit that it began with. -/
def Run.Completes {α : Type} (k : Nat) (x : Run α) : Prop :=
  ∀ m : Machine, m.LoopFree → m.limit ≤ m.depth + k →
    ∃ r m', x m = some (r, m') ∧ m'.LoopFree ∧ m'.depth = m.depth ∧ m'.limit = m.limit

namespace Run.Completes

variable {α β : Type} {j k : Nat}

theorem mono {x : Run α} (h : j ≤ k) (hx : x.Completes k) : x.Completes j :=
  fun m hm hj => hx m hm (by omega)

theorem bind {x : Run α} {f : α → Run β} (hx : x.Completes k) (hf : ∀ a, (f a).Completes k) :
    (x >>= f).Completes k := by
  intro m hm hk
  obtain ⟨r, mid, h, hmid, hd, hl⟩ := hx m hm hk
  cases r with
  | error e => exact ⟨.error e, mid, bind_of_error h, hmid, hd, hl⟩
  | ok a =>
    obtain ⟨r, m', h', hm', hd', hl'⟩ := hf a mid hmid (by rw [hd, hl]; exact hk)
    exact ⟨r, m', (bind_of_ok h).trans h', hm', hd'.trans hd, hl'.trans hl⟩

theorem ofExcept (r : Except RunError α) : (ofExcept r).Completes k :=
  fun m hm _ => ⟨r, m, rfl, hm, rfl, rfl⟩

theorem pure (a : α) : (pure a : Run α).Completes k := .ofExcept (.ok a)

theorem look (name : String) : (look name).Completes k := by
  intro m hm _
  unfold Run.look
  split
  · exact ⟨_, m, rfl, hm, rfl, rfl⟩
  · exact ⟨_, m, rfl, hm, rfl, rfl⟩

theorem modify {f : Machine → Machine} (hf : ∀ m, m.LoopFree → (f m).LoopFree)
    (hd : ∀ m, (f m).depth = m.depth) (hl : ∀ m, (f m).limit = m.limit) :
    (modify f).Completes k :=
  fun m hm _ => ⟨.ok (), f m, rfl, hf m hm, hd m, hl m⟩

/-- A call that is entered leaves one level less to the body. -/
theorem invoke {run : Block → Run Flow} {bindAll : List String → Run Unit}
    (hrun : 0 < k → ∀ b, Block.loopFree b = true → (run b).Completes (k - 1))
    (hbind : ∀ params, (bindAll params).Completes k) (name : String) (count : Nat) :
    (invoke run name count bindAll).Completes k := by
  intro m hm hk
  cases hc : m.callee name count with
  | error e => exact ⟨.error e, m, invoke_of_error hc, hm, rfl, rfl⟩
  | ok f =>
    obtain ⟨hf, -, hlt⟩ := Machine.callee_eq_ok.mp hc
    have hbody : (bindAll f.params >>= fun _ => run f.body).Completes (k - 1) :=
      ((hbind f.params).mono (Nat.sub_le k 1)).bind fun _ => hrun (by omega) f.body (hm name f hf)
    have hk' : m.limit ≤ (m.enter name).depth + (k - 1) := by
      simp only [Machine.enter]
      omega
    obtain ⟨r, mid, h, hmid, hd, hl⟩ := hbody (m.enter name) hm hk'
    refine ⟨r.map Flow.value?, mid.leave m, invoke_of_ok hc h, hmid, ?_, hl⟩
    rw [Machine.leave, hd]
    rfl

end Run.Completes

variable {k rounds : Nat} {run : Block → Run Flow}

theorem compatible_completes
    (hrun : 0 < k → ∀ b, Block.loopFree b = true → (run b).Completes (k - 1)) :
    Compatible (fun x _ => x.Completes k) (fun x _ => x.Completes k) run run where
  weaken := id
  ofExcept := .ofExcept
  look := .look
  bind := .bind
  bindG := .bind
  assign _ _ := .modify (fun _ hm => hm) (fun _ => rfl) fun _ => rfl
  invoke name count hbind := .invoke hrun hbind name count

theorem completes_note (e : Event) : (Run.note e).Completes k :=
  .modify (fun _ hm => hm) (fun _ => rfl) fun _ => rfl

mutual

theorem execWith_completes
    (hc : Compatible (fun x _ => x.Completes k) (fun x _ => x.Completes k) run run) (s : Stmt)
    (hs : s.loopFree = true) : (execWith run rounds s).Completes k :=
  match s with
  | .declare name e | .assign name e => by
    rw [execWith]
    exact .bind (completes_note _) fun _ => .bind (hc.evalWith e) fun v =>
      .bind (hc.assign name v) fun _ => .pure _
  | .print e => by
    rw [execWith]
    exact .bind (completes_note _) fun _ => .bind (hc.evalWith e) fun v =>
      .bind (.modify (fun _ hm => hm) (fun _ => rfl) fun _ => rfl) fun _ => .pure _
  | .cond c yes none => by
    simp only [Stmt.loopFree, Bool.and_true] at hs
    rw [execWith]
    refine .bind (completes_note _) fun _ => .bind (hc.testWith c) fun b => ?_
    cases b with
    | true => exact execAllWith_completes hc yes hs
    | false => exact .pure _
  | .cond c yes (some no) => by
    simp only [Stmt.loopFree, Bool.and_eq_true] at hs
    rw [execWith]
    refine .bind (completes_note _) fun _ => .bind (hc.testWith c) fun b => ?_
    cases b with
    | true => exact execAllWith_completes hc yes hs.1
    | false => exact execAllWith_completes hc no hs.2
  | .whileLoop .. | .forLoop .. => by cases hs
  | .function name params body => by
    have hbody : Block.loopFree (Function.mk params body).body = true := hs
    rw [execWith]
    exact .bind (completes_note _) fun _ => .bind (.bind (completes_note _) fun _ =>
      .modify (fun m hm => hm.declare hbody name) (fun _ => rfl) fun _ => rfl) fun _ => .pure _
  | .ret e => by
    rw [execWith]
    exact .bind (completes_note _) fun _ => .bind (hc.evalWith e) fun v => .pure _

theorem execAllWith_completes
    (hc : Compatible (fun x _ => x.Completes k) (fun x _ => x.Completes k) run run) (b : List Stmt)
    (hb : Stmt.allLoopFree b = true) : (execAllWith run rounds b).Completes k :=
  match b with
  | [] => by rw [execAllWith]; exact .pure _
  | s :: ss => by
    rw [Stmt.allLoopFree, Bool.and_eq_true] at hb
    rw [execAllWith]
    refine .bind (execWith_completes hc s hb.1) fun flow => ?_
    cases flow with
    | normal => exact execAllWith_completes hc ss hb.2
    | ret v => exact .pure _

end

/-- With no level left every call is refused, and a bound of 1 is enough. -/
theorem execBlock_completes (k : Nat) (b : Block) (hb : b.loopFree = true) :
    (execBlock (k + 1) b).Completes k := by
  induction k generalizing b with
  | zero => exact execAllWith_completes (compatible_completes fun h => by cases h) b hb
  | succ k ih =>
    have hc := compatible_completes (k := k + 1) fun _ => ih
    exact execAllWith_completes hc b hb

theorem runProgram_completes (k : Nat) (b : Block) (hb : b.loopFree = true) :
    (runProgram (k + 1) b).Completes k := by
  refine .bind (completes_note _) fun _ => .bind (execBlock_completes k b hb) fun flow => ?_
  cases flow with
  | normal => exact .pure ()
  | ret v => exact .ofExcept (.error .returnOutsideFunction)

/-- A program without loops ends, with a result or an error, whatever functions call each other, as
soon as the bound exceeds the levels of calls that the limit leaves. -/
theorem loopFree_run_ends (b : Block) (hb : b.loopFree = true) (m : Machine) (hm : m.LoopFree) :
    ∃ r m', ∀ n, m.limit - m.depth < n → runProgram n b m = some (r, m') := by
  obtain ⟨r, m', h, -⟩ := runProgram_completes (m.limit - m.depth) b hb m hm (by omega)
  exact ⟨r, m', fun n hn => runProgram_extends hn b m r m' h⟩

/-- A function that replaces a known one while it runs, calls the new one in an argument of itself
and is called back by it. -/
theorem loopFree_run_ends_mutual :
    let b : Block :=
      [.function "f" ["n"]
          [.function "g" ["n"] [.print (.var "n"), .ret (.call "f" [.var "n"])],
            .ret (.call "g" [.call "g" [.var "n"]])],
        .print (.call "g" [.number "1"])]
    let g : Function := ⟨["n"], [.ret (.call "f" [.var "n"])]⟩
    let m : Machine := { Machine.start 4 with functions := Store.empty.insert "g" g }
    b.loopFree = true ∧ m.LoopFree ∧
      ∃ r m', ∀ n, 4 < n → runProgram n b m = some (r, m') := by
  intro b g m
  have hstart : (Machine.start 4).LoopFree := by
    rintro name f ⟨⟩
  have hm : m.LoopFree := hstart.declare rfl "g"
  exact ⟨rfl, hm, loopFree_run_ends b rfl m hm⟩

end Bhasha
