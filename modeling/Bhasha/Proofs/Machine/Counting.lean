import Bhasha.Proofs.Machine.Rounds
import Bhasha.Proofs.Machine.Writes
import Bhasha.Proofs.Value.Arithmetic

/-! A loop that counts a variable up goes round as often as there are numbers to count, whatever
its body calls. The variable lies in the one store that every function may write to, but what a
call wrote is gone when it ends, so only the step of the loop moves the variable on. -/

namespace Bhasha

/-- Counts the variable `i` up by one from `lo`, as long as it is below `hi`. -/
def countingLoop (i lo hi : String) (body : Block) : ForLoop where
  init := .declare i (.number lo)
  test := ⟨.var i, .less, .number hi⟩
  step := .assign i (.binary .add (.var i) (.number "1"))
  body := body

/-- The variable has this number for its value. -/
def Machine.Holds (m : Machine) (i : String) (x : Int) : Prop :=
  ∃ n : Integer, n.val = x ∧ m.vars.find? i = some (.int n)

section

variable {run : Block → Run Flow} {m : Machine}

theorem evalWith_number {text : String} {n : Integer} (h : Integer.parse? text = some n)
    (m : Machine) : evalWith run (.number text) m = some (.ok (.int n), m) := by
  rw [evalWith, h]
  rfl

theorem evalWith_var {name : String} {v : Value} (h : m.vars.find? name = some v) :
    evalWith run (.var name) m = some (.ok v, m) := by
  rw [evalWith]
  simp only [Run.look, h]

theorem combine_add {a b c : Integer} (h : c.val = a.val + b.val) :
    (Value.int a).combine .add (.int b) = .ok (.int c) := by
  have hadd : Integer.combine .add a b = .ok c := by
    have hexact : Integer.combine .add a b = Integer.checked .add (a.val + b.val) := rfl
    rw [hexact, ← h, Integer.checked_val]
  have hint : Value.Computes .add (.int a) (.int b) := ⟨by decide, by simp [Value.isStr]⟩
  rw [hint.combine_of_some (Integer.parse?_text a) (Integer.parse?_text b), hadd]
  rfl

/-- Such a statement writes the value of its expression. -/
theorem exec_write {s : Stmt} {i : String} {e : Expr} (hs : s = .declare i e ∨ s = .assign i e)
    {v : Value} (he : ∀ run m', m'.vars = m.vars → evalWith run e m' = some (.ok v, m')) (k : Nat) :
    exec k s m = some (.ok .normal,
      { m with vars := m.vars.insert i v, events := .executing s.kind :: m.events }) := by
  have hnoted := he (execBlock k) { m with events := .executing s.kind :: m.events } rfl
  rcases hs with rfl | rfl
  all_goals
    rw [exec, execWith]
    refine (Run.bind_of_ok rfl).trans ((Run.bind_of_ok hnoted).trans ?_)
    exact Run.bind_of_ok rfl

end

namespace countingLoop

variable {i lo hi : String} {a b : Integer} {body : Block} {m p s t : Machine} {x : Int} {k : Nat}

theorem exec_init (hlo : Integer.parse? lo = some a) (m : Machine) :
    ∃ p, p.Holds i a.val ∧ ∀ k, exec k (.declare i (.number lo)) m = some (.ok .normal, p) := by
  refine ⟨_, ⟨a, rfl, ?_⟩, exec_write (.inl rfl) fun run m' _ => evalWith_number hlo m'⟩
  rw [Store.find?_insert, if_pos rfl]

theorem test_eq (hhi : Integer.parse? hi = some b) (hx : p.Holds i x) (k : Nat) :
    test k ⟨.var i, .less, .number hi⟩ p = some (.ok (decide (x < b.val)), p) := by
  obtain ⟨n, rfl, hn⟩ := hx
  refine (Run.bind_of_ok (evalWith_var hn)).trans ((Run.bind_of_ok rfl).trans ?_)
  exact (Run.bind_of_ok (evalWith_number hhi p)).trans (Run.bind_of_ok rfl)

/-- The step cannot overflow where the variable is below another integer. -/
theorem exec_step (ht : t.Holds i x) (hx : x < b.val) : ∃ p, p.Holds i (x + 1) ∧
    ∀ k, exec k (.assign i (.binary .add (.var i) (.number "1"))) t = some (.ok .normal, p) := by
  obtain ⟨n, rfl, hn⟩ := ht
  let n' : Integer := ⟨n.val + 1, by have := n.lower; omega, by have := b.upper; omega⟩
  have hone : Integer.parse? "1" = some ⟨1, by decide, by decide⟩ := by decide +kernel
  have hadd : (Value.int n).combine .add (.int ⟨1, by decide, by decide⟩) = .ok (.int n') :=
    combine_add rfl
  refine ⟨_, ⟨n', rfl, ?_⟩, exec_write (.inr rfl) (v := .int n') fun run m' hvars => ?_⟩
  · rw [Store.find?_insert, if_pos rfl]
  · rw [evalWith]
    refine (Run.bind_of_ok (evalWith_var (hvars ▸ hn))).trans ?_
    refine (Run.bind_of_ok (evalWith_number hone m')).trans ?_
    rw [hadd]
    rfl

theorem passes_iff (hhi : Integer.parse? hi = some b) (hx : p.Holds i x) :
    (countingLoop i lo hi body).Passes p s ↔ x < b.val ∧ s = p := by
  have htest := test_eq hhi hx
  constructor
  · rintro ⟨k, hk⟩
    have hpass := (htest k).symm.trans hk
    simp only [Option.some.injEq, Prod.mk.injEq, Except.ok.injEq, decide_eq_true_eq] at hpass
    exact ⟨hpass.1, hpass.2.symm⟩
  · rintro ⟨hlt, rfl⟩
    exact ⟨0, by rw [← decide_eq_true hlt]; exact htest 0⟩

theorem holds_of_body (hbody : i ∉ body.writes) (hx : s.Holds i x) {r : Except RunError Flow}
    (hrun : Ends (execBlock · body) s r t) : t.Holds i x := by
  obtain ⟨n, hn, hfind⟩ := hx
  obtain ⟨k, hk⟩ := hrun
  exact ⟨n, hn, ((writesOnly_execBlock hk).same i hbody).trans hfind⟩

/-- One round moves the variable on by one. -/
theorem round_holds (hhi : Integer.parse? hi = some b) (hbody : i ∉ body.writes)
    (hx : p.Holds i x) (hround : (countingLoop i lo hi body).Round p t) :
    x < b.val ∧ t.Holds i (x + 1) := by
  obtain ⟨s, u, flow, hpass, hrun, ⟨k, hk⟩⟩ := hround
  obtain ⟨hlt, rfl⟩ := (passes_iff hhi hx).mp hpass
  obtain ⟨p', hp', hstep⟩ := exec_step (holds_of_body hbody hx hrun) hlt
  cases (hstep k).symm.trans hk
  exact ⟨hlt, hp'⟩

/-- Where the body goes on, there is such a round. -/
theorem exists_round (hhi : Integer.parse? hi = some b) (hbody : i ∉ body.writes)
    (hx : p.Holds i x) (hlt : x < b.val) (hrun : Ends (execBlock · body) p (.ok .normal) t) :
    ∃ p', (countingLoop i lo hi body).Round p p' := by
  obtain ⟨p', -, hstep⟩ := exec_step (holds_of_body hbody hx hrun) hlt
  exact ⟨p', p, t, .normal, (passes_iff hhi hx).mpr ⟨hlt, rfl⟩, hrun, 0, hstep 0⟩

theorem atTest_holds (hlo : Integer.parse? lo = some a) (hhi : Integer.parse? hi = some b)
    (hbody : i ∉ body.writes) (hk : (countingLoop i lo hi body).AtTest m k p) :
    p.Holds i (a.val + k) ∧ a.val + k ≤ max a.val b.val := by
  induction hk with
  | first hinit =>
    obtain ⟨p, hp, hexec⟩ := exec_init (i := i) hlo m
    obtain ⟨n, hn⟩ := hinit
    cases (hexec n).symm.trans hn
    exact ⟨by simpa using hp, by omega⟩
  | next _ hround ih =>
    obtain ⟨hlt, hnext⟩ := round_holds hhi hbody ih.1 hround
    rw [Int.natCast_succ, ← Int.add_assoc]
    exact ⟨hnext, by omega⟩

theorem starts_iff (hlo : Integer.parse? lo = some a) (hhi : Integer.parse? hi = some b)
    (hbody : i ∉ body.writes) : (countingLoop i lo hi body).Starts m k s ↔
      (countingLoop i lo hi body).AtTest m k s ∧ a.val + k < b.val := by
  constructor
  · rintro ⟨p, hk, hpass⟩
    obtain ⟨hlt, rfl⟩ := (passes_iff hhi (atTest_holds hlo hhi hbody hk).1).mp hpass
    exact ⟨hk, hlt⟩
  · rintro ⟨hk, hlt⟩
    exact ⟨s, hk, (passes_iff hhi (atTest_holds hlo hhi hbody hk).1).mpr ⟨hlt, rfl⟩⟩

/-- If the body always goes on, the loop comes to its test with every number up to the last one. -/
theorem exists_atTest (hlo : Integer.parse? lo = some a) (hhi : Integer.parse? hi = some b)
    (hbody : i ∉ body.writes)
    (hall : ∀ k s, (countingLoop i lo hi body).Starts m k s →
      ∃ t, Ends (execBlock · body) s (.ok .normal) t)
    (hk : k ≤ (b.val - a.val).toNat) : ∃ p, (countingLoop i lo hi body).AtTest m k p := by
  induction k with
  | zero =>
    obtain ⟨p, -, hexec⟩ := exec_init (i := i) hlo m
    exact ⟨p, .first ⟨0, hexec 0⟩⟩
  | succ k ih =>
    obtain ⟨p, hk'⟩ := ih (by omega)
    have hlt : a.val + k < b.val := by omega
    obtain ⟨t, ht⟩ := hall k p ((starts_iff hlo hhi hbody).mpr ⟨hk', hlt⟩)
    obtain ⟨p', hround⟩ := exists_round hhi hbody (atTest_holds hlo hhi hbody hk').1 hlt ht
    exact ⟨p', hk'.next hround⟩

/-- The loop leaves where it has counted to the end, or where the body makes it leave. Neither its
test nor its step can fail. -/
theorem leaves_cases (hhi : Integer.parse? hi = some b) (hbody : i ∉ body.writes)
    (hx : p.Holds i x) {r : Except RunError Flow} (hl : (countingLoop i lo hi body).Leaves p r m) :
    (r = .ok .normal ∧ m = p ∧ b.val ≤ x) ∨
      r ≠ .ok .normal ∧ (countingLoop i lo hi body).Passes p p ∧ Ends (execBlock · body) p r m := by
  have htest := test_eq hhi hx
  cases hl with
  | done ht =>
    obtain ⟨k, hk⟩ := ht
    have hdone := (htest k).symm.trans hk
    simp only [Option.some.injEq, Prod.mk.injEq, Except.ok.injEq, decide_eq_false_iff_not] at hdone
    exact .inl ⟨rfl, hdone.2.symm, Int.not_lt.mp hdone.1⟩
  | failed ht =>
    obtain ⟨k, hk⟩ := ht
    cases (htest k).symm.trans hk
  | left hpass hrun hne =>
    obtain ⟨-, rfl⟩ := (passes_iff hhi hx).mp hpass
    exact .inr ⟨hne, hpass, hrun⟩
  | stuck hpass hrun hstep =>
    obtain ⟨hlt, rfl⟩ := (passes_iff hhi hx).mp hpass
    obtain ⟨k, hk⟩ := hstep
    obtain ⟨p', -, hexec⟩ := exec_step (holds_of_body hbody hx hrun) hlt
    cases (hexec k).symm.trans hk

theorem leaves_of_le (hhi : Integer.parse? hi = some b) (hx : p.Holds i x) (hle : b.val ≤ x) :
    (countingLoop i lo hi body).Leaves p (.ok .normal) p :=
  .done ⟨0, by rw [← decide_eq_false (Int.not_lt.mpr hle)]; exact test_eq hhi hx 0⟩

/-- A body that always goes on starts once for each number. -/
theorem exists_starts_iff (hlo : Integer.parse? lo = some a) (hhi : Integer.parse? hi = some b)
    (hbody : i ∉ body.writes)
    (hall : ∀ k s, (countingLoop i lo hi body).Starts m k s →
      ∃ t, Ends (execBlock · body) s (.ok .normal) t) :
    (∃ s, (countingLoop i lo hi body).Starts m k s) ↔ (k : Int) < max 0 (b.val - a.val) := by
  constructor
  · rintro ⟨s, hs⟩
    have hlt := ((starts_iff hlo hhi hbody).mp hs).2
    omega
  · intro hk
    obtain ⟨p, hp⟩ := exists_atTest hlo hhi hbody hall (by omega : k ≤ _)
    exact ⟨p, (starts_iff hlo hhi hbody).mpr ⟨hp, by omega⟩⟩

theorem ends_last (hlo : Integer.parse? lo = some a) (hhi : Integer.parse? hi = some b)
    (hbody : i ∉ body.writes)
    (hall : ∀ k s, (countingLoop i lo hi body).Starts m k s →
      ∃ t, Ends (execBlock · body) s (.ok .normal) t) :
    ∃ m', Ends (countingLoop i lo hi body).run m (.ok .normal) m' ∧
      (countingLoop i lo hi body).AtTest m (max 0 (b.val - a.val)).toNat m' ∧
      m'.Holds i (max a.val b.val) := by
  obtain ⟨p, hp⟩ := exists_atTest hlo hhi hbody hall (by omega : (max 0 (b.val - a.val)).toNat ≤ _)
  have hx := (atTest_holds hlo hhi hbody hp).1
  have hlast : a.val + (max 0 (b.val - a.val)).toNat = max a.val b.val := by omega
  rw [hlast] at hx
  exact ⟨p, ForLoop.ends_iff.mpr (.inr ⟨_, p, hp, leaves_of_le hhi hx (by omega)⟩), hp, hx⟩

theorem ends_cases (hlo : Integer.parse? lo = some a) (hhi : Integer.parse? hi = some b)
    (hbody : i ∉ body.writes) {r : Except RunError Flow} {m' : Machine}
    (hr : Ends (countingLoop i lo hi body).run m r m') :
    (r = .ok .normal ∧
        (countingLoop i lo hi body).AtTest m (max 0 (b.val - a.val)).toNat m' ∧
        m'.Holds i (max a.val b.val)) ∨
      r ≠ .ok .normal ∧ ∃ k s, (countingLoop i lo hi body).Starts m k s ∧
        Ends (execBlock · body) s r m' := by
  rcases ForLoop.ends_iff.mp hr with ⟨⟨n, hn⟩, hne⟩ | ⟨k, p, hp, hl⟩
  · obtain ⟨p, -, hexec⟩ := exec_init (i := i) hlo m
    cases (hexec n).symm.trans hn
    exact absurd rfl hne
  · obtain ⟨hx, hle⟩ := atTest_holds hlo hhi hbody hp
    rcases leaves_cases hhi hbody hx hl with ⟨rfl, rfl, hdone⟩ | ⟨hne, hpass, hrun⟩
    · have hk : k = (max 0 (b.val - a.val)).toNat := by omega
      have hlast : a.val + k = max a.val b.val := by omega
      exact .inl ⟨rfl, hk ▸ hp, hlast ▸ hx⟩
    · exact .inr ⟨hne, k, p, ⟨p, hp, hpass⟩, hrun⟩

end countingLoop

open countingLoop in
/-- A loop counts its variable up from one number to another, where its body does not itself write
that variable, whatever the functions do that the body calls.

Each time the body starts, the variable has the next number. If the body always goes on, it runs
once for each number from the first one up to the last one, which is not taken, and the loop ends
after these rounds, in the state they lead to, with the variable at the last number. Otherwise the
loop ends as the body does where it does not go on. It ends in no other way, so it never overflows
by itself. As a statement of a program it does all this behind its record. -/
theorem counting_loop_counts (i lo hi : String) {a b : Integer}
    (hlo : Integer.parse? lo = some a) (hhi : Integer.parse? hi = some b) (body : Block)
    (hbody : i ∉ body.writes) (m : Machine) :
    (∀ k s, (countingLoop i lo hi body).Starts m k s → s.Holds i (a.val + k)) ∧
    ((∀ k s, (countingLoop i lo hi body).Starts m k s →
        ∃ t, Ends (execBlock · body) s (.ok .normal) t) →
      (∀ k : Nat, (∃ s, (countingLoop i lo hi body).Starts m k s) ↔
        (k : Int) < max 0 (b.val - a.val)) ∧
      ∃ m', Ends (countingLoop i lo hi body).run m (.ok .normal) m' ∧
        (countingLoop i lo hi body).AtTest m (max 0 (b.val - a.val)).toNat m' ∧
        m'.Holds i (max a.val b.val)) ∧
    (∀ k s r m', (countingLoop i lo hi body).Starts m k s → Ends (execBlock · body) s r m' →
      r ≠ .ok .normal → Ends (countingLoop i lo hi body).run m r m') ∧
    (∀ r m', Ends (countingLoop i lo hi body).run m r m' →
      (r = .ok .normal ∧
          (countingLoop i lo hi body).AtTest m (max 0 (b.val - a.val)).toNat m' ∧
          m'.Holds i (max a.val b.val)) ∨
        r ≠ .ok .normal ∧ ∃ k s, (countingLoop i lo hi body).Starts m k s ∧
          Ends (execBlock · body) s r m') ∧
    ∀ n, exec n (countingLoop i lo hi body).stmt =
      (Run.note (.executing "for") >>= fun _ => (countingLoop i lo hi body).run n) := by
  refine ⟨fun k s hs => ?_, fun hall => ?_, ?_, fun r m' hr => ends_cases hlo hhi hbody hr,
    ForLoop.exec_stmt⟩
  · exact (atTest_holds hlo hhi hbody ((starts_iff hlo hhi hbody).mp hs).1).1
  · exact ⟨fun k => exists_starts_iff hlo hhi hbody hall, ends_last hlo hhi hbody hall⟩
  · rintro k s r m' ⟨p, hp, hpass⟩ hrun hne
    exact ForLoop.ends_iff.mpr (.inr ⟨k, p, hp, .left hpass hrun hne⟩)

/-- A statement that counts up to the highest integer, which goes round twice, and one whose body
calls a function that has the loop's variable for a parameter and assigns it, and returns in its
second round. -/
theorem counting_loop_counts_highest :
    let highest := countingLoop "i" "9223372036854775805" "9223372036854775807"
      [.assign "last" (.var "i")]
    let f : Function := ⟨["i"], [.assign "i" (.number "9"), .ret (.var "i")]⟩
    let body : Block := [.print (.call "f" [.number "5"]),
      .cond ⟨.var "i", .equal, .number "1"⟩ [.ret (.var "i")] none]
    let before : Machine := { Machine.start 1 with functions := ⟨[("f", f)]⟩ }
    let m : Machine := { before with events := [.executing "for"] }
    ((∃ s, highest.Starts m 1 s) ∧ (¬ ∃ s, highest.Starts m 2 s) ∧
      ∃ m', Ends (exec · highest.stmt) before (.ok .normal) m' ∧ highest.AtTest m 2 m' ∧
        m'.Holds "i" 9223372036854775807) ∧
    ∃ s m', (countingLoop "i" "0" "3" body).Starts m 1 s ∧ s.Holds "i" 1 ∧
      Ends (exec · (countingLoop "i" "0" "3" body).stmt) before
        (.ok (.ret (.int ⟨1, by decide, by decide⟩))) m' := by
  intro highest f body before m
  constructor
  · have hlo : Integer.parse? "9223372036854775805" =
        some ⟨9223372036854775805, by decide, by decide⟩ := by decide +kernel
    have hhi : Integer.parse? "9223372036854775807" =
        some ⟨9223372036854775807, by decide, by decide⟩ := by decide +kernel
    obtain ⟨hvar, hends, -, -, hstmt⟩ :=
      counting_loop_counts "i" _ _ hlo hhi [.assign "last" (.var "i")] (by decide) m
    have hall : ∀ k s, highest.Starts m k s →
        ∃ t, Ends (execBlock · [.assign "last" (.var "i")]) s (.ok .normal) t := by
      intro k s hs
      obtain ⟨n, -, hn⟩ := hvar k s hs
      have hexec := exec_write (i := "last") (.inr rfl)
        (fun run m' hm' => evalWith_var (hm' ▸ hn)) 0
      exact ⟨_, 1, Run.bind_of_ok hexec⟩
    obtain ⟨hcount, m', ⟨n, hrun⟩, hlast, hholds⟩ := hends hall
    exact ⟨(hcount 1).mpr (by decide), fun hs => absurd ((hcount 2).mp hs) (by decide), m',
      ⟨n, (congrFun (hstmt n) before).trans hrun⟩, hlast, hholds⟩
  · have hlo : Integer.parse? "0" = some ⟨0, by decide, by decide⟩ := by decide +kernel
    have hhi : Integer.parse? "3" = some ⟨3, by decide, by decide⟩ := by decide +kernel
    obtain ⟨hvar, -, hleft, -, hstmt⟩ := counting_loop_counts "i" _ _ hlo hhi body (by decide) m
    obtain ⟨s, hs, m', hbody⟩ : ∃ s, (countingLoop "i" "0" "3" body).Starts m 1 s ∧
        ∃ m', Ends (execBlock · body) s (.ok (.ret (.int ⟨1, by decide, by decide⟩))) m' :=
      ⟨_, ⟨_, .next (.first ⟨1, rfl⟩) ⟨_, _, _, ⟨1, rfl⟩, ⟨2, rfl⟩, ⟨1, rfl⟩⟩, ⟨1, rfl⟩⟩, _,
        ⟨2, rfl⟩⟩
    obtain ⟨n, hrun⟩ := hleft 1 s _ m' hs hbody nofun
    exact ⟨s, m', hs, hvar 1 s hs, n, (congrFun (hstmt n) before).trans hrun⟩

end Bhasha
