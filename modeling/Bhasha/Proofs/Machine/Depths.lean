import Bhasha.Proofs.Machine.Limit
import Bhasha.Proofs.Value.Arithmetic
import Mathlib.Data.List.Chain

/-! The recorded depths of calls follow a stack discipline. From a depth `d` calls are recorded at
depths above `d` and up to the limit, and each at most one deeper than the one before it (`Climbs`).
Where the limit stops a run, the last call recorded is one at the limit. -/

namespace Bhasha

variable {α β : Type}

/-- The depth at which a call was recorded. -/
def Event.depth? : Event → Option Nat
  | .calling _ depth => some depth
  | _ => none

/-- The depths of all recorded calls, the first call first. -/
def Machine.callDepths (m : Machine) : List Nat := m.events.reverse.filterMap Event.depth?

theorem Machine.callDepths_enter (m : Machine) (name : String) :
    (m.enter name).callDepths = m.callDepths ++ [m.depth + 1] := by
  simp [callDepths, enter, Event.depth?]

/-- Depths at which calls are recorded from depth `d` on. -/
structure Climbs (d limit : Nat) (ks : List Nat) : Prop where
  steps : (d :: ks).IsChain fun k k' => k' ≤ k + 1
  within : ∀ k ∈ ks, d < k ∧ k ≤ limit

namespace Climbs

variable {d limit : Nat} {ks ks' : List Nat}

theorem nil : Climbs d limit [] := ⟨List.isChain_singleton d, nofun⟩

theorem append (h : Climbs d limit ks) (h' : Climbs d limit ks') :
    Climbs d limit (ks ++ ks') := by
  obtain ⟨hhead, htail⟩ := List.isChain_cons.mp h'.steps
  constructor
  · rw [← List.cons_append]
    refine List.isChain_append.mpr ⟨h.steps, htail, fun k hk k' hk' => ?_⟩
    have hfirst : k' ≤ d + 1 := hhead k' hk'
    have hlast : d ≤ k := by
      rcases List.mem_cons.mp (List.mem_of_mem_getLast? hk) with rfl | hk
      · exact Nat.le_refl _
      · exact Nat.le_of_lt (h.within k hk).1
    omega
  · intro k hk
    rcases List.mem_append.mp hk with hk | hk
    · exact h.within k hk
    · exact h'.within k hk

/-- What is recorded inside a call, with the record of the call itself before it. -/
theorem enter (hd : d < limit) (h : Climbs (d + 1) limit ks) : Climbs d limit ((d + 1) :: ks) := by
  constructor
  · exact List.isChain_cons_cons.mpr ⟨Nat.le_refl _, h.steps⟩
  · intro k hk
    rcases List.mem_cons.mp hk with rfl | hk
    · exact ⟨Nat.lt_succ_self d, hd⟩
    · obtain ⟨hlt, hle⟩ := h.within k hk
      exact ⟨Nat.lt_of_succ_lt hlt, hle⟩

/-- At the limit nothing can be recorded. -/
theorem eq_nil (h : Climbs limit limit ks) : ks = [] := by
  cases ks with
  | nil => rfl
  | cons k ks =>
    obtain ⟨hlt, hle⟩ := h.within k List.mem_cons_self
    omega

theorem getLastD_append (h : Climbs d limit ks) (hl : ks'.getLastD d = limit) :
    (ks ++ ks').getLastD d = limit := by
  cases ks' with
  | nil =>
    have hd : d = limit := hl
    subst hd
    rw [h.eq_nil]
    rfl
  | cons k ks' =>
    rw [← hl]
    simp [List.getLastD_eq_getLast?, List.getLast?_cons]

theorem head_eq_one (h : Climbs 0 limit ks) : ∀ k ∈ ks.head?, k = 1 := by
  intro k hk
  have hle : k ≤ 0 + 1 := (List.isChain_cons.mp h.steps).1 k hk
  have hlt : 0 < k := (h.within k (List.mem_of_mem_head? hk)).1
  omega

theorem getLast?_eq (hl : ks.getLastD d = limit) (hd : d < limit) : ks.getLast? = some limit := by
  rw [List.getLastD_eq_getLast?] at hl
  cases hk : ks.getLast? with
  | none =>
    rw [hk, Option.getD_none] at hl
    omega
  | some k =>
    rw [hk] at hl
    exact congrArg some hl

end Climbs

/-- However the computation finishes, the calls it records climb from its depth, and if it exceeds
the limit, then from a depth at the limit. -/
structure Run.Nests (x : Run α) : Prop where
  advances : x.Keeps Advances
  calls : ∀ {m m' r}, m.depth ≤ m.limit → x m = some (r, m') →
    ∃ ks, m'.callDepths = m.callDepths ++ ks ∧ Climbs m.depth m.limit ks ∧
      (Exceeded r → ks.getLastD m.depth = m.limit)

namespace Run.Nests

theorem bind {x : Run α} {f : α → Run β} (hx : x.Nests) (hf : ∀ a, (f a).Nests) :
    (x >>= f).Nests where
  advances := hx.advances.bind Advances.trans fun a => (hf a).advances
  calls {m m' r} hm h := by
    rcases bind_cases h with ⟨a, mid, ha, h⟩ | ⟨e, he, rfl⟩
    · obtain ⟨ks, hks, hclimbs, -⟩ := hx.calls hm ha
      have hmid := hx.advances _ _ _ ha
      obtain ⟨ks', hks', hclimbs', hfull⟩ :=
        (hf a).calls (by rw [hmid.depth, hmid.limit]; exact hm) h
      rw [hmid.depth, hmid.limit] at hclimbs' hfull
      refine ⟨ks ++ ks', ?_, hclimbs.append hclimbs', fun he => hclimbs.getLastD_append (hfull he)⟩
      rw [hks', hks, List.append_assoc]
    · obtain ⟨ks, hks, hclimbs, hfull⟩ := hx.calls hm he
      exact ⟨ks, hks, hclimbs, fun he => hfull (by simpa [Exceeded] using he)⟩

/-- A step that calls nothing. -/
theorem of_silent {x : Run α} (ha : x.Keeps Advances)
    (hs : ∀ {m m' r}, x m = some (r, m') → m'.callDepths = m.callDepths ∧ ¬ Exceeded r) :
    x.Nests where
  advances := ha
  calls _ h := ⟨[], by rw [(hs h).1, List.append_nil], .nil, fun he => absurd he (hs h).2⟩

theorem ofExcept {r : Except RunError α} (hr : ¬ Exceeded r) : (ofExcept r).Nests := by
  apply of_silent (.ofExcept Advances.refl r)
  rintro m m' _ ⟨⟩
  exact ⟨rfl, hr⟩

theorem pure (a : α) : (pure a : Run α).Nests := ofExcept (r := .ok a) (by simp [Exceeded])

theorem look (name : String) : (look name).Nests := by
  apply of_silent (.look Advances.refl name)
  intro m m' r h
  unfold Run.look at h
  split at h <;> cases h <;> simp [Exceeded]

theorem modify {f : Machine → Machine} (ha : ∀ m, Advances m (f m))
    (hs : ∀ m, (f m).callDepths = m.callDepths) : (modify f).Nests := by
  apply of_silent (.modify ha)
  rintro m m' _ ⟨⟩
  exact ⟨hs m, by simp [Exceeded]⟩

theorem unfinished : (unfinished : Run α).Nests := ⟨.unfinished, nofun⟩

theorem note {e : Event} (he : e.depth? = none) : (note e).Nests :=
  modify (fun m => kept_undisturbed.note m e) fun m => by simp [Machine.callDepths, he]

variable {run : Block → Run Flow} {bindAll : List String → Run Unit}

theorem invoke (hrun : ∀ b, (run b).Nests) (hbind : ∀ params, (bindAll params).Nests)
    (name : String) (count : Nat) : (invoke run name count bindAll).Nests where
  advances := by
    have h := kept_undisturbed.invoke (fun b => (hrun b).advances) name count
      fun params => (hbind params).advances
    exact h.mono Undisturbed.toAdvances
  calls {m m' r} hm h := by
    rcases invoke_cases h with ⟨e, hc, rfl, rfl⟩ | ⟨f, result, mid, hc, hb, rfl, rfl⟩
    · refine ⟨[], by rw [List.append_nil], .nil, ?_⟩
      rintro ⟨_, _, ⟨⟩⟩
      -- of all that can be wrong with the call, it was the depth
      by_contra hne
      have hd : m'.depth < m'.limit := Nat.lt_of_le_of_ne hm hne
      rcases Machine.callee_eq_error hc with he | ⟨f, hf, ⟨-, he⟩ | ⟨hn, -⟩⟩
      · cases he
      · cases he
      · rw [Machine.callee_eq_ok.mpr ⟨hf, hn, hd⟩] at hc
        cases hc
    · have hbody := (hbind f.params).bind fun _ => hrun f.body
      have hd : m.depth < m.limit := (Machine.callee_eq_ok.mp hc).2.2
      obtain ⟨ks, hks, hclimbs, hfull⟩ := hbody.calls (m := m.enter name) hd hb
      refine ⟨(m.depth + 1) :: ks, ?_, hclimbs.enter hd, ?_⟩
      · have hleave : (mid.leave m).callDepths = mid.callDepths := rfl
        rw [hleave, hks, Machine.callDepths_enter, List.append_assoc]
        rfl
      · intro he
        rw [List.getLastD_cons]
        exact hfull (exceeded_map.mp he)

end Run.Nests

theorem not_exceeded_combine (op : Operator) (a b : Value) : ¬ Exceeded (Value.combine op a b) := by
  rintro ⟨name, limit, h⟩
  rcases Value.combine_error h with ⟨-, he⟩ | ⟨-, he | ⟨he, -⟩ | ⟨-, _, -, he⟩⟩ <;> cases he

theorem not_exceeded_compare (op : Operator) (a b : Integer) :
    ¬ Exceeded (Integer.compare op a b) := by
  rintro ⟨name, limit, h⟩
  cases (Integer.compare_error h).1

theorem not_exceeded_asInteger (context : String) (v : Value) :
    ¬ Exceeded (v.asInteger context) := by
  rintro ⟨name, limit, h⟩
  cases Value.asInteger_error h

theorem evalSteps_nests {run run' : Block → Run Flow} (hrun : ∀ b, (run b).Nests) :
    EvalSteps (fun _ => True) (fun x _ => x.Nests) (fun x _ => x.Nests) run run' where
  weaken := id
  pure := .pure
  bind := .bind
  bindG := .bind
  literal text _ _ := .ofExcept (r := .error (.literalTooLarge text)) (by simp [Exceeded])
  look name _ := .look name
  combine op _ _ a b _ := .ofExcept (not_exceeded_combine op a b)
  call name args _ hbind := by
    rw [evalWith]
    apply Run.Nests.bind (.invoke hrun hbind name args.length)
    intro v
    cases v with
    | some v => exact .pure v
    | none => exact .ofExcept (r := .error (.missingValue name)) (by simp [Exceeded])
  bindParam name value := .modify (fun m => kept_undisturbed.assign m name value) fun _ => rfl
  asInteger _ v _ := .ofExcept (not_exceeded_asInteger _ v)
  compare c a b _ := .ofExcept (not_exceeded_compare c.op a b)

theorem execSteps_nests : ExecSteps false (fun _ => True) (fun x _ => x.Nests) where
  pure := .pure
  bind := .bind
  unfinished := .unfinished
  cutOff _ := .unfinished
  note _ := .note rfl
  print _ := .modify (fun _ => ⟨rfl, rfl, ⟨_, String.append_assoc⟩, fun _ h => h⟩) fun _ => rfl
  assign name _ value _ :=
    .modify (fun m => kept_undisturbed.assign m name value) fun _ => rfl
  declare name params body _ _ :=
    .bind (.note rfl) fun _ =>
      .modify (fun m => advances_declare m name ⟨params, body⟩) fun _ => rfl

theorem execBlock_nests (n : Nat) (b : Block) : (execBlock n b).Nests := by
  apply execSteps_nests.execBlock _ (Nat.le_refl n) b fun _ _ => trivial
  intro n n' hrun
  exact (evalSteps_nests fun b => hrun b fun _ _ => trivial).evaluated

theorem runProgram_nests (n : Nat) (b : Block) : (runProgram n b).Nests := by
  apply Run.Nests.bind (.note rfl)
  intro _
  apply Run.Nests.bind (execBlock_nests n b)
  intro flow
  cases flow with
  | normal => exact .pure ()
  | ret v => exact .ofExcept (r := .error .returnOutsideFunction) (by simp [Exceeded])

/-- Whatever a call does, it is left at the depth at which it was entered. -/
theorem depth_of_left (n : Nat) {m mid : Machine} {name : String} {args : List Expr} {f : Function}
    {result : Except RunError Flow}
    (h : (bindWith (execBlock n) f.params args >>= fun _ => execBlock n f.body) (m.enter name) =
      some (result, mid)) : mid.depth = m.depth + 1 := by
  have hrun := kept_undisturbed.execBlock n
  have hbody : (bindWith (execBlock n) f.params args >>= fun _ => execBlock n f.body).Keeps
      Advances :=
    .bind Advances.trans (kept_undisturbed.bindWith hrun f.params args) fun _ => hrun f.body
  exact (hbody _ _ _ h).depth

/-- On a new machine the first call is recorded at depth 1, all calls are recorded at depths from 1
up to the limit, and each at most one deeper than the one before. If the limit stops the program,
the last call recorded is at the limit. In the end no call is left running, and no call is ever left
at another depth than it was entered at. -/
theorem call_depths_nest (b : Block) (n limit : Nat) {r : Except RunError Unit} {m : Machine}
    (h : runProgram n b (.start limit) = some (r, m)) :
    (∀ k ∈ m.callDepths.head?, k = 1) ∧
      (∀ k ∈ m.callDepths, 1 ≤ k ∧ k ≤ limit) ∧
      m.callDepths.IsChain (fun k k' => k' ≤ k + 1) ∧
      (Exceeded r → (0 < limit → m.callDepths.getLast? = some limit) ∧
        (limit = 0 → m.callDepths = [])) ∧
      m.depth = 0 ∧
      ∀ n (caller : Machine) name args (f : Function) result mid,
        (bindWith (execBlock n) f.params args >>= fun _ => execBlock n f.body)
          (caller.enter name) = some (result, mid) → mid.depth = caller.depth + 1 := by
  have hnests := runProgram_nests n b
  obtain ⟨ks, hks, hclimbs, hfull⟩ := hnests.calls (Nat.zero_le limit) h
  have hdepths : m.callDepths = ks := hks
  rw [hdepths]
  refine ⟨hclimbs.head_eq_one, hclimbs.within, (List.isChain_cons.mp hclimbs.steps).2, ?_,
    (hnests.advances _ _ _ h).depth, fun n _ _ _ _ _ _ hb => depth_of_left n hb⟩
  intro he
  refine ⟨Climbs.getLast?_eq (hfull he), ?_⟩
  rintro rfl
  exact hclimbs.eq_nil

/-- A function is called with a call in its argument and calls itself in the same way: under a limit
of 2 the argument of the inner call is one call too many, and under a limit of 0 the very first
is. -/
theorem call_depths_nest_stopped :
    let b : Block :=
      [.function "g" [] [.ret (.number "1")],
        .function "f" ["n"] [.ret (.call "f" [.call "g" []])],
        .print (.call "g" []), .print (.call "f" [.call "g" []])]
    (∃ m, runProgram 3 b (.start 2) = some (.error (.callDepthExceeded "g" 2), m) ∧
      m.callDepths = [1, 1, 2, 2] ∧ m.callDepths.getLast? = some 2 ∧ m.depth = 0) ∧
    ∃ m, runProgram 3 b (.start 0) = some (.error (.callDepthExceeded "g" 0), m) ∧
      m.callDepths = [] ∧ m.depth = 0 := by
  intro b
  obtain ⟨m, h, hks⟩ : ∃ m, runProgram 3 b (.start 2) =
      some (.error (.callDepthExceeded "g" 2), m) ∧ m.callDepths = [1, 1, 2, 2] :=
    ⟨_, rfl, by decide +kernel⟩
  obtain ⟨m', h'⟩ : ∃ m', runProgram 3 b (.start 0) =
      some (.error (.callDepthExceeded "g" 0), m') := ⟨_, rfl⟩
  obtain ⟨-, -, -, hlast, hdepth, -⟩ := call_depths_nest b 3 2 h
  obtain ⟨-, -, -, hnone, hdepth', -⟩ := call_depths_nest b 3 0 h'
  exact ⟨⟨m, h, hks, (hlast ⟨"g", 2, rfl⟩).1 (by decide), hdepth⟩,
    ⟨m', h', (hnone ⟨"g", 0, rfl⟩).2 rfl, hdepth'⟩⟩

end Bhasha
