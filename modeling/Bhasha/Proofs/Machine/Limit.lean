import Bhasha.Proofs.Machine.Bounds
import Bhasha.Proofs.Machine.Undisturbed

/-! The limit on nested calls shows only where it is exceeded. Runs of one program under a lower and
under a higher limit go in step (`Run.Follows`) until the lower one is exceeded, and from there on
the other run can only print more. -/

namespace Bhasha

variable {α β : Type}

/-- The run stopped because too many calls were running. -/
def Exceeded (r : Except RunError α) : Prop :=
  ∃ name limit, r = .error (.callDepthExceeded name limit)

/-- What was printed before is still there. -/
def Printed (m m' : Machine) : Prop := ∃ more, m'.output = m.output ++ more

/-- The same state under a limit that is no lower. -/
def Raised (m m' : Machine) : Prop := ∃ limit, m.limit ≤ limit ∧ m' = { m with limit := limit }

theorem exceeded_map {r : Except RunError α} {f : α → β} : Exceeded (r.map f) ↔ Exceeded r := by
  cases r <;> simp [Exceeded, Except.map]

theorem Raised.enter {m n : Machine} (h : Raised m n) (name : String) :
    Raised (m.enter name) (n.enter name) := by
  obtain ⟨limit, hle, rfl⟩ := h
  exact ⟨limit, hle, rfl⟩

theorem Raised.leave {m n m' n' : Machine} (h : Raised m n) (h' : Raised m' n') :
    Raised (m'.leave m) (n'.leave n) := by
  obtain ⟨limit, -, rfl⟩ := h
  obtain ⟨limit', hle, rfl⟩ := h'
  exact ⟨limit', hle, rfl⟩

theorem Printed.trans {a b c : Machine} : Printed a b → Printed b c → Printed a c := by
  rintro ⟨s, hs⟩ ⟨t, ht⟩
  exact ⟨s ++ t, by rw [ht, hs, String.append_assoc]⟩

/-- The second computation, run under a limit that is no lower, does as the first one does, unless
the first one exceeds its limit. Then the second one has printed at least as much. -/
structure Run.Follows (x y : Run α) : Prop where
  advances : y.Keeps Advances
  agree : ∀ {m m' n r}, Raised m n → x m = some (r, m') → ¬ Exceeded r →
    ∃ n', y n = some (r, n') ∧ Raised m' n'
  part : ∀ {m m' n n' r r'}, Raised m n → x m = some (r, m') → Exceeded r →
    y n = some (r', n') → Printed m' n'

namespace Run.Follows

theorem bind {x y : Run α} {f g : α → Run β} (hx : x.Follows y) (hf : ∀ a, (f a).Follows (g a)) :
    (x >>= f).Follows (y >>= g) where
  advances := hx.advances.bind Advances.trans fun a => (hf a).advances
  agree {m m' n r} hn h hr := by
    rcases bind_cases h with ⟨a, mid, ha, h⟩ | ⟨e, he, rfl⟩
    · obtain ⟨nid, hy, hmid⟩ := hx.agree hn ha (by simp [Exceeded])
      rw [bind_of_ok hy]
      exact (hf a).agree hmid h hr
    · obtain ⟨n', hy, hm'⟩ := hx.agree hn he (by simpa [Exceeded] using hr)
      exact ⟨n', bind_of_error hy, hm'⟩
  part {m m' n n' r r'} hn h hr hy := by
    rcases bind_cases h with ⟨a, mid, ha, h⟩ | ⟨e, he, rfl⟩
    · obtain ⟨nid, hy', hmid⟩ := hx.agree hn ha (by simp [Exceeded])
      rw [bind_of_ok hy'] at hy
      exact (hf a).part hmid h hr hy
    · -- The limit was exceeded in `x`, and the second run may have gone on beyond `y`.
      have hr : Exceeded (.error e : Except RunError α) := by simpa [Exceeded] using hr
      rcases bind_cases hy with ⟨a, nid, ha, hy⟩ | ⟨e', he', -⟩
      · exact (hx.part hn he hr ha).trans ((hf a).advances _ _ _ hy).output
      · exact hx.part hn he hr he'

/-- A step that does not ask for the limit follows itself. -/
theorem of_indifferent {x : Run α} (ha : x.Keeps Advances)
    (hl : ∀ m limit, x { m with limit := limit } =
      (x m).map fun e => (e.1, { e.2 with limit := limit })) : x.Follows x where
  advances := ha
  agree {m m' n r} hn h _ := by
    obtain ⟨limit, hle, rfl⟩ := hn
    refine ⟨{ m' with limit := limit }, by rw [hl, h]; rfl, limit, ?_, rfl⟩
    rw [(ha m r m' h).limit]
    exact hle
  part {m m' n n' r r'} hn h _ hy := by
    obtain ⟨limit, -, rfl⟩ := hn
    rw [hl, h] at hy
    cases hy
    exact ⟨"", by simp⟩

theorem modify {f : Machine → Machine} (hf : ∀ m, Advances m (f m))
    (hl : ∀ m limit, f { m with limit := limit } = { f m with limit := limit }) :
    (modify f).Follows (modify f) := by
  refine of_indifferent (.modify hf) fun m limit => ?_
  rw [Run.modify, hl]
  rfl

theorem look (name : String) : (look name).Follows (look name) := by
  refine of_indifferent (.look Advances.refl name) fun m limit => ?_
  cases h : m.vars.find? name <;> simp [Run.look, h]

theorem callee_ok {m n : Machine} {name : String} {count : Nat} {f : Function} (hn : Raised m n)
    (h : m.callee name count = .ok f) : n.callee name count = .ok f := by
  obtain ⟨limit, hle, rfl⟩ := hn
  obtain ⟨hf, hc, hd⟩ := Machine.callee_eq_ok.mp h
  exact Machine.callee_eq_ok.mpr ⟨hf, hc, Nat.lt_of_lt_of_le hd hle⟩

theorem callee_error {m n : Machine} {name : String} {count : Nat} {e : RunError}
    (hn : Raised m n) (h : m.callee name count = .error e)
    (he : ∀ limit, e ≠ .callDepthExceeded name limit) : n.callee name count = .error e := by
  obtain ⟨limit, -, rfl⟩ := hn
  unfold Machine.callee at h ⊢
  split at h
  · next hf =>
    rw [hf]
    exact h
  · next f hf =>
    rw [hf]
    dsimp only
    split at h
    · next hc =>
      rw [if_pos hc]
      exact h
    split at h
    · cases h
      exact absurd rfl (he m.limit)
    · cases h

theorem invoke {run run' : Block → Run Flow} {bindAll bindAll' : List String → Run Unit}
    (hrun : ∀ b, (run b).Follows (run' b))
    (hbind : ∀ params, (bindAll params).Follows (bindAll' params)) (name : String) (count : Nat) :
    (invoke run name count bindAll).Follows (invoke run' name count bindAll') where
  advances := by
    have h := kept_undisturbed.invoke (fun b => (hrun b).advances) name count
      fun params => (hbind params).advances
    exact h.mono Undisturbed.toAdvances
  agree {m m' n r} hn h hr := by
    rcases invoke_cases h with ⟨e, hc, rfl, rfl⟩ | ⟨f, result, mid, hc, hb, rfl, rfl⟩
    · have he : ∀ limit, e ≠ .callDepthExceeded name limit := by
        rintro limit rfl
        exact hr ⟨name, limit, rfl⟩
      exact ⟨n, invoke_of_error (callee_error hn hc he), hn⟩
    · have hbody := (hbind f.params).bind fun _ => hrun f.body
      obtain ⟨nid, hy, hmid⟩ := hbody.agree (hn.enter name) hb fun he => hr (exceeded_map.mpr he)
      exact ⟨nid.leave n, invoke_of_ok (callee_ok hn hc) hy, hn.leave hmid⟩
  part {m m' n n' r r'} hn h hr hy := by
    rcases invoke_cases h with ⟨e, -, -, rfl⟩ | ⟨f, result, mid, hc, hb, rfl, rfl⟩
    · -- The call was refused, so whatever the second run printed came after.
      have hout := (kept_undisturbed.invoke (fun b => (hrun b).advances) name count
        (fun params => (hbind params).advances) _ _ _ hy).output
      obtain ⟨limit, -, rfl⟩ := hn
      exact hout
    · have hbody := (hbind f.params).bind fun _ => hrun f.body
      rcases invoke_cases hy with ⟨e, hc', -, -⟩ | ⟨f', result', nid, hc', hb', -, rfl⟩
      · rw [callee_ok hn hc] at hc'
        cases hc'
      · rw [callee_ok hn hc] at hc'
        cases hc'
        have hout : Printed mid nid := hbody.part (hn.enter name) hb (exceeded_map.mp hr) hb'
        exact hout

theorem ofExcept (r : Except RunError α) : (ofExcept r).Follows (ofExcept r) :=
  of_indifferent (.ofExcept Advances.refl r) fun _ _ => rfl

theorem cutOff {y : Run α} (hy : y.Keeps Advances) : unfinished.Follows y where
  advances := hy
  agree _ h := by cases h
  part _ h := by cases h

theorem note (e : Event) : (note e).Follows (note e) :=
  modify (fun m => kept_undisturbed.note m e) fun _ _ => rfl

end Run.Follows

theorem congruence_follows : Congruence Run.Follows Run.Follows where
  compatible hrun := {
    weaken := id
    ofExcept := .ofExcept
    look := .look
    bind := .bind
    bindG := .bind
    assign := fun name value =>
      .modify (fun m => kept_undisturbed.assign m name value) fun _ _ => rfl
    invoke := fun name count hbind => .invoke hrun hbind name count }
  unfinished := .cutOff .unfinished
  cutOff h := .cutOff h.advances
  note := .note
  print _ :=
    .modify (fun _ => ⟨rfl, rfl, ⟨_, String.append_assoc⟩, fun _ h => h⟩) fun _ _ => rfl
  declare name f :=
    .bind (.note _) fun _ => .modify (fun m => advances_declare m name f) fun _ _ => rfl

theorem runProgram_follows {n n' : Nat} (h : n ≤ n') (b : Block) :
    (runProgram n b).Follows (runProgram n' b) := by
  refine .bind (.note _) fun _ => .bind (congruence_follows.execBlock h b) fun flow => ?_
  cases flow with
  | normal => exact .ofExcept (.ok ())
  | ret v => exact .ofExcept (.error .returnOutsideFunction)

/-- Under a higher limit a program ends as it does under a lower one, with the same output and
stores, unless it exceeds the lower one. Then what it printed is the first part of what it prints
under the higher limit, if it ends there at all. -/
theorem limit_shows_only_if_exceeded (b : Block) (m : Machine) {limit limit' : Nat}
    (h : limit ≤ limit') {r : Except RunError Unit} {m₁ : Machine}
    (hr : Ends (runProgram · b) { m with limit := limit } r m₁) :
    (¬ Exceeded r →
        Ends (runProgram · b) { m with limit := limit' } r { m₁ with limit := limit' }) ∧
      (Exceeded r → ∀ r' m₂, Ends (runProgram · b) { m with limit := limit' } r' m₂ →
        Printed m₁ m₂) := by
  obtain ⟨n, hn⟩ := hr
  have hraised : Raised { m with limit := limit } { m with limit := limit' } := ⟨limit', h, rfl⟩
  constructor
  · intro he
    have hf := runProgram_follows (Nat.le_refl n) b
    obtain ⟨m₂, hy, limit'', -, rfl⟩ := hf.agree hraised hn he
    have hl : limit'' = limit' := (hf.advances _ _ _ hy).limit
    exact ⟨n, hl ▸ hy⟩
  · rintro he r' m₂ ⟨n', hn'⟩
    -- A bound that is enough for both runs.
    have hy := runProgram_extends (Nat.le_max_right n n') b _ _ _ hn'
    exact (runProgram_follows (Nat.le_max_left n n') b).part hraised hn he hy

/-- A function that calls itself once, under the limits 1, 2 and 3. -/
theorem limit_shows_only_if_exceeded_recursive :
    let next : Expr := .call "f" [.binary .add (.var "n") (.number "1")]
    let b : Block :=
      [.function "f" ["n"] [.print (.var "n"),
          .cond ⟨.var "n", .less, .number "2"⟩ [.ret next] none, .ret (.var "n")],
        .print (.call "f" [.number "1"])]
    let m (limit : Nat) : Machine := { Machine.start 0 with limit := limit }
    ∃ m₁ m₂, Ends (runProgram · b) (m 1) (.error (.callDepthExceeded "f" 1)) m₁ ∧
      Ends (runProgram · b) (m 2) (.ok ()) m₂ ∧ m₂.output = "1\n2\n2\n" ∧ Printed m₁ m₂ ∧
        Ends (runProgram · b) (m 3) (.ok ()) { m₂ with limit := 3 } := by
  intro next b m
  have h₁ : Ends (runProgram · b) (m 1) (.error (.callDepthExceeded "f" 1)) _ := ⟨3, rfl⟩
  have h₂ : Ends (runProgram · b) (m 2) (.ok ()) _ := ⟨3, rfl⟩
  refine ⟨_, _, h₁, h₂, rfl, ?_, ?_⟩
  · exact (limit_shows_only_if_exceeded b (m 0) (by decide) h₁).2 ⟨_, _, rfl⟩ _ _ h₂
  · exact (limit_shows_only_if_exceeded b (m 0) (by decide) h₂).1 (by rintro ⟨_, _, ⟨⟩⟩)

end Bhasha
