/-!
# Steps that carry a state and may fail

A transformation is made of steps that carry a state and may be rejected.  A
composed step succeeds just if its parts do, one from the state that the
other leaves; these laws take such a success apart and put it together.  It is
rejected where one of its parts is, after those before have succeeded.
-/

namespace Covenant

variable {σ ε α β : Type}

/-- A composed step succeeds just if both of its parts do. -/
theorem step_bind_eq_ok
    {first : StateT σ (Except ε) α} {next : α → StateT σ (Except ε) β}
    {state after : σ} {result : β} :
    (first >>= next) state = .ok (result, after) ↔
      ∃ value between,
        first state = .ok (value, between) ∧
          next value between = .ok (result, after) := by
  change (first state >>= fun pair => next pair.1 pair.2) = _ ↔ _
  cases outcome : first state with
  | error reason =>
      constructor
      · intro absurd
        cases absurd
      · rintro ⟨_, _, equal, _⟩
        cases equal
  | ok pair =>
      constructor
      · intro rest
        exact ⟨pair.1, pair.2, rfl, rest⟩
      · rintro ⟨_, _, equal, rest⟩
        cases equal
        exact rest

/-- A step that only gives a result leaves the state as it was. -/
theorem step_pure_eq_ok {state after : σ} {value result : α} :
    (pure value : StateT σ (Except ε) α) state = .ok (result, after) ↔
      value = result ∧ state = after := by
  change Except.ok (value, state) = Except.ok (result, after) ↔ _
  simp

/-- A step that follows one that succeeds. -/
theorem step_bind_of_ok
    {first : StateT σ (Except ε) α} {next : α → StateT σ (Except ε) β}
    {state between : σ} {value : α}
    (outcome : first state = .ok (value, between)) :
    (first >>= next) state = next value between := by
  change (first state >>= fun pair => next pair.1 pair.2) = _
  rw [outcome]
  rfl

/-- A failure without a state stays a failure, and a result leaves the state as it was. -/
theorem step_lift_eq_ok
    {outcome : Except ε α} {state after : σ} {result : α} :
    (liftM outcome : StateT σ (Except ε) α) state = .ok (result, after) ↔
      outcome = .ok result ∧ state = after := by
  cases outcome with
  | error reason =>
      constructor
      · intro absurd
        cases absurd
      · rintro ⟨equal, _⟩
        cases equal
  | ok value =>
      change Except.ok (value, state) = Except.ok (result, after) ↔ _
      simp

/-- A composed step is rejected where the first of its parts is that is. -/
theorem step_bind_eq_error
    {first : StateT σ (Except ε) α} {next : α → StateT σ (Except ε) β} {state : σ} {reason : ε} :
    (first >>= next) state = .error reason ↔
      first state = .error reason ∨
        ∃ value between, first state = .ok (value, between) ∧
          next value between = .error reason := by
  change (first state >>= fun pair => next pair.1 pair.2) = _ ↔ _
  cases outcome : first state with
  | error other =>
      constructor
      · intro failed
        cases failed
        exact .inl rfl
      · rintro (failed | ⟨_, _, absurd, _⟩)
        · cases failed
          rfl
        · cases absurd
  | ok pair =>
      constructor
      · intro rest
        exact .inr ⟨pair.1, pair.2, rfl, rest⟩
      · rintro (absurd | ⟨_, _, equal, rest⟩)
        · cases absurd
        · cases equal
          exact rest

theorem step_lift_eq_error {outcome : Except ε α} {state : σ} {reason : ε} :
    (liftM outcome : StateT σ (Except ε) α) state = .error reason ↔ outcome = .error reason := by
  cases outcome with
  | error other =>
      change Except.error other = Except.error reason ↔ _
      simp
  | ok value => exact ⟨nofun, nofun⟩

end Covenant
