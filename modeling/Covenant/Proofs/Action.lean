import Covenant.Machine.Action

/-!
# Laws of actions

How the steps of a run compose.  An action that follows another one starts in
the machine that the first one leaves, and does not start at all if the first
one stops.  The laws are stated by applying actions to a machine, so proofs
about runs never look inside the monad.
-/

namespace Covenant.Machine

/-- A machine and its successor, whichever way an action ends. -/
theorem Action.bind_apply {α β : Type}
    (first : Action α) (next : α → Action β) (machine : Machine) :
    (first >>= next) machine =
      match first machine with
      | .ok result after => next result after
      | .error stop after => .error stop after := by
  cases outcome : first machine <;>
    simp [bind, EStateM.bind, outcome]

@[simp]
theorem Action.pure_apply {α : Type} (result : α) (machine : Machine) :
    (pure result : Action α) machine = .ok result machine :=
  rfl

@[simp]
theorem Action.throw_apply {α : Type} (stop : Stop) (machine : Machine) :
    (throw stop : Action α) machine = .error stop machine :=
  rfl

@[simp]
theorem Action.fail_apply {α : Type} (fault : Fault) (machine : Machine) :
    (Action.fail fault : Action α) machine = .error (.fault fault) machine :=
  rfl

@[simp]
theorem Action.query_apply {α : Type} (look : Store → α) (machine : Machine) :
    Action.query look machine = .ok (look machine.store) machine :=
  rfl

/-- An action goes on after one that has a result. -/
theorem Action.bind_of_ok {α β : Type}
    {first : Action α} {next : α → Action β}
    {machine after : Machine} {result : α}
    (outcome : first machine = .ok result after) :
    (first >>= next) machine = next result after := by
  rw [Action.bind_apply, outcome]

/-- An action ends where one of its parts stops. -/
theorem Action.bind_of_error {α β : Type}
    {first : Action α} {next : α → Action β}
    {machine after : Machine} {stop : Stop}
    (outcome : first machine = .error stop after) :
    (first >>= next) machine = .error stop after := by
  rw [Action.bind_apply, outcome]

/-- A composed action has a result just if both of its parts have one. -/
theorem Action.bind_eq_ok {α β : Type}
    {first : Action α} {next : α → Action β}
    {machine final : Machine} {result : β} :
    (first >>= next) machine = .ok result final ↔
      ∃ between after,
        first machine = .ok between after ∧
          next between after = .ok result final := by
  rw [Action.bind_apply]
  cases outcome : first machine with
  | ok between after =>
      constructor
      · intro rest
        exact ⟨between, after, rfl, rest⟩
      · rintro ⟨_, _, equal, rest⟩
        cases equal
        exact rest
  | error stop after =>
      constructor
      · intro absurd
        cases absurd
      · rintro ⟨_, _, equal, _⟩
        cases equal

end Covenant.Machine
