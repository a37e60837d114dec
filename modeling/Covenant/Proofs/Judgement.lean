import Covenant.Proofs.Step

/-!
# Judging steps

A step of a transformation succeeds or is rejected for a reason.  There is more
than one way to judge its outcome by what it depends on: a step may succeed just
if something holds, or, if something holds, be rejected for certain reasons only.

Such judgements go along with the composition of steps.  So a transformation is
taken apart once, and every way to judge the contracts in a program gives a way
to judge the transformation of the program.
-/

namespace Covenant

/-- A way to judge outcomes that goes along with composition. -/
structure Judgement (ε : Type) where
  judges {α : Type} : Except ε α → Prop → Prop
  ok {α : Type} (result : α) : judges (.ok result) True
  bind {α β : Type} {outcome : Except ε α} {next : α → Except ε β} {holds others : Prop} :
    judges outcome holds → (∀ result, outcome = .ok result → judges (next result) others) →
      judges (outcome >>= next) (holds ∧ others)

namespace Judgement

variable {ε α β : Type}

/-- An outcome is a success just if something holds. -/
def deciding (ε : Type) : Judgement ε where
  judges outcome holds := (∃ result, outcome = .ok result) ↔ holds
  ok result := ⟨fun _ => trivial, fun _ => ⟨result, rfl⟩⟩
  bind {_ _ outcome next holds others} head rest := by
    cases outcome with
    | error reason =>
        constructor
        · rintro ⟨_, ⟨⟩⟩
        · rintro ⟨holds, _⟩
          obtain ⟨_, ⟨⟩⟩ := head.mpr holds
    | ok result =>
        rw [← rest result rfl]
        exact ⟨fun succeeds => ⟨head.mp ⟨result, rfl⟩, succeeds⟩, And.right⟩

/-- If something holds, an outcome is a failure for blamed reasons only. -/
def blaming (blamed : ε → Prop) : Judgement ε where
  judges outcome holds := holds → ∀ reason, outcome = .error reason → blamed reason
  ok _ _ _ absurd := by cases absurd
  bind {_ _ outcome next holds others} head rest := by
    rintro ⟨holds, others⟩ reason failed
    cases outcome with
    | error _ =>
        cases failed
        exact head holds _ rfl
    | ok result => exact rest result rfl others reason failed

variable {judgement : Judgement ε} {outcome : Except ε α} {holds others : Prop}

theorem congr (judged : judgement.judges outcome holds) (same : holds ↔ others) :
    judgement.judges outcome others :=
  propext same ▸ judged

/-- A success may depend on whatever holds. -/
theorem of_ok {result : α} (succeeds : outcome = .ok result) (given : holds) :
    judgement.judges outcome holds := by
  rw [succeeds]
  exact congr (judgement.ok result) (iff_of_true trivial given)

/-- What follows a success and depends on nothing leaves the judgement as it is. -/
theorem before {next : α → Except ε β} (judged : judgement.judges outcome holds)
    (rest : ∀ result, outcome = .ok result → judgement.judges (next result) True) :
    judgement.judges (outcome >>= next) holds :=
  congr (judgement.bind judged rest) (iff_of_eq (and_true _))

end Judgement

/-! ## Steps -/

/-- A step is judged from every state in order, and leaves states in order. -/
structure Judged {σ ε α : Type} (judgement : Judgement ε) (sound : σ → Prop)
    (step : StateT σ (Except ε) α) (holds : Prop) : Prop where
  judges {state : σ} : sound state → judgement.judges (step state) holds
  sound {state after : σ} {result : α} :
    sound state → step state = .ok (result, after) → sound after

namespace Judged

variable {σ ε α β : Type} {judgement : Judgement ε} {sound : σ → Prop}

theorem pure (value : α) :
    Judged judgement sound (Pure.pure value : StateT σ (Except ε) α) True where
  judges {state} _ := judgement.ok (value, state)
  sound given outcome := (step_pure_eq_ok.mp outcome).2 ▸ given

/-- A composed step depends on what its parts depend on. -/
theorem bind
    {first : StateT σ (Except ε) α} {next : α → StateT σ (Except ε) β} {holds others : Prop}
    (head : Judged judgement sound first holds)
    (rest : ∀ value, Judged judgement sound (next value) others) :
    Judged judgement sound (first >>= next) (holds ∧ others) where
  judges given :=
    judgement.bind (head.judges given) fun (value, _) begun =>
      (rest value).judges (head.sound given begun)
  sound given outcome := by
    obtain ⟨value, between, begun, ended⟩ := step_bind_eq_ok.mp outcome
    exact (rest value).sound (head.sound given begun) ended

theorem congr
    {step : StateT σ (Except ε) α} {holds others : Prop}
    (judged : Judged judgement sound step holds) (same : holds ↔ others) :
    Judged judgement sound step others :=
  propext same ▸ judged

/-- A step that decides something succeeds just if it holds. -/
theorem iff {step : StateT σ (Except ε) α} {holds : Prop} {state : σ}
    (judged : Judged (.deciding ε) sound step holds) (given : sound state) :
    (∃ result after, step state = .ok (result, after)) ↔ holds :=
  Prod.exists.symm.trans (judged.judges given)

/-- A step that depends on nothing may stand before another one. -/
theorem after
    {first : StateT σ (Except ε) α} {next : α → StateT σ (Except ε) β} {holds : Prop}
    (head : Judged judgement sound first True)
    (rest : ∀ value, Judged judgement sound (next value) holds) :
    Judged judgement sound (first >>= next) holds :=
  (head.bind rest).congr (iff_of_eq (true_and _))

/-- A step that depends on nothing may stand behind another one. -/
theorem before
    {first : StateT σ (Except ε) α} {next : α → StateT σ (Except ε) β} {holds : Prop}
    (head : Judged judgement sound first holds)
    (rest : ∀ value, Judged judgement sound (next value) True) :
    Judged judgement sound (first >>= next) holds :=
  (head.bind rest).congr (iff_of_eq (and_true _))

end Judged

end Covenant
