import Covenant.Contract.Verdict
import Covenant.Machine.Evaluate
import Covenant.Proofs.Action

/-!
# Constants mean the same before and during a run

An expression that folds to a literal before a run also evaluates to that
literal, in every scope and from every machine, and leaves the machine as it
was.  Only fuel can stop it: there is a least amount, which depends on the
expression alone.

Folding and evaluation are two recursions over the same trees.  They meet in
`Evaluates`, which is closed under every form of expression that folds.
-/

namespace Covenant.Contract

open Machine

attribute [local simp] evaluate

/--
An expression has one value in every scope and machine and leaves the machine
as it was, given at least some amount of fuel; with less it uses its fuel up.
-/
def Evaluates (bound : Nat) (expression : Expression) (value : Literal) : Prop :=
  ∀ (fuel : Nat) (scope : Scope) (machine : Machine),
    evaluate fuel scope expression machine =
      if bound ≤ fuel then .ok (.primitive value) machine else .error .exhausted machine

namespace Evaluates

theorem of_fuel {bound : Nat} {expression : Expression} {value : Literal}
    (evaluates : Evaluates bound expression value)
    {fuel : Nat} (enough : bound ≤ fuel) (scope : Scope) (machine : Machine) :
    evaluate fuel scope expression machine = .ok (.primitive value) machine := by
  rw [evaluates fuel scope machine, if_pos enough]

theorem of_shortage {bound : Nat} {expression : Expression} {value : Literal}
    (evaluates : Evaluates bound expression value)
    {fuel : Nat} (short : ¬ bound ≤ fuel) (scope : Scope) (machine : Machine) :
    evaluate fuel scope expression machine = .error .exhausted machine := by
  rw [evaluates fuel scope machine, if_neg short]

theorem literal (value : Literal) : Evaluates 1 (.literal value) value := by
  intro fuel scope machine
  cases fuel with
  | zero => simp
  | succ fuel => simp

end Evaluates

/-! ## The two sides on primitives -/

/-- A unary operator has the same result on a primitive as on the literal itself. -/
theorem unaryResult_primitive (store : Store) (operator : UnaryOperator) (operand : Literal) :
    unaryResult store operator (.primitive operand) = .primitive (operator.apply operand) := by
  cases operator <;> rfl

/-- A binary operator with a result on literals has the same one on primitives. -/
theorem binaryResult_primitive
    (store : Store)
    {operator : BinaryOperator}
    {left right result : Literal}
    (folds : operator.result? left right = some result) :
    binaryResult store operator (.primitive left) (.primitive right) =
      .ok (.primitive result) := by
  cases operator <;>
    simp_all [BinaryOperator.result?, binaryResult, Value.truth, Value.strictEquals,
      Value.looseEquals, Value.toPrimitive]

/-- The machine lets the same left operands decide as folding does. -/
theorem shortCircuits_primitive (operator : LogicalOperator) (left : Literal) :
    Machine.shortCircuits operator (.primitive left) = operator.shortCircuits left := by
  cases operator <;> rfl

/-! ## Evaluation of the forms that fold -/

namespace Evaluates

variable {bound leftBound rightBound : Nat}
variable {argument left right : Expression}
variable {operand leftValue rightValue result : Literal}

/-- An argument with a value is no name without a binding. -/
theorem isUnboundName_false
    (evaluates : Evaluates bound argument operand)
    (scope : Scope) (machine : Machine) :
    isUnboundName scope argument machine = .ok false machine := by
  cases argument with
  | identifier name =>
      have value := evaluates.of_fuel (Nat.le_succ bound) scope machine
      simp only [evaluate, Action.check, Store.read] at value
      cases found : machine.store.lookup? scope name with
      | none => simp [found] at value
      | some bound => simp [isUnboundName, found]
  | _ => rfl

theorem unary
    (operator : UnaryOperator)
    (evaluates : Evaluates bound argument operand) :
    Evaluates (bound + 1) (.unary operator argument) (operator.apply operand) := by
  intro fuel scope machine
  cases fuel with
  | zero => simp
  | succ fuel =>
      have named := evaluates.isUnboundName_false scope machine
      rw [evaluate, Action.bind_of_ok named]
      by_cases enough : bound ≤ fuel
      · have first := evaluates.of_fuel enough scope machine
        simp [Action.bind_of_ok first, enough, unaryResult_primitive]
      · have first := evaluates.of_shortage enough scope machine
        simp [Action.bind_of_error first, enough]

theorem binary
    {operator : BinaryOperator}
    (leftEvaluates : Evaluates leftBound left leftValue)
    (rightEvaluates : Evaluates rightBound right rightValue)
    (folds : operator.result? leftValue rightValue = some result) :
    Evaluates (max leftBound rightBound + 1) (.binary operator left right) result := by
  intro fuel scope machine
  cases fuel with
  | zero => simp
  | succ fuel =>
      rw [evaluate]
      by_cases leftEnough : leftBound ≤ fuel
      · rw [Action.bind_of_ok (leftEvaluates.of_fuel leftEnough scope machine)]
        by_cases rightEnough : rightBound ≤ fuel
        · rw [Action.bind_of_ok (rightEvaluates.of_fuel rightEnough scope machine),
            if_pos (by omega)]
          simp [Action.check, binaryResult_primitive machine.store folds]
        · rw [Action.bind_of_error (rightEvaluates.of_shortage rightEnough scope machine),
            if_neg (by omega)]
      · rw [Action.bind_of_error (leftEvaluates.of_shortage leftEnough scope machine),
          if_neg (by omega)]

/-- A left operand that decides is the value, whatever the right operand is. -/
theorem logical_left
    {operator : LogicalOperator}
    (evaluates : Evaluates leftBound left leftValue)
    (decides : operator.shortCircuits leftValue = true)
    (right : Expression) :
    Evaluates (leftBound + 1) (.logical operator left right) leftValue := by
  intro fuel scope machine
  cases fuel with
  | zero => simp
  | succ fuel =>
      rw [evaluate]
      by_cases enough : leftBound ≤ fuel
      · have first := evaluates.of_fuel enough scope machine
        simp [Action.bind_of_ok first, shortCircuits_primitive, decides, enough]
      · have first := evaluates.of_shortage enough scope machine
        simp [Action.bind_of_error first, enough]

/-- Where the left operand does not decide, the right operand has the value. -/
theorem logical_right
    {operator : LogicalOperator}
    (leftEvaluates : Evaluates leftBound left leftValue)
    (undecided : operator.shortCircuits leftValue = false)
    (rightEvaluates : Evaluates rightBound right rightValue) :
    Evaluates (max leftBound rightBound + 1) (.logical operator left right) rightValue := by
  intro fuel scope machine
  cases fuel with
  | zero => simp
  | succ fuel =>
      rw [evaluate]
      by_cases leftEnough : leftBound ≤ fuel
      · rw [Action.bind_of_ok (leftEvaluates.of_fuel leftEnough scope machine)]
        simp only [shortCircuits_primitive, undecided, Bool.false_eq_true, if_false]
        by_cases rightEnough : rightBound ≤ fuel
        · rw [rightEvaluates.of_fuel rightEnough scope machine, if_pos (by omega)]
        · rw [rightEvaluates.of_shortage rightEnough scope machine, if_neg (by omega)]
      · rw [Action.bind_of_error (leftEvaluates.of_shortage leftEnough scope machine),
          if_neg (by omega)]

end Evaluates

/-! ## Agreement -/

/-- Whatever folds evaluates to the literal that it folds to. -/
theorem exists_evaluates_of_fold?_eq_some
    {expression : Expression} {value : Literal}
    (folds : fold? expression = some value) :
    ∃ bound, Evaluates bound expression value := by
  fun_induction fold? expression generalizing value with
  | case1 literal =>
      cases folds
      exact ⟨1, Evaluates.literal literal⟩
  | case2 operator argument induction =>
      obtain ⟨operand, argumentFolds, rfl⟩ := Option.map_eq_some_iff.mp folds
      obtain ⟨bound, evaluates⟩ := induction argumentFolds
      exact ⟨bound + 1, evaluates.unary operator⟩
  | case3 operator left right leftValue rightValue rightFolds leftFolds leftInduction rightInduction =>
      obtain ⟨leftBound, leftEvaluates⟩ := leftInduction leftFolds
      obtain ⟨rightBound, rightEvaluates⟩ := rightInduction rightFolds
      exact ⟨_, leftEvaluates.binary rightEvaluates folds⟩
  | case4 => cases folds
  | case5 operator left right leftValue leftFolds decides leftInduction =>
      cases folds
      obtain ⟨leftBound, leftEvaluates⟩ := leftInduction leftFolds
      exact ⟨_, leftEvaluates.logical_left decides right⟩
  | case6 operator left right leftValue leftFolds undecided leftInduction rightInduction =>
      obtain ⟨leftBound, leftEvaluates⟩ := leftInduction leftFolds
      obtain ⟨rightBound, rightEvaluates⟩ := rightInduction folds
      exact ⟨_, leftEvaluates.logical_right (by simpa using undecided) rightEvaluates⟩
  | case7 => cases folds
  | case8 => cases folds

/-- Every run of an expression with one value ends in that value, if it ends in any. -/
theorem Evaluates.eq_of_ok
    {bound : Nat} {expression : Expression} {value : Literal}
    (evaluates : Evaluates bound expression value)
    {fuel : Nat} {scope : Scope} {machine after : Machine} {result : Value}
    (outcome : evaluate fuel scope expression machine = .ok result after) :
    result = .primitive value ∧ after = machine := by
  by_cases enough : bound ≤ fuel
  · rw [evaluates.of_fuel enough scope machine] at outcome
    cases outcome
    exact ⟨rfl, rfl⟩
  · rw [evaluates.of_shortage enough scope machine] at outcome
    cases outcome

/-- A verdict that names a value found it by folding. -/
theorem fold?_of_verdict_fails {condition : Expression} {value : Literal}
    (fails : verdict condition = .fails value) :
    fold? condition = some value ∧ value.isTruthy = false := by
  unfold verdict at fails
  split at fails
  · split at fails
    · cases fails
    · cases fails
      simp_all
  · cases fails

theorem fold?_of_verdict_holds {condition : Expression} {value : Literal}
    (holds : verdict condition = .holds value) :
    fold? condition = some value ∧ value.isTruthy = true := by
  unfold verdict at holds
  split at holds
  · split at holds
    · cases holds
      simp_all
    · cases holds
  · cases holds

/--
Folding never disagrees with a run: an expression that folds evaluates to the
literal and changes nothing, so a condition with the verdict that it fails is
false in every run that evaluates it, and one that holds is true.
-/
theorem fold_agrees_with_runs (expression : Expression) :
    (∀ value, fold? expression = some value →
      ∃ bound, Evaluates bound expression value) ∧
    (∀ value, verdict expression = .fails value →
      ∀ fuel scope machine result after,
        evaluate fuel scope expression machine = .ok result after →
          result.isTruthy = false) ∧
    (∀ value, verdict expression = .holds value →
      ∀ fuel scope machine result after,
        evaluate fuel scope expression machine = .ok result after →
          result.isTruthy = true) := by
  refine ⟨fun value folds => exists_evaluates_of_fold?_eq_some folds, ?_, ?_⟩
  · intro value fails fuel scope machine result after outcome
    obtain ⟨folds, falsy⟩ := fold?_of_verdict_fails fails
    obtain ⟨bound, evaluates⟩ := exists_evaluates_of_fold?_eq_some folds
    obtain ⟨rfl, rfl⟩ := evaluates.eq_of_ok outcome
    exact falsy
  · intro value holds fuel scope machine result after outcome
    obtain ⟨folds, truthy⟩ := fold?_of_verdict_holds holds
    obtain ⟨bound, evaluates⟩ := exists_evaluates_of_fold?_eq_some folds
    obtain ⟨rfl, rfl⟩ := evaluates.eq_of_ok outcome
    exact truthy

/-- The right operand, which no run may evaluate first, is not looked at. -/
theorem fold_agrees_with_runs_of_guarded_call :
    verdict
        (.logical .or
          (.binary .strictEq (.unary .typeOf (.literal .null)) (.literal (.string "object")))
          (.call (.identifier "unknown") [])) =
      .holds (.bool true) ∧
    ∀ fuel scope machine result after,
      evaluate fuel scope
          (.logical .or
            (.binary .strictEq (.unary .typeOf (.literal .null)) (.literal (.string "object")))
            (.call (.identifier "unknown") [])) machine =
        .ok result after →
      result.isTruthy = true :=
  ⟨by decide,
    (fold_agrees_with_runs
      (.logical .or
        (.binary .strictEq (.unary .typeOf (.literal .null)) (.literal (.string "object")))
        (.call (.identifier "unknown") []))).2.2 (.bool true) (by decide)⟩

end Covenant.Contract
