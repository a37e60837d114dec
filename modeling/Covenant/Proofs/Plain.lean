import Covenant.Proofs.Condition

/-!
# Plain expressions

An expression is plain if evaluating it does nothing but look and, where this
is allowed, call: it assigns nothing and contains no functions.  Calls of a
marker on a single argument, which stand for values on entry, can be excepted;
their argument is then plain as well.

Conditions without effects are plain, and capturing their values on entry
leaves them plain without exceptions.
-/

namespace Covenant

mutual

/-- Whether an expression is plain, given the excepted marker and whether calls are allowed. -/
def Expression.isPlain (marker : Option String) (calls : Bool) : Expression → Bool
  | .literal _ | .identifier _ | .receiver => true
  | .array elements => arePlain marker calls elements
  | .record properties => valuesArePlain marker calls properties
  | .unary _ argument => argument.isPlain marker calls
  | .binary _ left right | .logical _ left right =>
    left.isPlain marker calls && right.isPlain marker calls
  | .conditional test consequent alternate =>
    test.isPlain marker calls && consequent.isPlain marker calls &&
      alternate.isPlain marker calls
  | .call (.identifier name) [argument] =>
    if marker = some name then argument.isPlain none calls
    else calls && argument.isPlain marker calls
  | .call callee arguments | .construct callee arguments =>
    calls && callee.isPlain marker calls && arePlain marker calls arguments
  | .member object _ => object.isPlain marker calls
  | .index object key => object.isPlain marker calls && key.isPlain marker calls
  | .sequence expressions => arePlain marker calls expressions
  | .lambda _ | .update _ _ _ | .assign _ _ _ | .yield _ _ | .await _ => false

/-- Whether expressions are plain. -/
def arePlain (marker : Option String) (calls : Bool) : List Expression → Bool
  | [] => true
  | expression :: rest => expression.isPlain marker calls && arePlain marker calls rest

/-- Whether the values of properties are plain. -/
def valuesArePlain (marker : Option String) (calls : Bool) : List Property → Bool
  | [] => true
  | ⟨_, value⟩ :: rest => value.isPlain marker calls && valuesArePlain marker calls rest

end

/-- Whether an expression is plain if there is one. -/
def isPlainIfAny (marker : Option String) (calls : Bool) : Option Expression → Bool
  | none => true
  | some expression => expression.isPlain marker calls

open Contract in
/-- A call of the excepted marker is plain if its argument is. -/
theorem Expression.isPlain_of_marked
    {marker : String} {calls : Bool} {expression argument : Expression}
    (marked : Capture.argument? marker expression = some argument) :
    expression.isPlain (some marker) calls = argument.isPlain none calls := by
  unfold Capture.argument? at marked
  split at marked
  case h_1 name inner =>
    split at marked
    case isTrue equal =>
      cases marked
      rw [Expression.isPlain, if_pos (by rw [equal])]
    case isFalse => cases marked
  case h_2 => cases marked

open Contract in
/-- A call of the marker has just one argument. -/
theorem Contract.Capture.call_of_argument?
    {marker : String} {callee argument : Expression} {arguments : List Expression}
    (marked : Capture.argument? marker (.call callee arguments) = some argument) :
    callee = .identifier marker ∧ arguments = [argument] := by
  unfold Capture.argument? at marked
  split at marked
  case h_1 equal =>
    cases equal
    split at marked
    case isTrue same =>
      cases marked
      exact ⟨by rw [same], rfl⟩
    case isFalse => cases marked
  case h_2 => cases marked

open Contract in
/-- Every other call is plain if calls are allowed and its parts are plain. -/
theorem Expression.isPlain_of_unmarked
    {marker : Option String} {calls : Bool} {callee : Expression} {arguments : List Expression}
    (unmarked : ∀ name ∈ marker, Capture.argument? name (.call callee arguments) = none) :
    (Expression.call callee arguments).isPlain marker calls =
      (calls && callee.isPlain marker calls && arePlain marker calls arguments) := by
  by_cases shape : ∃ name argument, callee = .identifier name ∧ arguments = [argument]
  · obtain ⟨name, argument, rfl, rfl⟩ := shape
    have other : marker ≠ some name := by
      rintro rfl
      have absurd := unmarked name rfl
      simp [Capture.argument?] at absurd
    simp only [Expression.isPlain, if_neg other, arePlain, Bool.and_true]
  · rw [Expression.isPlain]
    intro name argument calleeEqual argumentsEqual
    exact shape ⟨name, argument, calleeEqual, argumentsEqual⟩

open Contract in
/-- Either a call is one of the excepted marker, or it is not. -/
theorem marked_or_unmarked (marker : Option String) (expression : Expression) :
    (∃ name argument, marker = some name ∧ Capture.argument? name expression = some argument) ∨
      ∀ name ∈ marker, Capture.argument? name expression = none := by
  cases marker with
  | none => exact .inr (by simp)
  | some name =>
      cases found : Capture.argument? name expression with
      | none => exact .inr (by simpa using found)
      | some argument => exact .inl ⟨name, argument, rfl, found⟩

end Covenant

namespace Covenant.Contract

mutual

/-- Without effects, an expression is plain if calls are allowed. -/
theorem isPlain_of_effectless
    {marker : Option String} : (expression : Expression) →
      Effectless (expression.nodes false) → expression.isPlain marker true = true
  | .literal _, _ | .identifier _, _ | .receiver, _ => by simp [Expression.isPlain]
  | .array elements, effectless => by
      simp only [Expression.nodes, effectless_cons] at effectless
      rw [Expression.isPlain]
      exact arePlain_of_effectless elements effectless.2
  | .record properties, effectless => by
      simp only [Expression.nodes, effectless_cons] at effectless
      rw [Expression.isPlain]
      exact valuesArePlain_of_effectless properties effectless.2
  | .lambda ⟨_, _, _, _, _, _⟩, effectless => by
      simp [Expression.nodes, Function.nodes, effect?] at effectless
  | .unary _ argument, effectless => by
      simp only [Expression.nodes, effectless_cons] at effectless
      rw [Expression.isPlain]
      exact isPlain_of_effectless argument effectless.2
  | .binary _ left right, effectless | .logical _ left right, effectless => by
      simp only [Expression.nodes, effectless_cons, effectless_append] at effectless
      rw [Expression.isPlain, isPlain_of_effectless left effectless.2.1,
        isPlain_of_effectless right effectless.2.2, Bool.and_self]
  | .conditional test consequent alternate, effectless => by
      simp only [Expression.nodes, effectless_cons, effectless_append] at effectless
      rw [Expression.isPlain, isPlain_of_effectless test effectless.2.1.1,
        isPlain_of_effectless consequent effectless.2.1.2,
        isPlain_of_effectless alternate effectless.2.2, Bool.and_self, Bool.and_self]
  | .call callee arguments, effectless => by
      simp only [Expression.nodes, effectless_cons, effectless_append] at effectless
      rcases marked_or_unmarked marker (.call callee arguments) with marked | unmarked
      · obtain ⟨name, argument, rfl, found⟩ := marked
        have unexcepted : arePlain none true arguments = true :=
          arePlain_of_effectless arguments effectless.2.2
        rw [Expression.isPlain_of_marked found]
        rw [(Capture.call_of_argument? found).2, arePlain, Bool.and_eq_true] at unexcepted
        exact unexcepted.1
      · rw [Expression.isPlain_of_unmarked unmarked,
          isPlain_of_effectless callee effectless.2.1,
          arePlain_of_effectless arguments effectless.2.2, Bool.and_self, Bool.and_self]
  | .construct callee arguments, effectless => by
      simp only [Expression.nodes, effectless_cons, effectless_append] at effectless
      rw [Expression.isPlain, isPlain_of_effectless callee effectless.2.1,
        arePlain_of_effectless arguments effectless.2.2, Bool.and_self, Bool.and_self]
  | .member object _, effectless => by
      simp only [Expression.nodes, effectless_cons] at effectless
      rw [Expression.isPlain]
      exact isPlain_of_effectless object effectless.2
  | .index object key, effectless => by
      simp only [Expression.nodes, effectless_cons, effectless_append] at effectless
      rw [Expression.isPlain, isPlain_of_effectless object effectless.2.1,
        isPlain_of_effectless key effectless.2.2, Bool.and_self]
  | .sequence expressions, effectless => by
      simp only [Expression.nodes, effectless_cons] at effectless
      rw [Expression.isPlain]
      exact arePlain_of_effectless expressions effectless.2
  | .update _ _ _, effectless | .assign _ _ _, effectless | .yield _ _, effectless
  | .await _, effectless => by
      simp [Expression.nodes, effect?] at effectless

/-- Without effects, expressions are plain if calls are allowed. -/
theorem arePlain_of_effectless
    {marker : Option String} : (expressions : List Expression) →
      Effectless (nodesOfExpressions false expressions) → arePlain marker true expressions = true
  | [], _ => by rw [arePlain]
  | expression :: rest, effectless => by
      rw [nodesOfExpressions, effectless_append] at effectless
      rw [arePlain, isPlain_of_effectless expression effectless.1,
        arePlain_of_effectless rest effectless.2, Bool.and_self]

/-- Without effects, values of properties are plain if calls are allowed. -/
theorem valuesArePlain_of_effectless
    {marker : Option String} : (properties : List Property) →
      Effectless (nodesOfProperties false properties) →
        valuesArePlain marker true properties = true
  | [], _ => by rw [valuesArePlain]
  | ⟨_, value⟩ :: rest, effectless => by
      rw [nodesOfProperties, effectless_append] at effectless
      rw [valuesArePlain, isPlain_of_effectless value effectless.1,
        valuesArePlain_of_effectless rest effectless.2, Bool.and_self]

end

end Covenant.Contract
