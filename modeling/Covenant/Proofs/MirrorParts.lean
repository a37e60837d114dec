import Covenant.Proofs.Mirror
import Covenant.Proofs.Woven

/-!
# Parts of expressions and statements that correspond

Where evaluating corresponding expressions has corresponding values, so have
the parts that evaluation consists of: lists of expressions, properties, places
and functions that are called, and the steps of loops.
-/

namespace Covenant

/-! ## Lists of parts -/

namespace Exchange

variable {exchange : Exchange}

theorem OnExpressions.forall₂
    {source target : List Expression} (related : exchange.OnExpressions source target) :
    List.Forall₂ exchange.OnExpression source target := by
  induction source generalizing target with
  | nil =>
      cases related
      exact .nil
  | cons expression rest inductionHypothesis =>
      cases related with
      | cons first second => exact .cons first (inductionHypothesis second)

theorem OnProperties.forall₂
    {source target : List Property} (related : exchange.OnProperties source target) :
    List.Forall₂ (fun property other => property.key = other.key ∧
      exchange.OnExpression property.value other.value) source target := by
  induction source generalizing target with
  | nil =>
      cases related
      exact .nil
  | cons property rest inductionHypothesis =>
      cases related with
      | cons first second => exact .cons ⟨rfl, first⟩ (inductionHypothesis second)

end Exchange

namespace Machine

open Covenant.Machine.Action (Mirrors)

/-- Corresponding expressions have corresponding values in scopes that correspond. -/
def MirrorsEvaluation (code : Correspondence)
    (first second : Scope → Expression → Action Value) : Prop :=
  ∀ ⦃pairing : Pairing⦄ ⦃scope corresponding : Scope⦄ ⦃expression other : Expression⦄,
    pairing.RelatesScope scope corresponding → code.exchange.OnExpression expression other →
      Mirrors code pairing Pairing.Relates (first scope expression) (second corresponding other)

/-- A value and a key that correspond. -/
def Pairing.RelatesBase (pairing : Pairing) (found other : Value × String) : Prop :=
  pairing.Relates found.1 other.1 ∧ found.2 = other.2

section

variable {code : Correspondence} {first second : Scope → Expression → Action Value}
  (mirrors : MirrorsEvaluation code first second)
  {pairing : Pairing} {scope corresponding : Scope}
  (scopes : pairing.RelatesScope scope corresponding)

include mirrors scopes

theorem mirrors_all
    {expressions others : List Expression}
    (related : code.exchange.OnExpressions expressions others) :
    Mirrors code pairing Pairing.RelatesAll (expressions.mapM (first scope))
      (others.mapM (second corresponding)) :=
  .mapM .mono related.forall₂ fun _ _ _ grows inner => mirrors (scopes.mono grows) inner

theorem mirrors_lastValue
    {expressions others : List Expression}
    (related : code.exchange.OnExpressions expressions others) {last other : Value}
    (lasts : pairing.Relates last other) :
    Mirrors code pairing Pairing.Relates (lastValue (first scope) last expressions)
      (lastValue (second corresponding) other others) := by
  induction expressions generalizing pairing others last other with
  | nil =>
      cases related
      exact .pure lasts
  | cons expression rest inductionHypothesis =>
      cases related with
      | cons head tail =>
          refine (mirrors scopes head).bind fun later _ _ grows values => ?_
          exact inductionHypothesis (scopes.mono grows) tail values

theorem mirrors_evaluateProperties
    {properties others : List Property}
    (related : code.exchange.OnProperties properties others) :
    Mirrors code pairing Pairing.RelatesEntries (evaluateProperties (first scope) properties)
      (evaluateProperties (second corresponding) others) := by
  refine @Mirrors.bind _ _ _ _ _ _ Pairing.RelatesEntries _ _ _ _ _ ?_
    fun _ _ _ _ entries => .pure entries.ofList
  refine .mapM (fun given grows => ⟨given.1, given.2.mono grows⟩) related.forall₂ ?_
  rintro later ⟨key, value⟩ ⟨_, other⟩ grows ⟨rfl, inner⟩
  exact (mirrors (scopes.mono grows) inner).bind fun _ _ _ _ values => .pure ⟨rfl, values⟩

theorem mirrors_declareVariables
    (kind : DeclarationKind) {declarators others : List Declarator}
    (related : code.exchange.OnDeclarators declarators others) :
    Mirrors code pairing (fun _ _ _ => True)
      (declareVariables (first scope) scope kind declarators)
      (declareVariables (second corresponding) corresponding kind others) := by
  unfold declareVariables
  induction related generalizing pairing with
  | nil => exact .pure trivial
  | cons known head tail inductionHypothesis =>
      rw [List.forM, List.forM]
      refine Mirrors.next ?_ fun later grows => ?_
      · cases head with
        | none => exact mirrors_declare scopes known ⟨.primitive .undefined, rfl⟩
        | some inner =>
            exact (mirrors scopes inner).bind fun _ _ _ grows values =>
              mirrors_declare (scopes.mono grows) known ⟨values, rfl⟩
      · exact inductionHypothesis (scopes.mono grows)

/-- Corresponding expressions denote corresponding properties, or none of them does any. -/
theorem mirrors_propertyOf?
    {expression other : Expression} (related : code.exchange.OnExpression expression other) :
    (propertyOf? (first scope) expression = none ∧
      propertyOf? (second corresponding) other = none) ∨
      ∃ found find, propertyOf? (first scope) expression = some found ∧
        propertyOf? (second corresponding) other = some find ∧
          Mirrors code pairing Pairing.RelatesBase found find := by
  cases related with
  | member inner =>
      refine .inr ⟨_, _, rfl, rfl, ?_⟩
      exact (mirrors scopes inner).bind fun _ _ _ _ bases => .pure ⟨bases, rfl⟩
  | index left right =>
      refine .inr ⟨_, _, rfl, rfl, ?_⟩
      refine (mirrors scopes left).bind fun later _ _ grows bases => ?_
      refine (mirrors (scopes.mono grows) right).bind fun last _ _ more keys => ?_
      refine Mirrors.bind (.querySame fun _ _ given => given.toKey_eq keys)
        fun final key same most equal => ?_
      exact .pure ⟨(bases.mono more).mono most, equal⟩
  | exchanged given => cases given
  | _ => exact .inl ⟨rfl, rfl⟩

theorem mirrors_placeOf
    {target other : Expression} (related : code.exchange.OnExpression target other) :
    Mirrors code pairing (fun later => later.RelatesPlace code) (placeOf (first scope) target)
      (placeOf (second corresponding) other) := by
  unfold placeOf
  rcases mirrors_propertyOf? mirrors scopes related with ⟨left, right⟩ | denoted
  · cases related with
    | identifier known => exact .pure (.binding known)
    | member inner => cases left
    | index object key => cases left
    | exchanged given => cases given
    | _ => exact .throw _ _
  · obtain ⟨found, find, left, right, inner⟩ := denoted
    cases related with
    | member object | index object key =>
        cases left
        cases right
        refine inner.bind fun later base other grows bases => ?_
        obtain ⟨base, key⟩ := base
        obtain ⟨other, _⟩ := other
        obtain ⟨bases, rfl⟩ := bases
        exact .pure (.property bases key)
    | exchanged given => cases given
    | _ => cases left

theorem mirrors_calleeOf
    {callee other : Expression} (related : code.exchange.OnExpression callee other) :
    Mirrors code pairing
      (fun later found find => later.Relates found.1 find.1 ∧ later.Relates found.2 find.2)
      (calleeOf (first scope) callee) (calleeOf (second corresponding) other) := by
  unfold calleeOf
  rcases mirrors_propertyOf? mirrors scopes related with ⟨left, right⟩ | denoted
  · rw [left, right]
    exact (mirrors scopes related).bind fun _ _ _ _ functions =>
      .pure ⟨functions, .primitive .undefined⟩
  · obtain ⟨found, find, left, right, inner⟩ := denoted
    rw [left, right]
    refine inner.bind fun later base found grows bases => ?_
    obtain ⟨base, key⟩ := base
    obtain ⟨found, _⟩ := found
    obtain ⟨bases, rfl⟩ := bases
    exact (mirrors_property bases key).bind fun _ _ _ more functions =>
      .pure ⟨functions, bases.mono more⟩

theorem mirrors_startLoop
    {init other : Option LoopInit} (related : code.exchange.OnLoopInit init other) :
    Mirrors code pairing (fun _ _ _ => True) (startLoop (first scope) scope init)
      (startLoop (second corresponding) corresponding other) := by
  cases related with
  | none => exact .pure trivial
  | bindings inner => exact mirrors_declareVariables mirrors scopes _ inner
  | evaluate inner => exact (mirrors scopes inner).bind fun _ _ _ _ _ => .pure trivial

theorem mirrors_testRound
    {test other : Option Expression} (related : code.exchange.OnOptional test other) :
    Mirrors code pairing (fun _ goesOn same => goesOn = same) (testRound (first scope) test)
      (testRound (second corresponding) other) := by
  cases related with
  | none => exact .pure rfl
  | some inner =>
      exact (mirrors scopes inner).bind fun _ _ _ _ chosen => .pure chosen.isTruthy_eq

theorem mirrors_stepRound
    {step other : Option Expression} (related : code.exchange.OnOptional step other) :
    Mirrors code pairing (fun _ _ _ => True) (stepRound (first scope) step)
      (stepRound (second corresponding) other) := by
  cases related with
  | none => exact .pure trivial
  | some inner => exact (mirrors scopes inner).bind fun _ _ _ _ _ => .pure trivial

end

section

variable {code : Correspondence} {pairing : Pairing} {scope corresponding : Scope}
  (scopes : pairing.RelatesScope scope corresponding)

include scopes

theorem mirrors_isUnboundName
    {expression other : Expression} (related : code.exchange.OnExpression expression other) :
    Mirrors code pairing (fun _ unbound same => unbound = same) (isUnboundName scope expression)
      (isUnboundName corresponding other) := by
  cases related with
  | identifier known =>
      rw [isUnboundName, isUnboundName]
      refine .querySame fun left right given => ?_
      have found := given.lookup?_related known scopes
      generalize left.lookup? scope _ = value at found ⊢
      generalize right.lookup? corresponding _ = other at found ⊢
      cases found <;> rfl
  | exchanged given => cases given
  | _ => exact .pure rfl

/-- Functions that statements declare are declared alike, and checks declare none. -/
theorem mirrors_hoist
    {statements others : List Statement} (related : Woven.OnStatements code statements others) :
    Mirrors code pairing (fun _ _ _ => True) (hoist scope statements)
      (hoist corresponding others) := by
  unfold hoist
  induction statements generalizing pairing scope corresponding others with
  | nil =>
      cases related
      exact .pure trivial
  | cons statement rest inductionHypothesis =>
      rw [List.forM]
      cases related with
      | silent silent second =>
          cases silent with
          | guard plain =>
              obtain ⟨_, _, rfl, _⟩ := plain
              exact inductionHypothesis scopes second
          | check | declaration | constant => exact inductionHypothesis scopes second
      | cons first second =>
          rw [List.forM]
          refine Mirrors.next ?_ fun later grows => inductionHypothesis (scopes.mono grows) second
          cases first with
          | declare inner =>
              dsimp only
              rw [← (code.alike inner).name]
              split
              case h_1 name named =>
                exact (mirrors_makeClosure scopes inner).bind fun _ _ _ grows closures =>
                  mirrors_declare (scopes.mono grows) (code.named inner named) ⟨closures, rfl⟩
              case h_2 => exact .pure trivial
          | _ => exact .pure trivial

end

end Machine

end Covenant
