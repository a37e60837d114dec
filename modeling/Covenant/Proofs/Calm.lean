import Covenant.Proofs.Evaluation
import Covenant.Proofs.Plain

/-!
# What plain expressions leave alone

Evaluating a plain expression adds arrays and objects to the store, and calls
functions if it may.  Whatever neither of these disturbs is not disturbed by
the evaluation, in whichever scope it takes place.
-/

namespace Covenant

theorem arePlain_iff {marker : Option String} {calls : Bool} {expressions : List Expression} :
    arePlain marker calls expressions = true ↔
      ∀ expression ∈ expressions, expression.isPlain marker calls = true := by
  induction expressions with
  | nil => simp [arePlain]
  | cons expression rest induction => simp [arePlain, induction]

theorem valuesArePlain_iff {marker : Option String} {calls : Bool} {properties : List Property} :
    valuesArePlain marker calls properties = true ↔
      ∀ property ∈ properties, property.value.isPlain marker calls = true := by
  induction properties with
  | nil => simp [valuesArePlain]
  | cons property rest induction =>
      cases property
      simp [valuesArePlain, induction]

namespace Machine

/-- Whatever holds before an action that has a result holds after it. -/
def Action.Upholds {α : Type} (holds : Machine → Prop) (action : Action α) : Prop :=
  ∀ machine result after, holds machine → action machine = .ok result after → holds after

namespace Action.Upholds

variable {α β : Type} {holds : Machine → Prop}

theorem pure (value : α) : Action.Upholds holds (Pure.pure value) := by
  intro machine result after held outcome
  cases outcome
  exact held

theorem throw (stop : Stop) : Action.Upholds holds (throw stop : Action α) := by
  intro machine result after held outcome
  cases outcome

theorem query (look : Store → α) : Action.Upholds holds (Action.query look) := by
  intro machine result after held outcome
  cases outcome
  exact held

theorem check (look : Store → Except Fault α) : Action.Upholds holds (Action.check look) := by
  intro machine result after held outcome
  unfold Action.check at outcome
  split at outcome
  · cases outcome
    exact held
  · cases outcome

theorem bind {first : Action α} {next : α → Action β}
    (upholds : first.Upholds holds) (rest : ∀ value, (next value).Upholds holds) :
    (first >>= next).Upholds holds := by
  intro machine result after held outcome
  obtain ⟨value, between, firstOutcome, restOutcome⟩ := Action.bind_eq_ok.mp outcome
  exact rest value _ _ _ (upholds _ _ _ held firstOutcome) restOutcome

theorem mapM {action : α → Action β} : (values : List α) →
    (∀ value ∈ values, (action value).Upholds holds) → (values.mapM action).Upholds holds
  | [], _ => pure _
  | value :: rest, upholds => by
      rw [List.mapM_cons]
      refine (upholds value List.mem_cons_self).bind fun _ => ?_
      refine (mapM rest fun other member => ?_).bind fun _ => pure _
      exact upholds other (List.mem_cons_of_mem _ member)

end Action.Upholds

/-- What new arrays and objects do not disturb, nor calls if they are allowed. -/
structure Calm (calls : Bool) where
  holds : Machine → Prop
  array {machine : Machine} (elements : Array Value) :
    holds machine → holds { machine with store := (machine.store.addArray elements).2 }
  object {machine : Machine} (object : Object) :
    holds machine → holds { machine with store := (machine.store.addObject object).2 }
  call (fuel : Nat) (callee receiver : Value) (arguments : List Value) :
    calls = true → (Machine.call fuel callee receiver arguments).Upholds holds
  construct (fuel : Nat) (constructor : Value) (arguments : List Value) (source : Expression) :
    calls = true → (Machine.construct fuel constructor arguments source).Upholds holds

namespace Calm

open Covenant.Machine.Action (Upholds)

variable {calls : Bool} (calm : Calm calls)

section

variable {evaluate : Expression → Action Value}
  (upholds : ∀ expression, expression.isPlain none calls = true →
    (evaluate expression).Upholds calm.holds)

include upholds

theorem upholds_all {expressions : List Expression}
    (plain : arePlain none calls expressions = true) :
    (expressions.mapM evaluate).Upholds calm.holds :=
  .mapM expressions fun expression member =>
    upholds expression (arePlain_iff.mp plain expression member)

theorem upholds_lastValue : {expressions : List Expression} →
    arePlain none calls expressions = true →
      ∀ last, (lastValue evaluate last expressions).Upholds calm.holds
  | [], _, last => .pure last
  | expression :: rest, plain, _ => by
      rw [arePlain, Bool.and_eq_true] at plain
      exact (upholds expression plain.1).bind fun value => upholds_lastValue plain.2 value

theorem upholds_evaluateProperties {properties : List Property}
    (plain : valuesArePlain none calls properties = true) :
    (evaluateProperties evaluate properties).Upholds calm.holds := by
  refine Upholds.bind (.mapM properties fun property member => ?_) fun _ => .pure _
  exact (upholds property.value (valuesArePlain_iff.mp plain property member)).bind
    fun _ => .pure _

theorem upholds_calleeOf {callee : Expression} (plain : callee.isPlain none calls = true) :
    (calleeOf evaluate callee).Upholds calm.holds := by
  unfold calleeOf
  cases callee with
  | member object name =>
      rw [Expression.isPlain] at plain
      refine Upholds.bind ((upholds object plain).bind fun _ => .pure _) fun _ => ?_
      exact (Upholds.check _).bind fun _ => .pure _
  | index object key =>
      rw [Expression.isPlain, Bool.and_eq_true] at plain
      refine Upholds.bind ((upholds object plain.1).bind fun _ => ?_) fun _ => ?_
      · exact (upholds key plain.2).bind fun _ => (Upholds.query _).bind fun _ => .pure _
      · exact (Upholds.check _).bind fun _ => .pure _
  | _ => exact (upholds _ plain).bind fun _ => .pure _

end

/-- A plain expression disturbs nothing that calm things do not. -/
theorem upholds_evaluate : (fuel : Nat) → ∀ scope expression,
    expression.isPlain none calls = true →
      (evaluate fuel scope expression).Upholds calm.holds
  | 0, scope, expression, _ => by
      rw [evaluate]
      exact .throw _
  | fuel + 1, scope, expression, plain => by
      have inner := upholds_evaluate fuel scope
      cases expression with
      | literal literal =>
          rw [evaluate]
          exact .pure _
      | identifier name =>
          rw [evaluate]
          exact .check _
      | receiver =>
          rw [evaluate]
          exact .query _
      | array elements =>
          rw [Expression.isPlain] at plain
          rw [evaluate]
          refine (calm.upholds_all inner plain).bind fun values => ?_
          intro machine result after held outcome
          cases outcome
          exact calm.array values.toArray held
      | record properties =>
          rw [Expression.isPlain] at plain
          rw [evaluate]
          refine (calm.upholds_evaluateProperties inner plain).bind fun entries => ?_
          intro machine result after held outcome
          cases outcome
          exact calm.object ⟨.plain, entries⟩ held
      | unary operator argument =>
          rw [Expression.isPlain] at plain
          rw [evaluate]
          refine Upholds.bind ?_ fun isUnbound => ?_
          · cases argument with
            | identifier name =>
                rw [isUnboundName]
                exact .query _
            | _ => exact .pure _
          · split
            · exact .pure _
            · exact (inner argument plain).bind fun _ => .query _
      | binary operator left right =>
          rw [Expression.isPlain, Bool.and_eq_true] at plain
          rw [evaluate]
          exact (inner left plain.1).bind fun _ => (inner right plain.2).bind fun _ => .check _
      | logical operator left right =>
          rw [Expression.isPlain, Bool.and_eq_true] at plain
          rw [evaluate]
          refine (inner left plain.1).bind fun _ => ?_
          split
          · exact .pure _
          · exact inner right plain.2
      | conditional test consequent alternate =>
          rw [Expression.isPlain, Bool.and_eq_true, Bool.and_eq_true] at plain
          rw [evaluate]
          refine (inner test plain.1.1).bind fun _ => ?_
          split
          · exact inner consequent plain.1.2
          · exact inner alternate plain.2
      | call callee arguments =>
          rw [Expression.isPlain_of_unmarked (by simp), Bool.and_eq_true,
            Bool.and_eq_true] at plain
          rw [evaluate]
          refine (calm.upholds_calleeOf inner plain.1.2).bind fun found => ?_
          refine (calm.upholds_all inner plain.2).bind fun values => ?_
          split
          · exact calm.call fuel _ _ values plain.1.1
          · exact .throw _
      | construct callee arguments =>
          rw [Expression.isPlain, Bool.and_eq_true, Bool.and_eq_true] at plain
          rw [evaluate]
          refine (inner callee plain.1.2).bind fun constructor => ?_
          refine (calm.upholds_all inner plain.2).bind fun values => ?_
          exact calm.construct fuel constructor values callee plain.1.1
      | member object name =>
          rw [Expression.isPlain] at plain
          rw [evaluate]
          exact (inner object plain).bind fun _ => .check _
      | index object key =>
          rw [Expression.isPlain, Bool.and_eq_true] at plain
          rw [evaluate]
          exact (inner object plain.1).bind fun _ => (inner key plain.2).bind fun _ => .check _
      | sequence expressions =>
          rw [Expression.isPlain] at plain
          rw [evaluate]
          exact calm.upholds_lastValue inner plain _
      | lambda | update | assign | yield | await => cases plain

end Calm

end Machine

end Covenant
