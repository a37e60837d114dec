import Covenant.Proofs.Performance

/-!
# Where a run returns

The statements of a function are run as parts of each other, and the functions
that they call are not among these parts.  Where statements end with a value, a
return has been executed as one of their parts, and nothing has been executed
after it.
-/

namespace Covenant.Machine

namespace Task

/-- Whether a task is to run statements. -/
def runsStatements : Task → Bool
  | execute _ _ _ | executeAll _ _ | rounds _ _ _ _ _ => true
  | evaluate _ _ | construct _ _ _ | call _ _ _ => false

end Task

/--
A task is performed in the course of another one by the statements of one
function: no expression is evaluated and no function called in between.
-/
inductive PerformsOwn (less : Nat) (inner : Task) (start : Machine) :
    Nat → Task → Machine → Prop where
  /-- It is the other one itself. -/
  | itself : PerformsOwn less inner start less inner start
  /-- It is performed in the course of a part of the other one that runs statements. -/
  | part {fuel : Nat} {task next : Task} {machine between : Machine} :
      Part fuel task machine next between → next.runsStatements = true →
        PerformsOwn less inner start fuel next between →
          PerformsOwn less inner start (fuel + 1) task machine

/-- What is performed by the statements of a function is performed. -/
theorem PerformsOwn.performs {less fuel : Nat} {inner task : Task} {start machine : Machine}
    (performs : PerformsOwn less inner start fuel task machine) :
    Performs less inner start fuel task machine := by
  induction performs with
  | itself => exact .itself
  | part part _ _ induction => exact .part part induction

/-- What holds of a task that runs statements and of its parts holds of what they perform. -/
theorem PerformsOwn.induct {holds : Task → Machine → Prop}
    (step : ∀ {fuel : Nat} {task next : Task} {machine between : Machine},
      Part fuel task machine next between → next.runsStatements = true → holds task machine →
        holds next between)
    {less fuel : Nat} {inner task : Task} {start machine : Machine}
    (performs : PerformsOwn less inner start fuel task machine) :
    holds task machine → holds inner start := by
  induction performs with
  | itself => exact id
  | part part runs _ induction => exact fun given => induction (step part runs given)

/-! ## Statements in turn -/

/-- Where statements in turn do not reach their end, they are left by one of them. -/
theorem exists_of_inTurn {execute : Statement → Action Completion} {completion : Completion}
    {after : Machine} (unfinished : completion ≠ .finished) :
    ∀ {statements : List Statement} {machine : Machine},
      inTurn execute statements machine = .ok completion after →
        ∃ before statement rest between,
          statements = before ++ statement :: rest ∧
            inTurn execute before machine = .ok .finished between ∧
              execute statement between = .ok completion after := by
  intro statements
  induction statements with
  | nil =>
      intro machine outcome
      cases outcome
      exact (unfinished rfl).elim
  | cons first rest induction =>
      intro machine outcome
      rw [inTurn] at outcome
      obtain ⟨step, middle, begun, outcome⟩ := Action.bind_eq_ok.mp outcome
      cases step with
      | finished =>
          obtain ⟨before, statement, later, between, rfl, ran, left⟩ := induction outcome
          refine ⟨first :: before, statement, later, between, rfl, ?_, left⟩
          rw [inTurn]
          exact Action.bind_eq_ok.mpr ⟨_, _, begun, ran⟩
      | returned | broken | continued =>
          cases outcome
          exact ⟨[], first, rest, machine, rfl, rfl, begun⟩

/-! ## Returns -/

/-- A task performs a return with which its statements are left. -/
def GivesBack (value : Value) (after : Machine) (fuel : Nat) (task : Task) (machine : Machine) :
    Prop :=
  ∃ less scope label argument start,
    PerformsOwn less (.execute scope label (.giveBack argument)) start fuel task machine ∧
      execute less scope label (.giveBack argument) start = .ok (.returned value) after

/-- A task performs the return that one of its parts performs. -/
theorem GivesBack.part {value : Value} {after : Machine} {fuel : Nat} {task next : Task}
    {machine between : Machine} (gives : GivesBack value after fuel next between)
    (part : Part fuel task machine next between) (runs : next.runsStatements = true) :
    GivesBack value after (fuel + 1) task machine := by
  obtain ⟨less, scope, label, argument, start, performs, returned⟩ := gives
  exact ⟨less, scope, label, argument, start, .part part runs performs, returned⟩

/-- Statements that are run with some fuel end with a value only by a return. -/
structure ReturnsWith (fuel : Nat) : Prop where
  execute {scope : Scope} {label : Option String} {statement : Statement} {machine after : Machine}
    {value : Value} :
    execute fuel scope label statement machine = .ok (.returned value) after →
      GivesBack value after fuel (.execute scope label statement) machine
  executeAll {scope : Scope} {statements : List Statement} {machine after : Machine}
    {value : Value} :
    executeAll fuel scope statements machine = .ok (.returned value) after →
      GivesBack value after fuel (.executeAll scope statements) machine
  rounds {scope : Scope} {label : Option String} {test step : Option Expression} {body : Statement}
    {machine after : Machine} {value : Value} :
    rounds fuel scope label test step body machine = .ok (.returned value) after →
      GivesBack value after fuel (.rounds scope label test step body) machine

namespace ReturnsWith

theorem zero : ReturnsWith 0 where
  execute outcome := by cases outcome
  executeAll outcome := by cases outcome
  rounds outcome := by cases outcome

/-- A loop that ends with a value behind a round has got it from the round. -/
theorem eq_of_afterRound {label : Option String} {completion : Completion} {value : Value}
    (ends : completion.afterRound label = some (.returned value)) :
    completion = .returned value := by
  cases completion with
  | finished => cases ends
  | returned => exact Option.some.inj ends
  | broken target | continued target =>
      cases target with
      | none => cases ends
      | some target =>
          rw [Completion.afterRound] at ends
          split at ends <;> cases ends

/-- A labeled statement that ends with a value has got it from what is labeled. -/
theorem eq_of_afterLabel {label : String} {completion : Completion} {value : Value}
    (ends : completion.afterLabel label = .returned value) : completion = .returned value := by
  cases completion with
  | broken target =>
      cases target with
      | none => cases ends
      | some target =>
          rw [Completion.afterLabel] at ends
          split at ends <;> cases ends
  | finished | returned | continued => exact ends

variable {fuel : Nat} (less : ReturnsWith fuel) {scope : Scope} {label : Option String}
  {machine after : Machine} {value : Value}

include less

theorem execute_succ {statement : Statement}
    (outcome : Machine.execute (fuel + 1) scope label statement machine =
      .ok (.returned value) after) :
    GivesBack value after (fuel + 1) (.execute scope label statement) machine := by
  cases statement with
  | giveBack argument => exact ⟨_, _, _, _, _, .itself, outcome⟩
  | evaluate | bindings =>
      rw [Machine.execute] at outcome
      obtain ⟨_, _, _, ends⟩ := Action.bind_eq_ok.mp outcome
      cases ends
  | raise =>
      rw [Machine.execute] at outcome
      obtain ⟨_, _, _, ends⟩ := Action.bind_eq_ok.mp outcome
      cases ends
  | declare | breakOut | continueLoop | empty => cases outcome
  | block statements =>
      rw [Machine.execute] at outcome
      obtain ⟨inner, entered, begun, outcome⟩ := Action.bind_eq_ok.mp outcome
      cases begun
      exact (less.executeAll outcome).part .block rfl
  | labeled own body =>
      rw [Machine.execute] at outcome
      obtain ⟨completion, between, ran, ends⟩ := Action.bind_eq_ok.mp outcome
      injection ends with same equal
      subst equal
      rw [eq_of_afterLabel same] at ran
      exact (less.execute ran).part .labeled rfl
  | branch test consequent alternate =>
      rw [execute_branch] at outcome
      obtain ⟨chosen, between, tested, outcome⟩ := Action.bind_eq_ok.mp outcome
      split at outcome
      case isTrue holds => exact (less.execute outcome).part (.consequent tested holds) rfl
      case isFalse fails =>
        cases alternate with
        | none => cases outcome
        | some alternate =>
            exact (less.execute outcome).part
              (.alternate tested (Bool.eq_false_iff.mpr fails)) rfl
  | whileLoop test body =>
      rw [Machine.execute] at outcome
      exact (less.rounds outcome).part .whileLoop rfl
  | doWhileLoop body test =>
      rw [Machine.execute] at outcome
      obtain ⟨completion, between, ran, outcome⟩ := Action.bind_eq_ok.mp outcome
      cases ends : completion.afterRound label with
      | some ending =>
          rw [ends] at outcome
          cases outcome
          rw [eq_of_afterRound ends] at ran
          exact (less.execute ran).part .firstRound rfl
      | none =>
          rw [ends] at outcome
          exact (less.rounds outcome).part (.doWhileLoop ran ends) rfl
  | forLoop init test step body =>
      rw [execute_forLoop] at outcome
      obtain ⟨inner, entered, begun, outcome⟩ := Action.bind_eq_ok.mp outcome
      cases begun
      obtain ⟨_, between, started, outcome⟩ := Action.bind_eq_ok.mp outcome
      exact (less.rounds outcome).part (.forLoop started) rfl

theorem executeAll_succ {statements : List Statement}
    (outcome : Machine.executeAll (fuel + 1) scope statements machine =
      .ok (.returned value) after) :
    GivesBack value after (fuel + 1) (.executeAll scope statements) machine := by
  rw [Machine.executeAll] at outcome
  obtain ⟨_, hoisted, begun, outcome⟩ := Action.bind_eq_ok.mp outcome
  have unfinished : Completion.returned value ≠ .finished := by simp
  obtain ⟨before, statement, rest, between, rfl, ran, returned⟩ :=
    exists_of_inTurn unfinished outcome
  exact (less.execute returned).part (.statement begun ran) rfl

theorem rounds_succ {test step : Option Expression} {body : Statement}
    (outcome : Machine.rounds (fuel + 1) scope label test step body machine =
      .ok (.returned value) after) :
    GivesBack value after (fuel + 1) (.rounds scope label test step body) machine := by
  rw [Machine.rounds_succ] at outcome
  obtain ⟨goesOn, between, tested, outcome⟩ := Action.bind_eq_ok.mp outcome
  cases goesOn with
  | false => cases outcome
  | true =>
      obtain ⟨completion, ended, ran, outcome⟩ := Action.bind_eq_ok.mp outcome
      cases ends : completion.afterRound label with
      | some ending =>
          rw [ends] at outcome
          cases outcome
          rw [eq_of_afterRound ends] at ran
          exact (less.execute ran).part (.round tested) rfl
      | none =>
          rw [ends] at outcome
          obtain ⟨_, stepped, step, outcome⟩ := Action.bind_eq_ok.mp outcome
          exact (less.rounds outcome).part (.again tested ran ends step) rfl

end ReturnsWith

/-- Statements end with a value only by a return that they perform last. -/
theorem returnsWith : (fuel : Nat) → ReturnsWith fuel
  | 0 => .zero
  | fuel + 1 => ⟨(returnsWith fuel).execute_succ, (returnsWith fuel).executeAll_succ,
      (returnsWith fuel).rounds_succ⟩

end Covenant.Machine
