import Covenant.Contract.Transform
import Covenant.Proofs.Checking
import Covenant.Proofs.Fuel

/-!
# Runs of routed statements

Statements whose returns are routed through a checker run as the statements
themselves do, up to the point where they return.  There the checker is called
with the value that is to be returned, and the run ends as it would have.

This holds wherever the checker is in reach: its name means the checker, and
nothing that runs there can change that.
-/

namespace Covenant.Contract

open Machine

/-! ## Checkers in reach -/

/-- The name of a checker means the checker in a scope, as a constant. -/
structure Reaches (checker : Checker) (parameter : String) (home scope : Scope)
    (store : Store) : Prop where
  wellScoped : store.WellScoped
  sees : store.Sees scope
  found : ∃ address closure,
    store.nearest? checker.name scope = some (address, ⟨.closure closure, false⟩) ∧
      store.closure? closure = some ⟨checker.function parameter, home⟩

/-- Statements that declare no names of a kind. -/
def avoiding (names : String → Prop) : Parts where
  expression _ := True
  function function := ∀ name ∈ function.name, ¬ names name
  declared declarators := ∀ name ∈ namesOfDeclarators declarators, ¬ names name

/-- Routing adds no declarations. -/
theorem avoiding_routes (names : String → Prop) (checker : Checker) :
    (avoiding names).Routes checker :=
  ⟨fun _ => trivial, trivial, trivial⟩

theorem avoiding_implies
    {names : String → Prop} {regime : Regime} {scope : Scope}
    (may : ∀ name, ¬ names name → regime.may scope name) :
    (avoiding names).Implies (regime.permits scope) where
  expression := fun _ => trivial
  function := fun avoids name member => may name (avoids name member)
  declared := fun avoids name member => may name (avoids name member)

namespace Reaches

variable {checker : Checker} {parameter : String} {home scope : Scope} {α : Type}

/-- Whatever declares no name of the checker leaves it in reach. -/
theorem after
    {machine final : Machine} {action : Action α} {result : α}
    (reaches : Reaches checker parameter home scope machine.store)
    (keeps : ∀ regime : Regime, (∀ name, ¬ name = checker.name → regime.may scope name) →
      regime.Keeps scope action)
    (outcome : action machine = .ok result final) :
    Reaches checker parameter home scope final.store := by
  have steady : machine.store.Steady (· = checker.name) final.store :=
    (keeps (steadiness (· = checker.name) machine.store)
      (fun _ other _ _ _ same => other same) machine result final (.refl _) trivial outcome).1
  have within := keeps scoping (fun _ _ => trivial) machine result final reaches.wellScoped
    reaches.sees outcome
  obtain ⟨address, closure, nearest, found⟩ := reaches.found
  exact ⟨within.1, reaches.sees.mono within.2, address, closure,
    steady.nearest?_eq_some rfl reaches.sees nearest, steady.closures closure _ found⟩

theorem after_evaluate
    {machine final : Machine} {fuel : Nat} {expression : Expression} {value : Value}
    (reaches : Reaches checker parameter home scope machine.store)
    (outcome : evaluate fuel scope expression machine = .ok value final) :
    Reaches checker parameter home scope final.store :=
  reaches.after (fun regime _ => (preserves regime fuel).evaluate scope expression) outcome

theorem after_execute
    {machine final : Machine} {fuel : Nat} {label : Option String} {statement : Statement}
    {completion : Completion}
    (reaches : Reaches checker parameter home scope machine.store)
    (avoids : (avoiding (· = checker.name)).OnStatement statement)
    (outcome : execute fuel scope label statement machine = .ok completion final) :
    Reaches checker parameter home scope final.store :=
  reaches.after (fun regime may => (preserves regime fuel).execute scope label statement
    (Parts.OnStatement.imp (avoiding_implies may) statement avoids)) outcome

theorem after_inTurn
    {machine final : Machine} {fuel : Nat} {statements : List Statement}
    {completion : Completion}
    (reaches : Reaches checker parameter home scope machine.store)
    (avoids : (avoiding (· = checker.name)).OnStatements statements)
    (outcome : inTurn (execute fuel scope none) statements machine = .ok completion final) :
    Reaches checker parameter home scope final.store := by
  refine reaches.after (fun regime may => Regime.keeps_inTurn statements fun statement member => ?_)
    outcome
  exact (preserves regime fuel).execute scope none statement
    (Parts.OnStatement.imp (avoiding_implies may) statement
      (Parts.onStatements_iff.mp avoids statement member))

theorem after_hoist
    {machine final : Machine} {statements : List Statement}
    (reaches : Reaches checker parameter home scope machine.store)
    (avoids : (avoiding (· = checker.name)).OnStatements statements)
    (outcome : hoist scope statements machine = .ok () final) :
    Reaches checker parameter home scope final.store :=
  reaches.after (fun _ may => Regime.keeps_hoist
    (Parts.OnStatements.imp (avoiding_implies may) statements avoids)) outcome

theorem after_startLoop
    {machine final : Machine} {fuel : Nat} {init : Option LoopInit}
    (reaches : Reaches checker parameter home scope machine.store)
    (avoids : (avoiding (· = checker.name)).OnLoopInit init)
    (outcome : startLoop (evaluate fuel scope) scope init machine = .ok () final) :
    Reaches checker parameter home scope final.store :=
  reaches.after (fun regime may => Regime.keeps_startLoop ((preserves regime fuel).evaluate scope)
    (Parts.OnLoopInit.imp (avoiding_implies may) init avoids)) outcome

theorem after_testRound
    {machine final : Machine} {fuel : Nat} {test : Option Expression} {goesOn : Bool}
    (reaches : Reaches checker parameter home scope machine.store)
    (outcome : testRound (evaluate fuel scope) test machine = .ok goesOn final) :
    Reaches checker parameter home scope final.store :=
  reaches.after (fun regime _ => Regime.keeps_testRound ((preserves regime fuel).evaluate scope)
    test) outcome

theorem after_stepRound
    {machine final : Machine} {fuel : Nat} {step : Option Expression}
    (reaches : Reaches checker parameter home scope machine.store)
    (outcome : stepRound (evaluate fuel scope) step machine = .ok () final) :
    Reaches checker parameter home scope final.store :=
  reaches.after (fun regime _ => Regime.keeps_stepRound ((preserves regime fuel).evaluate scope)
    step) outcome

/-- A checker is in reach of a block in its scope. -/
theorem enter
    {store : Store} (reaches : Reaches checker parameter home scope store) :
    Reaches checker parameter home (⟨store.frames.size⟩ :: scope) (store.addFrame []).2 := by
  have steady : store.Steady (· = checker.name) (store.addFrame []).2 :=
    (steadiness (· = checker.name) store).addFrame [] (.refl _)
  obtain ⟨address, closure, nearest, found⟩ := reaches.found
  refine ⟨scoping.addFrame [] reaches.wellScoped, reaches.sees.enter [], address, closure, ?_,
    found⟩
  rw [Store.nearest?, Store.frame_addFrame]
  exact steady.nearest?_eq_some rfl reaches.sees nearest

end Reaches

/-! ## Runs that follow each other -/

/-- What follows when a run ends with a value: a check of the value. -/
def Passed (check : Value → Machine → Machine → Prop) :
    Completion → Machine → Machine → Prop
  | .returned value, machine, after => check value machine after
  | _, machine, after => after = machine

/--
A run trails another one if it ends in the same way, and if it returns a value,
after a check of that value.
-/
def Trails (check : Value → Machine → Machine → Prop) (own routed : Action Completion)
    (machine : Machine) : Prop :=
  ∀ completion after, routed machine = .ok completion after →
    ∃ between, own machine = .ok completion between ∧ Passed check completion between after

namespace Trails

variable {check : Value → Machine → Machine → Prop}

/-- Actions that are the same trail each other if they do not return. -/
theorem same {action : Action Completion} {machine : Machine}
    (stays : ∀ value after, action machine ≠ .ok (.returned value) after) :
    Trails check action action machine := by
  intro completion after outcome
  refine ⟨after, outcome, ?_⟩
  cases completion with
  | returned value => exact (stays value after outcome).elim
  | _ => rfl

/-- Runs go on in the same way after a common beginning. -/
theorem bind {α : Type} {first : Action α} {own routed : α → Action Completion}
    {machine : Machine}
    (rest : ∀ value between, first machine = .ok value between →
      Trails check (own value) (routed value) between) :
    Trails check (first >>= own) (first >>= routed) machine := by
  intro completion after outcome
  obtain ⟨value, between, begun, outcome⟩ := Action.bind_eq_ok.mp outcome
  obtain ⟨final, ends, passed⟩ := rest value between begun completion after outcome
  exact ⟨final, Action.bind_eq_ok.mpr ⟨value, between, begun, ends⟩, passed⟩

/--
Runs that continue after runs of which one trails the other trail each other,
if what returns is passed on and all else is continued in the same way.
-/
theorem andThen
    {own routed : Action Completion} {next other : Completion → Action Completion}
    {machine : Machine}
    (trails : Trails check own routed machine)
    (returns : ∀ value, next (.returned value) = pure (.returned value) ∧
      other (.returned value) = pure (.returned value))
    (rest : ∀ completion between, own machine = .ok completion between →
      (∀ value, completion ≠ .returned value) →
        Trails check (next completion) (other completion) between) :
    Trails check (own >>= next) (routed >>= other) machine := by
  intro completion after outcome
  obtain ⟨first, between, routedFirst, outcome⟩ := Action.bind_eq_ok.mp outcome
  obtain ⟨middle, ownFirst, passed⟩ := trails first between routedFirst
  cases first with
  | returned value =>
      rw [(returns value).2] at outcome
      cases outcome
      refine ⟨middle, Action.bind_eq_ok.mpr ⟨_, middle, ownFirst, ?_⟩, passed⟩
      rw [(returns value).1]
      rfl
  | finished | broken label | continued label =>
      cases passed
      obtain ⟨final, ends, passes⟩ := rest _ between ownFirst (by simp) completion after outcome
      exact ⟨final, Action.bind_eq_ok.mpr ⟨_, between, ownFirst, ends⟩, passes⟩

end Trails

section

variable {parameter : String} {home : Scope} {found : List Condition}

/-- How a routed run follows the run of the statements themselves. -/
def Follows (parameter : String) (home : Scope) (found : List Condition)
    (own routed : Action Completion) (machine : Machine) : Prop :=
  ∀ completion after, routed machine = .ok completion after →
    ∃ between,
      own machine = .ok completion between ∧
        Passed (Checked parameter home (found.map Condition.test)) completion between after

theorem Follows.same {action : Action Completion} {machine : Machine}
    (stays : ∀ value after, action machine ≠ .ok (.returned value) after) :
    Follows parameter home found action action machine :=
  Trails.same stays

theorem Follows.bind {α : Type} {first : Action α} {own routed : α → Action Completion}
    {machine : Machine}
    (rest : ∀ value between, first machine = .ok value between →
      Follows parameter home found (own value) (routed value) between) :
    Follows parameter home found (first >>= own) (first >>= routed) machine :=
  Trails.bind rest

theorem Follows.andThen
    {own routed : Action Completion} {next other : Completion → Action Completion}
    {machine : Machine}
    (follows : Follows parameter home found own routed machine)
    (returns : ∀ value, next (.returned value) = pure (.returned value) ∧
      other (.returned value) = pure (.returned value))
    (rest : ∀ completion between, own machine = .ok completion between →
      (∀ value, completion ≠ .returned value) →
        Follows parameter home found (next completion) (other completion) between) :
    Follows parameter home found (own >>= next) (routed >>= other) machine :=
  Trails.andThen follows returns rest

end

/-! ## Calls in the place of returns -/

/-- The name of a checker that is in reach denotes the checker when it is called. -/
theorem Reaches.calleeOf
    {checker : Checker} {parameter : String} {home scope : Scope} {machine : Machine}
    (reaches : Reaches checker parameter home scope machine.store) :
    ∃ closure,
      machine.store.closure? closure = some ⟨checker.function parameter, home⟩ ∧
        ∀ fuel,
          Machine.calleeOf (evaluate (fuel + 1) scope) (.identifier checker.name) machine =
            .ok (.closure closure, .undefined) machine := by
  obtain ⟨address, closure, nearest, known⟩ := reaches.found
  refine ⟨closure, known, fun fuel => ?_⟩
  have read : evaluate (fuel + 1) scope (.identifier checker.name) machine =
      .ok (.closure closure) machine := by
    rw [evaluate, Action.check, Store.read, Store.lookup?, nearest]
    rfl
  exact Action.bind_of_ok read

section

variable {checker : Checker} {found : List Condition} (checks : checker.Checks found)
  {parameter : String} {home : Scope}

include checks

/-- A call of a checker that is in reach checks the value of its argument. -/
theorem checked_of_evaluate
    {fuel : Nat} {scope : Scope} {argument : Expression} {machine after : Machine}
    {result : Value}
    (reaches : Reaches checker parameter home scope machine.store)
    (outcome : evaluate (fuel + 1) scope (checker.call (some argument)) machine =
      .ok result after) :
    ∃ between,
      evaluate fuel scope argument machine = .ok result between ∧
        Checked parameter home (found.map Condition.test) result between after := by
  obtain ⟨closure, known, denotes⟩ := reaches.calleeOf
  rw [Checker.call, evaluate] at outcome
  cases fuel with
  | zero => cases outcome
  | succ fuel =>
      rw [Action.bind_of_ok (denotes fuel), Option.toList_some, List.mapM_cons, List.mapM_nil]
        at outcome
      obtain ⟨values, between, arguments, called⟩ := Action.bind_eq_ok.mp outcome
      obtain ⟨value, final, evaluated, listed⟩ := Action.bind_eq_ok.mp arguments
      cases listed
      have same : between.store.closure? closure = some ⟨checker.function parameter, home⟩ := by
        have steady : machine.store.Steady (· = checker.name) between.store :=
          ((preserves (steadiness (· = checker.name) machine.store) (fuel + 1)).evaluate scope
            argument machine value between (.refl _) trivial evaluated).1
        exact steady.closures closure _ known
      obtain ⟨rfl, checked⟩ :=
        checked_of_call checks (reaches.after_evaluate evaluated).wellScoped same called
      exact ⟨between, evaluated, checked⟩

/-- A bare call of a checker that is in reach checks the absent value. -/
theorem checked_of_check
    {fuel : Nat} {scope : Scope} {label : Option String} {machine after : Machine}
    {completion : Completion}
    (reaches : Reaches checker parameter home scope machine.store)
    (outcome : execute fuel scope label checker.check machine = .ok completion after) :
    completion = .finished ∧
      Checked parameter home (found.map Condition.test) .undefined machine after := by
  obtain ⟨closure, known, denotes⟩ := reaches.calleeOf
  cases fuel with
  | zero => cases outcome
  | succ fuel =>
      rw [Checker.check, execute] at outcome
      obtain ⟨_, final, discarded, finished⟩ := Action.bind_eq_ok.mp outcome
      obtain ⟨value, last, called, dropped⟩ := Action.bind_eq_ok.mp discarded
      cases dropped
      cases finished
      refine ⟨rfl, ?_⟩
      cases fuel with
      | zero => cases called
      | succ fuel =>
          rw [Checker.call, evaluate] at called
          cases fuel with
          | zero => cases called
          | succ fuel =>
              rw [Action.bind_of_ok (denotes fuel), Option.toList_none, List.mapM_nil] at called
              exact (checked_of_call checks reaches.wellScoped known called).2

/-- A routed return follows the return itself. -/
theorem follows_giveBack
    {fuel : Nat} {scope : Scope} {label : Option String} {machine : Machine}
    (reaches : Reaches checker parameter home scope machine.store)
    (argument : Option Expression) :
    Follows parameter home found (execute (fuel + 1) scope label (.giveBack argument))
      (execute (fuel + 1) scope label (checker.route (.giveBack argument))) machine := by
  intro completion after outcome
  rw [Checker.route, execute] at outcome
  obtain ⟨value, last, called, returned⟩ := Action.bind_eq_ok.mp outcome
  cases returned
  cases fuel with
  | zero => cases called
  | succ fuel =>
      obtain ⟨between, evaluated, checked⟩ := checked_of_evaluate checks reaches called
      refine ⟨between, ?_, checked⟩
      cases argument with
      | none =>
          cases fuel with
          | zero => cases evaluated
          | succ fuel =>
              rw [Option.getD_none, evaluate] at evaluated
              cases evaluated
              rw [execute]
              rfl
      | some argument =>
          rw [execute]
          have more := ((moreFuel_of_le (Nat.le_succ fuel)).evaluate scope argument).of_ok evaluated
          exact Action.bind_of_ok more

end

/-! ## Routed statements -/

section

variable {checker : Checker} {found : List Condition} {parameter : String} {home : Scope}

section

variable {fuel : Nat}
  (induction : ∀ scope label statement machine,
    Reaches checker parameter home scope machine.store →
      (avoiding (· = checker.name)).OnStatement statement →
        Follows parameter home found (execute fuel scope label statement)
          (execute fuel scope label (checker.route statement)) machine)

include induction

/-- Routed statements in turn follow the statements themselves. -/
theorem follows_inTurn {scope : Scope} : (statements : List Statement) → ∀ machine,
    Reaches checker parameter home scope machine.store →
      (avoiding (· = checker.name)).OnStatements statements →
        Follows parameter home found (inTurn (execute fuel scope none) statements)
          (inTurn (execute fuel scope none) (checker.routeAll statements)) machine
  | [], machine, _, _ => by
      rw [Checker.routeAll]
      refine .same fun value after outcome => ?_
      cases outcome
  | statement :: rest, machine, reaches, avoids => by
      rw [Parts.OnStatements] at avoids
      rw [Checker.routeAll, inTurn, inTurn]
      refine (induction scope none statement machine reaches avoids.1).andThen
        (fun value => ⟨rfl, rfl⟩) fun completion between outcome unreturned => ?_
      cases completion with
      | finished =>
          exact follows_inTurn rest between (reaches.after_execute avoids.1 outcome) avoids.2
      | returned value => exact (unreturned value rfl).elim
      | _ =>
          refine .same fun value after equal => ?_
          cases equal

end

/-- Routing keeps the functions that statements declare. -/
theorem hoist_routeAll (checker : Checker) (scope : Scope) (statements : List Statement) :
    hoist scope (checker.routeAll statements) = hoist scope statements := by
  induction statements with
  | nil => rw [Checker.routeAll]
  | cons statement rest others =>
      unfold hoist at others ⊢
      rw [Checker.routeAll, List.forM, List.forM, others]
      cases statement <;> rw [Checker.route] <;> intros <;> contradiction

/-- Everything that runs statements follows them when they are routed. -/
structure RunsRouted (checker : Checker) (found : List Condition) (parameter : String)
    (home : Scope) (fuel : Nat) : Prop where
  execute (scope : Scope) (label : Option String) (statement : Statement) (machine : Machine) :
    Reaches checker parameter home scope machine.store →
      (avoiding (· = checker.name)).OnStatement statement →
        Follows parameter home found (execute fuel scope label statement)
          (execute fuel scope label (checker.route statement)) machine
  executeAll (scope : Scope) (statements : List Statement) (machine : Machine) :
    Reaches checker parameter home scope machine.store →
      (avoiding (· = checker.name)).OnStatements statements →
        Follows parameter home found (executeAll fuel scope statements)
          (executeAll fuel scope (checker.routeAll statements)) machine
  rounds (scope : Scope) (label : Option String) (test step : Option Expression)
      (body : Statement) (machine : Machine) :
    Reaches checker parameter home scope machine.store →
      (avoiding (· = checker.name)).OnStatement body →
        Follows parameter home found (rounds fuel scope label test step body)
          (rounds fuel scope label test step (checker.route body)) machine

namespace RunsRouted

theorem zero : RunsRouted checker found parameter home 0 where
  execute _ _ _ _ _ _ := by
    intro completion after outcome
    cases outcome
  executeAll _ _ _ _ _ := by
    intro completion after outcome
    cases outcome
  rounds _ _ _ _ _ _ _ _ := by
    intro completion after outcome
    cases outcome

variable {fuel : Nat} (runs : RunsRouted checker found parameter home fuel)

include runs

theorem executeAll_succ
    (scope : Scope) (statements : List Statement) (machine : Machine)
    (reaches : Reaches checker parameter home scope machine.store)
    (avoids : (avoiding (· = checker.name)).OnStatements statements) :
    Follows parameter home found (Machine.executeAll (fuel + 1) scope statements)
      (Machine.executeAll (fuel + 1) scope (checker.routeAll statements)) machine := by
  rw [Machine.executeAll, Machine.executeAll, hoist_routeAll]
  refine .bind fun _ between hoisted => ?_
  exact follows_inTurn runs.execute statements between (reaches.after_hoist avoids hoisted) avoids

/-- What comes behind a round of a loop follows if the rounds do. -/
theorem follows_afterRound
    {scope : Scope} {label : Option String} {test : Option Expression} {body : Statement}
    {between : Machine} (step : Option Expression) (completion : Completion)
    (unreturned : ∀ value, completion ≠ .returned value)
    (reaches : Reaches checker parameter home scope between.store)
    (avoids : (avoiding (· = checker.name)).OnStatement body) :
    Follows parameter home found
      (match completion.afterRound label with
        | some completion => pure completion
        | none => do
          stepRound (evaluate fuel scope) step
          Machine.rounds fuel scope label test step body)
      (match completion.afterRound label with
        | some completion => pure completion
        | none => do
          stepRound (evaluate fuel scope) step
          Machine.rounds fuel scope label test step (checker.route body)) between := by
  cases goesOn : completion.afterRound label with
  | some final =>
      refine .same fun value after equal => ?_
      cases equal
      cases completion with
      | returned given => exact unreturned given rfl
      | finished => cases goesOn
      | broken target | continued target =>
          cases target <;> simp only [Completion.afterRound] at goesOn
          all_goals first | cases goesOn | (split at goesOn <;> cases goesOn)
  | none =>
      refine .bind fun _ later stepped => ?_
      exact runs.rounds scope label test step body later (reaches.after_stepRound stepped) avoids

theorem rounds_succ
    (scope : Scope) (label : Option String) (test step : Option Expression) (body : Statement)
    (machine : Machine)
    (reaches : Reaches checker parameter home scope machine.store)
    (avoids : (avoiding (· = checker.name)).OnStatement body) :
    Follows parameter home found (Machine.rounds (fuel + 1) scope label test step body)
      (Machine.rounds (fuel + 1) scope label test step (checker.route body)) machine := by
  rw [Machine.rounds_succ, Machine.rounds_succ]
  refine .bind fun goesOn between tested => ?_
  have still := reaches.after_testRound tested
  split
  · refine (runs.execute scope none body between still avoids).andThen
      (fun value => ⟨rfl, rfl⟩) fun completion later outcome unreturned => ?_
    exact runs.follows_afterRound step completion unreturned
      (still.after_execute avoids outcome) avoids
  · refine .same fun value after equal => ?_
    cases equal

theorem execute_succ
    (checks : checker.Checks found) (scope : Scope) (label : Option String) (statement : Statement) (machine : Machine)
    (reaches : Reaches checker parameter home scope machine.store)
    (avoids : (avoiding (· = checker.name)).OnStatement statement) :
    Follows parameter home found (Machine.execute (fuel + 1) scope label statement)
      (Machine.execute (fuel + 1) scope label (checker.route statement)) machine := by
  cases statement with
  | giveBack argument => exact follows_giveBack checks reaches argument
  | block statements =>
      rw [Parts.OnStatement] at avoids
      rw [Checker.route, Machine.execute, Machine.execute]
      refine .bind fun inner between entered => ?_
      cases entered
      refine runs.executeAll _ statements _ reaches.enter ?_
      exact avoids
  | labeled label body =>
      rw [Parts.OnStatement] at avoids
      rw [Checker.route, Machine.execute, Machine.execute]
      refine (runs.execute scope (some label) body machine reaches avoids).andThen
        (fun value => ⟨rfl, rfl⟩) fun completion between outcome unreturned => ?_
      refine .same fun value after equal => ?_
      cases completion with
      | returned given => exact unreturned given rfl
      | broken target =>
          cases target <;> simp only [Completion.afterLabel] at equal
          all_goals first | cases equal | (split at equal <;> cases equal)
      | _ => cases equal
  | branch test consequent alternate =>
      rw [Parts.OnStatement] at avoids
      rw [Checker.route, execute_branch, execute_branch]
      refine .bind fun chosen between tested => ?_
      have still := reaches.after_evaluate tested
      split
      · exact runs.execute scope none consequent between still avoids.2.1
      · cases alternate with
        | none =>
            rw [Checker.routeAlternate]
            refine .same fun value after equal => ?_
            cases equal
        | some alternate =>
            rw [Checker.routeAlternate]
            exact runs.execute scope none alternate between still avoids.2.2
  | whileLoop test body =>
      rw [Parts.OnStatement] at avoids
      rw [Checker.route, Machine.execute, Machine.execute]
      exact runs.rounds scope label (some test) none body machine reaches avoids.2
  | doWhileLoop body test =>
      rw [Parts.OnStatement] at avoids
      rw [Checker.route, Machine.execute, Machine.execute]
      refine (runs.execute scope none body machine reaches avoids.2).andThen
        (fun value => ⟨rfl, rfl⟩) fun completion between outcome unreturned => ?_
      exact runs.follows_afterRound none completion unreturned
        (reaches.after_execute avoids.2 outcome) avoids.2
  | forLoop init test step body =>
      rw [Parts.OnStatement] at avoids
      rw [Checker.route, execute_forLoop, execute_forLoop]
      refine .bind fun inner between entered => ?_
      cases entered
      refine .bind fun _ later started => ?_
      exact runs.rounds _ label test step body later (reaches.enter.after_startLoop avoids.1 started)
        avoids.2.2.2
  | evaluate | bindings | declare | raise | breakOut | continueLoop | empty =>
      rw [Checker.route]
      · refine .same fun value after outcome => ?_
        rw [Machine.execute] at outcome
        first
          | cases outcome
          | (obtain ⟨_, _, _, ends⟩ := Action.bind_eq_ok.mp outcome
             cases ends)
      all_goals intros; contradiction

/-- With one more step of fuel routed statements still follow. -/
theorem succ (checks : checker.Checks found) :
    RunsRouted checker found parameter home (fuel + 1) :=
  ⟨runs.execute_succ checks, runs.executeAll_succ, runs.rounds_succ⟩

end RunsRouted

/-- Routed statements run as the statements themselves, and what they return is checked. -/
theorem runsRouted (checks : checker.Checks found) :
    (fuel : Nat) → RunsRouted checker found parameter home fuel
  | 0 => .zero
  | fuel + 1 => (runsRouted checks fuel).succ checks

end

end Covenant.Contract
