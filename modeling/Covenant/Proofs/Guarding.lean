import Covenant.Proofs.Assembly
import Covenant.Proofs.Violation

/-!
# The first guard that fails

The guards of a contract evaluate its conditions one after the other.  The
first condition that stops the run, or comes out false, decides how the guards
end; the conditions after it are not evaluated, and no message is but its own.

A guard throws an error only where the name `Error` means the built-in
constructor when the condition has been evaluated.  It is not enough that the
name does so before: a condition may call a function that assigns to the name.
-/

namespace Covenant.Contract

open Machine

/-! ## One guard -/

section

variable {less : Nat} {scope : Scope} {label : Option String} {test message : Expression}
  {machine between after : Machine} {value : Value} {stop : Stop}

/-- A block that has been entered sees the names around it. -/
theorem lookup?_enterFrame (name : String) :
    machine.enterFrame.store.lookup? (⟨machine.store.frames.size⟩ :: scope) name =
      machine.store.lookup? scope name := by
  have same (address : FrameAddress) :
      machine.enterFrame.store.frame address = machine.store.frame address := by
    simp only [enterFrame, Store.addFrame, Store.frame, Array.getD_eq_getD_getElem?,
      Array.getElem?_push]
    split
    case isTrue last => simp [last]
    case isFalse => rfl
  have outer (names : Scope) :
      machine.enterFrame.store.nearest? name names = machine.store.nearest? name names := by
    induction names with
    | nil => rfl
    | cons address rest induction => rw [Store.nearest?, Store.nearest?, same, induction]
  have empty : machine.store.frame ⟨machine.store.frames.size⟩ = [] := by
    simp [Store.frame]
  rw [Store.lookup?, Store.lookup?, Store.nearest?, same, empty, outer]
  rfl

/-- A guard stops where its test stops. -/
theorem execute_guardClause_of_stopped
    (stopped : evaluate less scope test machine = .error stop after) :
    execute (less + 2) scope label (guardClause test message) machine = .error stop after := by
  rw [guardClause, execute_branch]
  refine Action.bind_of_error ?_
  rw [evaluate_not_apply, Action.bind_of_error stopped]

/-- A guard whose test is true does nothing else. -/
theorem execute_guardClause_of_true
    (evaluated : evaluate less scope test machine = .ok value between)
    (truthy : value.isTruthy = true) :
    execute (less + 2) scope label (guardClause test message) machine = .ok .finished between := by
  have negated : evaluate (less + 1) scope (.unary .not test) machine =
      .ok (.truth false) between := by
    rw [evaluate_not_apply, Action.bind_of_ok evaluated, Action.query_apply, unaryResult, truthy]
    rfl
  rw [guardClause, execute_branch, Action.bind_of_ok negated]
  rfl

/-- A guard whose test is false stops where its message stops. -/
theorem execute_guardClause_of_unsaid
    (evaluated : evaluate (less + 4) scope test machine = .ok value between)
    (falsy : value.isTruthy = false)
    (means : between.store.lookup? scope "Error" = some (.builtin .makeError))
    (stopped : evaluate (less + 1) (⟨between.store.frames.size⟩ :: scope) message
      between.enterFrame = .error stop after) :
    execute (less + 6) scope label (guardClause test message) machine = .error stop after := by
  rw [← lookup?_enterFrame] at means
  rw [execute_guardClause_of_false label evaluated falsy]
  refine Action.bind_of_error ?_
  rw [evaluate_construct_error_apply means, Action.bind_of_error stopped]

/-- A guard goes into its block only if its test is false. -/
theorem part_of_guardClause {next : Task} {start : Machine}
    (part : Part less (.execute scope label (guardClause test message)) machine next start) :
    next = .evaluate scope (.unary .not test) ∧ start = machine ∨
      next = .execute scope none (.block [.raise (.construct (.identifier "Error") [message])]) ∧
        ∃ fuel value, evaluate fuel scope test machine = .ok value start ∧
          value.isTruthy = false := by
  cases part with
  | subject starts =>
      cases starts
      exact .inl ⟨rfl, rfl⟩
  | consequent negated truthy =>
      cases less with
      | zero => cases negated
      | succ less =>
          obtain ⟨operand, evaluated, opposite⟩ := evaluate_not negated
          rw [truthy] at opposite
          exact .inr ⟨rfl, less, operand, evaluated, by simpa using opposite.symm⟩

end

/-! ## Guards in order -/

variable {site : Site} {scope : Scope} {conditions : List Condition}
  {machine : Machine} {result : EStateM.Result Stop Machine Completion}

/-- How the guards of conditions go from a machine on, and how they end. -/
inductive GuardRun (site : Site) (scope : Scope) :
    List Condition → Machine → EStateM.Result Stop Machine Completion → Prop where
  /-- There is no condition left. -/
  | passed {machine : Machine} : GuardRun site scope [] machine (.ok .finished machine)
  /-- The first condition comes out true, and the others are evaluated. -/
  | holds {condition : Condition} {rest : List Condition} {machine between : Machine}
      {value : Value} {result : EStateM.Result Stop Machine Completion} :
      Ends (evaluate · scope condition.test) machine (.ok value between) →
        value.isTruthy = true → GuardRun site scope rest between result →
          GuardRun site scope (condition :: rest) machine result
  /-- The first condition stops the run. -/
  | stops {condition : Condition} {rest : List Condition} {machine after : Machine}
      {stop : Stop} :
      Ends (evaluate · scope condition.test) machine (.error stop after) →
        GuardRun site scope (condition :: rest) machine (.error stop after)
  /-- The first condition comes out false, and an error with its message is thrown. -/
  | fails {condition : Condition} {rest : List Condition} {machine between said : Machine}
      {value text : Value} :
      Ends (evaluate · scope condition.test) machine (.ok value between) →
        value.isTruthy = false →
          Ends (evaluate · (⟨between.store.frames.size⟩ :: scope) (condition.message site))
              between.enterFrame (.ok text said) →
            GuardRun site scope (condition :: rest) machine
              (.error (.fault (.thrown (said.store.addError text).1))
                { said with store := (said.store.addError text).2 })
  /-- The first condition comes out false, and its message stops the run. -/
  | messageStops {condition : Condition} {rest : List Condition} {machine between after : Machine}
      {value : Value} {stop : Stop} :
      Ends (evaluate · scope condition.test) machine (.ok value between) →
        value.isTruthy = false →
          Ends (evaluate · (⟨between.store.frames.size⟩ :: scope) (condition.message site))
              between.enterFrame (.error stop after) →
            GuardRun site scope (condition :: rest) machine (.error stop after)

/-- The first condition that does not come out true comes out false, and leaves a machine. -/
inductive FirstFails (scope : Scope) : List Condition → Machine → Machine → Prop where
  | here {condition : Condition} {rest : List Condition} {machine between : Machine}
      {value : Value} :
      Ends (evaluate · scope condition.test) machine (.ok value between) →
        value.isTruthy = false → FirstFails scope (condition :: rest) machine between
  | later {condition : Condition} {rest : List Condition} {machine between after : Machine}
      {value : Value} :
      Ends (evaluate · scope condition.test) machine (.ok value between) →
        value.isTruthy = true → FirstFails scope rest between after →
          FirstFails scope (condition :: rest) machine after

/--
What the guards of conditions perform: the negated test of a condition once all
conditions before it have come out true, and its block once it has come out false.
-/
inductive GuardPart (site : Site) (scope : Scope) :
    List Condition → Machine → Task → Machine → Prop where
  | test {condition : Condition} {rest : List Condition} {machine : Machine} :
      GuardPart site scope (condition :: rest) machine
        (.evaluate scope (.unary .not condition.test)) machine
  | block {condition : Condition} {rest : List Condition} {machine between : Machine}
      {value : Value} :
      Ends (evaluate · scope condition.test) machine (.ok value between) →
        value.isTruthy = false →
          GuardPart site scope (condition :: rest) machine
            (.execute scope none
              (.block [.raise (.construct (.identifier "Error") [condition.message site])]))
            between
  | later {condition : Condition} {rest : List Condition} {machine between start : Machine}
      {value : Value} {task : Task} :
      Ends (evaluate · scope condition.test) machine (.ok value between) →
        value.isTruthy = true → GuardPart site scope rest between task start →
          GuardPart site scope (condition :: rest) machine task start

/-- The name `Error` means the built-in constructor where the first condition has failed. -/
def ErrorMeant (scope : Scope) (conditions : List Condition) (machine : Machine) : Prop :=
  ∀ between, FirstFails scope conditions machine between →
    between.store.lookup? scope "Error" = some (.builtin .makeError)

theorem ends_evaluate {fuel : Nat} {expression : Expression} {after : Machine} {value : Value}
    (outcome : evaluate fuel scope expression machine = .ok value after) :
    Ends (evaluate · scope expression) machine (.ok value after) :=
  ⟨nofun, fuel, outcome⟩

/-- However the guards end with some fuel, they have gone as guards go. -/
theorem guardRun_of_inTurn {fuel : Nat} (means : ErrorMeant scope conditions machine)
    (settled : ∀ after, result ≠ .error .exhausted after)
    (outcome : inTurn (execute (fuel + 6) scope none) (conditions.map (Condition.clause site))
      machine = result) : GuardRun site scope conditions machine result := by
  -- The offsets are those of a guard: its test is nested two steps deep in it, its message five.
  induction conditions generalizing machine with
  | nil =>
      subst outcome
      exact .passed
  | cons condition rest induction =>
      rw [List.map_cons, inTurn, Condition.clause] at outcome
      cases tested : evaluate (fuel + 4) scope condition.test machine with
      | error stop after =>
          rw [Action.bind_of_error (execute_guardClause_of_stopped tested)] at outcome
          subst outcome
          exact .stops ⟨by simpa using settled, fuel + 4, tested⟩
      | ok value between =>
          have evaluated : Ends (evaluate · scope condition.test) machine (.ok value between) :=
            ends_evaluate tested
          cases truthy : value.isTruthy with
          | true =>
              rw [Action.bind_of_ok (execute_guardClause_of_true tested truthy)] at outcome
              refine .holds evaluated truthy (induction (fun after failed => ?_) outcome)
              exact means after (.later evaluated truthy failed)
          | false =>
              have meant := means between (.here evaluated truthy)
              cases said : evaluate (fuel + 1) (⟨between.store.frames.size⟩ :: scope)
                  (condition.message site) between.enterFrame with
              | error stop after =>
                  rw [Action.bind_of_error
                    (execute_guardClause_of_unsaid tested truthy meant said)] at outcome
                  subst outcome
                  exact .messageStops evaluated truthy ⟨by simpa using settled, fuel + 1, said⟩
              | ok text after =>
                  rw [← lookup?_enterFrame] at meant
                  rw [Action.bind_of_error
                    (execute_guardClause_of_violated none tested truthy meant said)] at outcome
                  subst outcome
                  exact .fails evaluated truthy (ends_evaluate said)

/-- Guards end as they go, given enough fuel. -/
theorem GuardRun.inTurn (run : GuardRun site scope conditions machine result)
    (means : ErrorMeant scope conditions machine) :
    ∃ fuel, ∀ more, fuel ≤ more →
      Machine.inTurn (execute (more + 6) scope none) (conditions.map (Condition.clause site))
        machine = result := by
  induction run with
  | passed => exact ⟨0, fun _ _ => rfl⟩
  | @holds condition rest machine between value result evaluated truthy _ induction =>
      obtain ⟨enough, tests⟩ := evaluated.eventually (steady_evaluate scope condition.test)
      -- What fails first among the rest fails first among all, since this condition holds.
      obtain ⟨fuel, others⟩ := induction fun after failed =>
        means after (.later evaluated truthy failed)
      refine ⟨max enough fuel, fun more le => ?_⟩
      have tested := tests (more + 4) (by omega)
      rw [List.map_cons, Machine.inTurn, Condition.clause,
        Action.bind_of_ok (execute_guardClause_of_true tested truthy)]
      exact others more (by omega)
  | @stops condition rest machine after stop stopped =>
      obtain ⟨enough, tests⟩ := stopped.eventually (steady_evaluate scope condition.test)
      refine ⟨enough, fun more le => ?_⟩
      have tested := tests (more + 4) (by omega)
      rw [List.map_cons, Machine.inTurn, Condition.clause,
        Action.bind_of_error (execute_guardClause_of_stopped tested)]
  | @fails condition rest machine between said value text evaluated falsy states =>
      obtain ⟨enough, tests⟩ := evaluated.eventually (steady_evaluate scope condition.test)
      obtain ⟨fuel, messages⟩ := states.eventually (steady_evaluate _ _)
      have meant := means between (.here evaluated falsy)
      rw [← lookup?_enterFrame] at meant
      refine ⟨max enough fuel, fun more le => ?_⟩
      have tested := tests (more + 4) (by omega)
      have stated := messages (more + 1) (by omega)
      rw [List.map_cons, Machine.inTurn, Condition.clause,
        Action.bind_of_error (execute_guardClause_of_violated none tested falsy meant stated)]
  | @messageStops condition rest machine between after value stop evaluated falsy states =>
      obtain ⟨enough, tests⟩ := evaluated.eventually (steady_evaluate scope condition.test)
      obtain ⟨fuel, messages⟩ := states.eventually (steady_evaluate _ _)
      have meant := means between (.here evaluated falsy)
      refine ⟨max enough fuel, fun more le => ?_⟩
      have tested := tests (more + 4) (by omega)
      have stopped := messages (more + 1) (by omega)
      rw [List.map_cons, Machine.inTurn, Condition.clause,
        Action.bind_of_error (execute_guardClause_of_unsaid tested falsy meant stopped)]

theorem GuardRun.settled (run : GuardRun site scope conditions machine result) :
    ∀ after, result ≠ .error .exhausted after := by
  induction run with
  | passed | fails => exact fun _ equal => by cases equal
  | holds _ _ _ induction => exact induction
  | stops stopped => simpa using stopped.1
  | messageStops _ _ stopped => simpa using stopped.1

/-- Guards declare no functions, so nothing is done before the first one. -/
theorem hoist_clauses :
    hoist scope (conditions.map (Condition.clause site)) machine = .ok () machine := by
  refine hoist_of_noDeclarations fun function member => ?_
  obtain ⟨condition, _, equal⟩ := List.mem_map.mp member
  cases equal

theorem executeAll_clauses (fuel : Nat) :
    executeAll (fuel + 1) scope (conditions.map (Condition.clause site)) machine =
      inTurn (execute fuel scope none) (conditions.map (Condition.clause site)) machine := by
  rw [executeAll, Action.bind_of_ok hoist_clauses]

/-- The guards of conditions end just as guards go. -/
theorem ends_clauses_iff (means : ErrorMeant scope conditions machine) :
    Ends (executeAll · scope (conditions.map (Condition.clause site))) machine result ↔
      GuardRun site scope conditions machine result := by
  constructor
  · intro ends
    obtain ⟨fuel, always⟩ := ends.eventually (steady_executeAll _ _)
    have outcome := always (fuel + 7) (by omega)
    rw [executeAll_clauses] at outcome
    exact guardRun_of_inTurn means ends.1 outcome
  · intro run
    obtain ⟨fuel, always⟩ := run.inTurn means
    exact ⟨run.settled, fuel + 7, (executeAll_clauses _).trans (always fuel (Nat.le_refl _))⟩

/-- A guard that is executed comes after guards whose conditions have come out true. -/
theorem guardPart_of_inTurn {fuel : Nat} {before rest : List Statement} {guard : Statement}
    {begun start : Machine} {next : Task}
    (split : conditions.map (Condition.clause site) = before ++ guard :: rest)
    (ended : inTurn (execute (fuel + 1) scope none) before machine = .ok .finished begun)
    (part : Part fuel (.execute scope none guard) begun next start) :
    GuardPart site scope conditions machine next start := by
  induction before generalizing conditions machine with
  | nil =>
      cases ended
      obtain _ | ⟨condition, others⟩ := conditions
      · cases split
      · obtain ⟨rfl, _⟩ := List.cons.inj split
        rcases part_of_guardClause part with ⟨rfl, rfl⟩ | ⟨rfl, less, value, evaluated, falsy⟩
        · exact .test
        · exact .block (ends_evaluate evaluated) falsy
  | cons first before induction =>
      obtain _ | ⟨condition, others⟩ := conditions
      · cases split
      · obtain ⟨rfl, others⟩ := List.cons.inj split
        rw [inTurn] at ended
        obtain ⟨completion, between, guarded, ended⟩ := Action.bind_eq_ok.mp ended
        obtain ⟨rfl, less, value, evaluated, truthy⟩ := execute_guardClause guarded
        exact .later (ends_evaluate evaluated) truthy
          (induction others ended)

/-- The guards are the clauses of the conditions that a body has been prepared for. -/
theorem clauses_of_assemble {body : Statement} {clauses : List Statement}
    (assembles : assemble site body = .ok clauses) (states : prepare site body = .ok conditions) :
    clauses = conditions.map (Condition.clause site) := by
  unfold assemble at assembles
  rw [states] at assembles
  exact guards_eq_ok assembles

/--
The guards of a contract evaluate its conditions in order.  They end where the
first condition that does not come out true stops the run, or with the error
that it throws, as long as the name `Error` means the built-in constructor
there; they reach their end if there is no such condition.  No other condition
and no other message is evaluated.
-/
theorem first_failing_guard_wins {body : Statement} {clauses : List Statement}
    (assembles : assemble site body = .ok clauses) (states : prepare site body = .ok conditions)
    (means : ErrorMeant scope conditions machine) :
    (∀ result, Ends (executeAll · scope clauses) machine result ↔
      GuardRun site scope conditions machine result) ∧
    ∀ fuel guard begun next start,
      Part (fuel + 1) (.executeAll scope clauses) machine guard begun →
        Part fuel guard begun next start → GuardPart site scope conditions machine next start := by
  have same := clauses_of_assemble assembles states
  subst same
  refine ⟨fun result => ends_clauses_iff means, ?_⟩
  intro fuel guard begun next start first part
  generalize equal : conditions.map (Condition.clause site) = clauses at first
  cases first with
  | statement hoisted ended =>
      rw [← equal, hoist_clauses] at hoisted
      cases hoisted
      exact guardPart_of_inTurn equal ended part

/-! ### Conditions that are watched -/

/-- A contract of the function `f` that is checked on entry. -/
def entrySite : Site :=
  ⟨.precondition, some "f"⟩

/-- `{ Error; this; missing; }` -/
def watchedBody : Statement :=
  .block [.evaluate (.identifier "Error"), .evaluate .receiver, .evaluate (.identifier "missing")]

/-- A condition of the contract, with the message that quotes it. -/
def watched (test : Expression) : Condition :=
  ⟨test, some (.literal (.string ("Function \"f\" precondition failed: " ++ test.source)))⟩

/-- The conditions of the body. -/
def watchedConditions : List Condition :=
  [watched (.identifier "Error"), watched .receiver, watched (.identifier "missing")]

/-- The name `Error` is not assigned to before the second condition fails. -/
theorem errorMeant_watchedConditions :
    ErrorMeant globalScope watchedConditions (fresh 64) := by
  intro between failed
  have first : evaluate 1 globalScope (.identifier "Error") (fresh 64) =
      .ok (.builtin .makeError) (fresh 64) := rfl
  have second : evaluate 1 globalScope .receiver (fresh 64) = .ok .undefined (fresh 64) := rfl
  cases failed with
  | here evaluated falsy =>
      cases (ends_evaluate first).unique (steady_evaluate _ _) evaluated
      cases falsy
  | later evaluated _ failed =>
      cases (ends_evaluate first).unique (steady_evaluate _ _) evaluated
      cases failed with
      | here evaluated _ =>
          cases (ends_evaluate second).unique (steady_evaluate _ _) evaluated
          rfl
      | later evaluated truthy _ =>
          cases (ends_evaluate second).unique (steady_evaluate _ _) evaluated
          cases truthy

/-- The first condition holds, the second one fails, and the third one is not evaluated. -/
theorem first_failing_guard_wins_watchedBody :
    assemble entrySite watchedBody = .ok (watchedConditions.map (Condition.clause entrySite)) ∧
      prepare entrySite watchedBody = .ok watchedConditions ∧
        ErrorMeant globalScope watchedConditions (fresh 64) ∧
          ∃ address after,
            GuardRun entrySite globalScope watchedConditions (fresh 64)
                (.error (.fault (.thrown (.object address))) after) ∧
              after.store.object address =
                ⟨.error, [("name", .text "Error"),
                  ("message", .text "Function \"f\" precondition failed: this")]⟩ := by
  have assembles : assemble entrySite watchedBody =
      .ok (watchedConditions.map (Condition.clause entrySite)) := rfl
  have states : prepare entrySite watchedBody = .ok watchedConditions := rfl
  obtain ⟨ends, _⟩ := first_failing_guard_wins assembles states errorMeant_watchedConditions
  refine ⟨assembles, states, errorMeant_watchedConditions, _, _, (ends _).mp ⟨nofun, 20, rfl⟩, rfl⟩

/-- `function spoil() { Error = null; return false; }` -/
def spoil : Function :=
  ⟨some "spoil", [],
    .block [.evaluate (.assign .assign (.identifier "Error") (.literal .null)),
      .giveBack (some (.literal (.bool false)))],
    false, false, false⟩

/-- The machine in which `let Error = Error;` and the function have been loaded. -/
def spoilable : Machine :=
  afterLoading ⟨[.bindings .block [⟨"Error", some (.identifier "Error")⟩], .declare spoil]⟩

/-- The condition that calls the function. -/
def spoiling : Condition :=
  watched (.call (.identifier "spoil") [])

/-- A condition that assigns to the name `Error` keeps its guard from throwing an error. -/
theorem first_failing_guard_spoiled :
    ¬ ∀ site body clauses conditions scope (machine : Machine),
      assemble site body = .ok clauses → prepare site body = .ok conditions →
        machine.store.lookup? scope "Error" = some (.builtin .makeError) →
          ∀ result, Ends (executeAll · scope clauses) machine result ↔
            GuardRun site scope conditions machine result := by
  intro claimed
  have means : spoilable.store.lookup? globalScope "Error" = some (.builtin .makeError) := rfl
  have tested : ∃ between, evaluate 20 globalScope spoiling.test spoilable =
      .ok (.truth false) between := ⟨_, rfl⟩
  obtain ⟨between, tested⟩ := tested
  have said : ∃ text after, evaluate 20 (⟨between.store.frames.size⟩ :: globalScope)
      (spoiling.message entrySite) between.enterFrame = .ok text after := ⟨_, _, rfl⟩
  obtain ⟨text, after, said⟩ := said
  have ended : ∃ final, Ends (executeAll · globalScope [spoiling.clause entrySite]) spoilable
      (.error (.fault (.type (.notConstructor "Error"))) final) := ⟨_, nofun, 20, rfl⟩
  obtain ⟨final, ended⟩ := ended
  have run := (claimed entrySite (.evaluate (.call (.identifier "spoil") [])) _ [spoiling]
    globalScope spoilable rfl rfl means _).mp ended
  cases run with
  | holds evaluated truthy _ =>
      cases (ends_evaluate tested).unique (steady_evaluate _ _) evaluated
      cases truthy
  | stops evaluated => cases (ends_evaluate tested).unique (steady_evaluate _ _) evaluated
  | messageStops evaluated _ stopped =>
      cases (ends_evaluate tested).unique (steady_evaluate _ _) evaluated
      cases (ends_evaluate said).unique (steady_evaluate _ _) stopped

end Covenant.Contract
