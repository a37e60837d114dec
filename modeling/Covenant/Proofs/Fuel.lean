import Covenant.Proofs.Evaluation

/-!
# More fuel

A run that comes to an end, with a result or for some reason without one, does
so with any more fuel, and in the same machine.  One action is below another one
if it ends as the other one does unless it runs out of fuel; evaluation with
less fuel is below evaluation with more.

So it can be said how an expression ends, or a list of statements, without
saying with how much fuel.
-/

namespace Covenant.Machine

/-- The second action ends as the first one does, unless that one runs out of fuel. -/
def Action.Below {α : Type} (first second : Action α) : Prop :=
  ∀ machine, (∃ after, first machine = .error .exhausted after) ∨ second machine = first machine

namespace Action.Below

variable {α β : Type}

theorem refl (action : Action α) : action.Below action :=
  fun _ => .inr rfl

theorem exhausted (action : Action α) : Action.Below (throw .exhausted) action :=
  fun machine => .inl ⟨machine, rfl⟩

/-- A result stays. -/
theorem of_ok {first second : Action α} {machine after : Machine} {result : α}
    (below : first.Below second) (outcome : first machine = .ok result after) :
    second machine = .ok result after := by
  rcases below machine with ⟨_, ran⟩ | same
  · cases outcome.symm.trans ran
  · exact same.trans outcome

theorem bind {first second : Action α} {next other : α → Action β}
    (below : first.Below second) (rest : ∀ value, (next value).Below (other value)) :
    (first >>= next).Below (second >>= other) := by
  intro machine
  rcases below machine with ⟨after, ran⟩ | same
  · exact .inl ⟨after, Action.bind_of_error ran⟩
  · cases outcome : first machine with
    | ok value between =>
        rw [Action.bind_of_ok outcome, Action.bind_of_ok (same.trans outcome)]
        exact rest value between
    | error stop between =>
        rw [Action.bind_of_error outcome, Action.bind_of_error (same.trans outcome)]
        exact .inr rfl

theorem nested {first second : Action α} (below : first.Below second) :
    (Action.nested first).Below (Action.nested second) := by
  intro machine
  unfold Action.nested
  split
  · exact .inr rfl
  · rcases below { machine with depth := machine.depth + 1 } with ⟨after, ran⟩ | same
    · rw [ran]
      exact .inl ⟨_, rfl⟩
    · rw [same]
      exact .inr rfl

theorem mapM {first second : α → Action β} (below : ∀ value, (first value).Below (second value)) :
    (values : List α) → (values.mapM first).Below (values.mapM second)
  | [] => .refl _
  | value :: rest => by
      rw [List.mapM_cons, List.mapM_cons]
      exact (below value).bind fun _ => (mapM below rest).bind fun _ => .refl _

theorem forM {first second : α → Action Unit}
    (below : ∀ value, (first value).Below (second value)) :
    (values : List α) → (values.forM first).Below (values.forM second)
  | [] => .refl _
  | value :: rest => by
      rw [List.forM, List.forM]
      exact (below value).bind fun _ => forM below rest

end Action.Below

section

variable {first second : Expression → Action Value}
  (below : ∀ expression, (first expression).Below (second expression))

include below

theorem lastValue_below : (expressions : List Expression) → ∀ last,
    (lastValue first last expressions).Below (lastValue second last expressions)
  | [], _ => .refl _
  | expression :: rest, _ => (below expression).bind fun value => lastValue_below rest value

theorem evaluateProperties_below (properties : List Property) :
    (evaluateProperties first properties).Below (evaluateProperties second properties) :=
  (Action.Below.mapM (fun property => (below property.value).bind fun _ => .refl _) properties).bind
    fun _ => .refl _

theorem declareVariables_below
    (scope : Scope) (kind : DeclarationKind) (declarators : List Declarator) :
    (declareVariables first scope kind declarators).Below
      (declareVariables second scope kind declarators) := by
  refine Action.Below.forM (fun declarator => ?_) declarators
  cases declarator.init with
  | none => exact .refl _
  | some init => exact (below init).bind fun _ => .refl _

/-- Either an expression denotes a property for both, or it does for none. -/
theorem propertyOf?_below (expression : Expression) :
    (propertyOf? first expression = none ∧ propertyOf? second expression = none) ∨
      ∃ found other, propertyOf? first expression = some found ∧
        propertyOf? second expression = some other ∧ found.Below other := by
  cases expression with
  | member object name =>
      exact .inr ⟨_, _, rfl, rfl, (below object).bind fun _ => .refl _⟩
  | index object key =>
      exact .inr ⟨_, _, rfl, rfl,
        (below object).bind fun _ => (below key).bind fun _ => .refl _⟩
  | _ => exact .inl ⟨rfl, rfl⟩

theorem placeOf_below (target : Expression) :
    (placeOf first target).Below (placeOf second target) := by
  unfold placeOf
  split
  · exact .refl _
  · rcases propertyOf?_below below target with ⟨left, right⟩ | ⟨found, other, left, right, inner⟩
    · rw [left, right]
      exact .refl _
    · rw [left, right]
      exact inner.bind fun _ => .refl _

theorem calleeOf_below (callee : Expression) :
    (calleeOf first callee).Below (calleeOf second callee) := by
  unfold calleeOf
  rcases propertyOf?_below below callee with ⟨left, right⟩ | ⟨found, other, left, right, inner⟩
  · rw [left, right]
    exact (below callee).bind fun _ => .refl _
  · rw [left, right]
    exact inner.bind fun _ => .refl _

theorem startLoop_below (scope : Scope) (init : Option LoopInit) :
    (startLoop first scope init).Below (startLoop second scope init) := by
  unfold startLoop
  split
  · exact .refl _
  · exact declareVariables_below below scope _ _
  · exact (below _).bind fun _ => .refl _

theorem testRound_below (test : Option Expression) :
    (testRound first test).Below (testRound second test) := by
  cases test with
  | none => exact .refl _
  | some test => exact (below test).bind fun _ => .refl _

theorem stepRound_below (step : Option Expression) :
    (stepRound first step).Below (stepRound second step) := by
  cases step with
  | none => exact .refl _
  | some step => exact (below step).bind fun _ => .refl _

end

theorem inTurn_below {first second : Statement → Action Completion}
    (below : ∀ statement, (first statement).Below (second statement)) :
    (statements : List Statement) → (inTurn first statements).Below (inTurn second statements) := by
  intro statements
  induction statements with
  | nil => exact .refl _
  | cons statement rest induction =>
      rw [inTurn, inTurn]
      refine (below statement).bind fun completion => ?_
      cases completion with
      | finished => exact induction
      | _ => exact .refl _

/-- Everything that takes fuel, with one amount of it and with another one. -/
structure MoreFuel (less more : Nat) : Prop where
  evaluate (scope : Scope) (expression : Expression) :
    (evaluate less scope expression).Below (evaluate more scope expression)
  construct (constructor : Value) (arguments : List Value) (source : Expression) :
    (construct less constructor arguments source).Below
      (construct more constructor arguments source)
  call (callee receiver : Value) (arguments : List Value) :
    (call less callee receiver arguments).Below (call more callee receiver arguments)
  execute (scope : Scope) (label : Option String) (statement : Statement) :
    (execute less scope label statement).Below (execute more scope label statement)
  executeAll (scope : Scope) (statements : List Statement) :
    (executeAll less scope statements).Below (executeAll more scope statements)
  rounds (scope : Scope) (label : Option String) (test step : Option Expression)
    (body : Statement) :
    (rounds less scope label test step body).Below (rounds more scope label test step body)

namespace MoreFuel

theorem zero (more : Nat) : MoreFuel 0 more where
  evaluate _ _ := by
    rw [Machine.evaluate]
    exact .exhausted _
  construct _ _ _ := by
    rw [Machine.construct]
    exact .exhausted _
  call _ _ _ := by
    rw [Machine.call]
    exact .exhausted _
  execute _ _ _ := by
    rw [Machine.execute]
    exact .exhausted _
  executeAll _ _ := by
    rw [Machine.executeAll]
    exact .exhausted _
  rounds _ _ _ _ _ := by
    rw [Machine.rounds]
    exact .exhausted _

variable {less more : Nat} (fuel : MoreFuel less more)

include fuel

theorem evaluate_succ (scope : Scope) (expression : Expression) :
    (Machine.evaluate (less + 1) scope expression).Below
      (Machine.evaluate (more + 1) scope expression) := by
  have inner := fuel.evaluate scope
  cases expression with
  | literal literal | identifier name | receiver | lambda function | yield argument delegate
  | await argument =>
      rw [Machine.evaluate, Machine.evaluate]
      exact .refl _
  | array elements =>
      rw [Machine.evaluate, Machine.evaluate]
      exact (Action.Below.mapM inner elements).bind fun _ => .refl _
  | record properties =>
      rw [Machine.evaluate, Machine.evaluate]
      exact (evaluateProperties_below inner properties).bind fun _ => .refl _
  | unary operator argument =>
      rw [Machine.evaluate, Machine.evaluate]
      refine Action.Below.bind (.refl _) fun isUnbound => ?_
      split
      · exact .refl _
      · exact (inner argument).bind fun _ => .refl _
  | update operator leading argument =>
      rw [Machine.evaluate, Machine.evaluate]
      exact (placeOf_below inner argument).bind fun _ => .refl _
  | binary operator left right =>
      rw [Machine.evaluate, Machine.evaluate]
      exact (inner left).bind fun _ => (inner right).bind fun _ => .refl _
  | logical operator left right =>
      rw [Machine.evaluate, Machine.evaluate]
      refine (inner left).bind fun _ => ?_
      split
      · exact .refl _
      · exact inner right
  | assign operator target value =>
      rw [Machine.evaluate, Machine.evaluate]
      refine (placeOf_below inner target).bind fun place => ?_
      cases operator.binary? with
      | none => exact (inner value).bind fun _ => .refl _
      | some operator =>
          exact Action.Below.bind (.refl _) fun _ => (inner value).bind fun _ => .refl _
  | conditional test consequent alternate =>
      rw [Machine.evaluate, Machine.evaluate]
      refine (inner test).bind fun _ => ?_
      split
      · exact inner consequent
      · exact inner alternate
  | call callee arguments =>
      rw [Machine.evaluate, Machine.evaluate]
      refine (calleeOf_below inner callee).bind fun found => ?_
      refine (Action.Below.mapM inner arguments).bind fun values => ?_
      split
      · exact fuel.call found.1 found.2 values
      · exact .refl _
  | construct callee arguments =>
      rw [Machine.evaluate, Machine.evaluate]
      refine (inner callee).bind fun constructor => ?_
      refine (Action.Below.mapM inner arguments).bind fun values => ?_
      exact fuel.construct constructor values callee
  | member object name =>
      rw [Machine.evaluate, Machine.evaluate]
      exact (inner object).bind fun _ => .refl _
  | index object key =>
      rw [Machine.evaluate, Machine.evaluate]
      exact (inner object).bind fun _ => (inner key).bind fun _ => .refl _
  | sequence expressions =>
      rw [Machine.evaluate, Machine.evaluate]
      exact lastValue_below inner expressions _

theorem construct_succ (constructor : Value) (arguments : List Value) (source : Expression) :
    (Machine.construct (less + 1) constructor arguments source).Below
      (Machine.construct (more + 1) constructor arguments source) := by
  cases constructor with
  | closure address =>
      rw [Machine.construct, Machine.construct]
      refine Action.Below.bind (.refl _) fun closure? => ?_
      split
      · refine Action.Below.bind (.refl _) fun created => ?_
        exact (fuel.call _ _ _).bind fun _ => .refl _
      · exact .refl _
  | builtin function =>
      cases function <;>
      · rw [Machine.construct, Machine.construct]
        · exact .refl _
        all_goals simp
  | _ =>
      rw [Machine.construct, Machine.construct]
      · exact .refl _
      all_goals simp

theorem runBody (scope : Scope) (body : FunctionBody) :
    (Machine.runBody less scope body).Below (Machine.runBody more scope body) := by
  cases body with
  | block statements => exact (fuel.executeAll scope statements).bind fun _ => .refl _
  | result expression => exact fuel.evaluate scope expression

theorem enterClosure (closure : Closure) (receiver : Value) (arguments : List Value) :
    (Machine.enterClosure less closure receiver arguments).Below
      (Machine.enterClosure more closure receiver arguments) := by
  unfold Machine.enterClosure
  split
  · exact .refl _
  · exact Action.Below.nested (Action.Below.bind (.refl _) fun scope => fuel.runBody scope _)

theorem call_succ (callee receiver : Value) (arguments : List Value) :
    (Machine.call (less + 1) callee receiver arguments).Below
      (Machine.call (more + 1) callee receiver arguments) := by
  cases callee with
  | closure address =>
      rw [call_closure, call_closure]
      refine Action.Below.bind (.refl _) fun closure? => ?_
      cases closure? with
      | none => exact .refl _
      | some closure => exact fuel.enterClosure closure receiver arguments
  | builtin function =>
      cases function <;>
      · rw [Machine.call, Machine.call]
        exact .refl _
  | _ =>
      rw [Machine.call, Machine.call]
      · exact .refl _
      all_goals simp

theorem execute_succ (scope : Scope) (label : Option String) (statement : Statement) :
    (Machine.execute (less + 1) scope label statement).Below
      (Machine.execute (more + 1) scope label statement) := by
  have inner := fuel.evaluate
  cases statement with
  | evaluate expression =>
      rw [Machine.execute, Machine.execute]
      exact ((inner scope expression).bind fun _ => .refl _).bind fun _ => .refl _
  | block statements =>
      rw [Machine.execute, Machine.execute]
      exact Action.Below.bind (.refl _) fun _ => fuel.executeAll _ statements
  | labeled label body =>
      rw [Machine.execute, Machine.execute]
      exact (fuel.execute scope (some label) body).bind fun _ => .refl _
  | giveBack argument =>
      cases argument with
      | none =>
          rw [Machine.execute, Machine.execute]
          exact .refl _
      | some argument =>
          rw [Machine.execute, Machine.execute]
          exact (inner scope argument).bind fun _ => .refl _
  | branch test consequent alternate =>
      rw [execute_branch, execute_branch]
      refine (inner scope test).bind fun _ => ?_
      split
      · exact fuel.execute scope none consequent
      · cases alternate with
        | none => exact .refl _
        | some alternate => exact fuel.execute scope none alternate
  | whileLoop test body =>
      rw [Machine.execute, Machine.execute]
      exact fuel.rounds scope label (some test) none body
  | doWhileLoop body test =>
      rw [Machine.execute, Machine.execute]
      refine (fuel.execute scope none body).bind fun completion => ?_
      split
      · exact .refl _
      · exact fuel.rounds scope label (some test) none body
  | forLoop init test step body =>
      rw [execute_forLoop, execute_forLoop]
      refine Action.Below.bind (.refl _) fun innerScope => ?_
      exact (startLoop_below (inner innerScope) innerScope init).bind fun _ =>
        fuel.rounds innerScope label test step body
  | bindings kind declarators =>
      rw [Machine.execute, Machine.execute]
      exact (declareVariables_below (inner scope) scope kind declarators).bind fun _ => .refl _
  | raise argument =>
      rw [Machine.execute, Machine.execute]
      exact (inner scope argument).bind fun _ => .refl _
  | declare function | breakOut label | continueLoop label | empty =>
      rw [Machine.execute, Machine.execute]
      exact .refl _

theorem executeAll_succ (scope : Scope) (statements : List Statement) :
    (Machine.executeAll (less + 1) scope statements).Below
      (Machine.executeAll (more + 1) scope statements) := by
  rw [Machine.executeAll, Machine.executeAll]
  exact Action.Below.bind (.refl _) fun _ => inTurn_below (fuel.execute scope none) statements

theorem rounds_succ (scope : Scope) (label : Option String) (test step : Option Expression)
    (body : Statement) :
    (Machine.rounds (less + 1) scope label test step body).Below
      (Machine.rounds (more + 1) scope label test step body) := by
  rw [Machine.rounds_succ, Machine.rounds_succ]
  refine (testRound_below (fuel.evaluate scope) test).bind fun goesOn => ?_
  split
  · refine (fuel.execute scope none body).bind fun completion => ?_
    split
    · exact .refl _
    · exact (stepRound_below (fuel.evaluate scope) step).bind fun _ =>
        fuel.rounds scope label test step body
  · exact .refl _

/-- With one more step of fuel on both sides the relation stays. -/
theorem succ : MoreFuel (less + 1) (more + 1) :=
  ⟨fuel.evaluate_succ, fuel.construct_succ, fuel.call_succ, fuel.execute_succ, fuel.executeAll_succ,
    fuel.rounds_succ⟩

end MoreFuel

/-- More fuel never changes how a run ends. -/
theorem moreFuel_of_le : {less more : Nat} → less ≤ more → MoreFuel less more
  | 0, more, _ => .zero more
  | _ + 1, _ + 1, le => (moreFuel_of_le (Nat.le_of_succ_le_succ le)).succ

/-! ## Enough fuel -/

/-- A run that takes fuel ends in some way, for which it does not want fuel. -/
def Ends {α : Type} (run : Nat → Action α) (machine : Machine)
    (result : EStateM.Result Stop Machine α) : Prop :=
  (∀ after, result ≠ .error .exhausted after) ∧ ∃ fuel, run fuel machine = result

/-- A run that takes fuel ends no differently with more of it. -/
def Steady {α : Type} (run : Nat → Action α) : Prop :=
  ∀ less more, less ≤ more → (run less).Below (run more)

theorem steady_evaluate (scope : Scope) (expression : Expression) :
    Steady (evaluate · scope expression) :=
  fun _ _ le => (moreFuel_of_le le).evaluate scope expression

theorem steady_executeAll (scope : Scope) (statements : List Statement) :
    Steady (executeAll · scope statements) :=
  fun _ _ le => (moreFuel_of_le le).executeAll scope statements

namespace Ends

variable {α : Type} {run : Nat → Action α} {machine : Machine}
  {result other : EStateM.Result Stop Machine α}

/-- From some amount of fuel on a run ends as it does. -/
theorem eventually (steady : Steady run) (ends : Ends run machine result) :
    ∃ fuel, ∀ more, fuel ≤ more → run more machine = result := by
  obtain ⟨settled, fuel, outcome⟩ := ends
  refine ⟨fuel, fun more le => ?_⟩
  rcases steady fuel more le machine with ⟨after, ran⟩ | same
  · exact absurd (outcome.symm.trans ran) (settled after)
  · exact same.trans outcome

/-- A run ends in one way. -/
theorem unique (steady : Steady run) (first : Ends run machine result)
    (second : Ends run machine other) : result = other := by
  obtain ⟨fuel, always⟩ := first.eventually steady
  obtain ⟨fuel', always'⟩ := second.eventually steady
  exact (always (max fuel fuel') (Nat.le_max_left _ _)).symm.trans
    (always' (max fuel fuel') (Nat.le_max_right _ _))

end Ends

end Covenant.Machine
