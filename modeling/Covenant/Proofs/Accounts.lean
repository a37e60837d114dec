import Covenant.Proofs.Counterpart
import Covenant.Proofs.Establish
import Covenant.Proofs.Inventory
import Covenant.Proofs.Turns

/-!
# What a summary accounts for

A transformation counts in its summary what it adds.  What can be found in its
output agrees with the summary: block functions, declarations of checkers and
of constants for values on entry are there as often as the summary says, and
there are as many more branches as it says guards.

Routed returns are counted before it is known whether they stay.  A return that
is routed first and removed afterwards is counted nevertheless, so the summary
exceeds what is found in the output by exactly the routings that are undone.
-/

namespace Covenant.Contract

/-! ## Sums over visits -/

/-- What a visit is worth. -/
def Visit.worth (entered passed : Function → Nat) : Visit → Nat
  | .entered function => entered function
  | .passed function => passed function

section

variable (first second : Function → Nat)

theorem sum_enteredOf (nodes : List Node) :
    ((enteredOf nodes).map (Visit.worth first second)).sum = sumOfFunctions first nodes := by
  simp [enteredOf, sumOfFunctions, Function.comp_def, Visit.worth]

/-- Functions that are entered and functions that are passed over are counted apart. -/
theorem sum_visits {names : List String} (statements : List Statement) :
    (((visits names).ofStatements statements).map (Visit.worth first second)).sum =
      (((functions names).ofStatements statements).map first).sum +
        (Tally.others names second).ofStatements statements := by
  have declared (declarators : List Declarator) :
      (((visits names).declared declarators).map (Visit.worth first second)).sum =
        1 * (((functions names).declared declarators).map first).sum +
          (Tally.others names second).loop declarators := by
    cases introduced : introduces names declarators
    · simp [visits, functions, Tally.others, introduced, sumOfFunctions, Function.comp_def,
        Visit.worth]
    · simp [visits, functions, Tally.others, introduced, sum_enteredOf, sumOfFunctions]
  have combines : Tally.Combines ⟨fun _ => True, fun _ => True, fun _ => True⟩
      (Tally.ofCollection (visits names) (Visit.worth first second)) 1
      (Tally.ofCollection (functions names) first) (Tally.others names second) := by
    refine ⟨?_, ?_, rfl, fun _ => declared _, fun _ => declared _, fun _ => ?_, ?_⟩
    · intro expression _
      simpa [Tally.ofCollection, visits, functions, Tally.others, Tally.zero, sumOfFunctions] using
        sum_enteredOf first second (expression.nodes false)
    · rintro (_ | argument) _
      · rfl
      · simpa [Tally.ofCollection, Collection.ofOptional, visits, functions, Tally.others,
          Tally.zero, sumOfFunctions] using sum_enteredOf first second (argument.nodes false)
    · simp [Tally.ofCollection, visits, functions, Tally.others, Tally.zero, Visit.worth]
    · intro label body _ same
      rwa [Tally.ofStatement_labeled rfl, Tally.ofStatement_labeled rfl,
        Tally.ofStatement_labeled rfl]
  have whole := Tally.ofStatements_combines combines statements
    (Parts.onStatements_of_all (fun _ => trivial) (fun _ => trivial) (fun _ => trivial) statements)
  rwa [Tally.ofStatements_ofCollection, Tally.ofStatements_ofCollection, Nat.one_mul] at whole

theorem others_nothing (names : List String) (statements : List Statement) :
    (Tally.others names fun _ => 0).ofStatements statements = 0 := by
  have nothing : (Tally.others names fun _ => 0) = Tally.zero := by
    simp [Tally.others, sumOfFunctions, Tally.zero]
  rw [nothing, Tally.ofStatements_zero]

end

/-! ## Functions that account for what they add -/

/--
What becomes of a function is worth what the function gives and what is added
to a measure of the work, except for what is lost.
-/
def Balances (names : List String) (transform : Function → Transforming Function)
    (measure : Work → Nat) (worth gives loses : Function → Nat) (function : Function) : Prop :=
  ∀ {work after : Work} {result : Function}, work.Sound (· ∈ names) →
    transform function work = .ok (result, after) →
      worth result + loses function + measure work = gives function + measure after

section

variable {names : List String} {transform : Function → Transforming Function}
  {measure : Work → Nat} {worth gives loses : Function → Nat}

/-- Functions that are visited in turn account for what they add together. -/
theorem InTurn.balance
    {visited : List Visit} {work after : Work} {results : List Function}
    (advances : Advances transform) (turns : InTurn transform visited work results after)
    (sound : work.Sound (· ∈ names))
    (each : ∀ visit ∈ visited, ∀ function, visit = .entered function →
      Balances names transform measure worth gives loses function) :
    (results.map worth).sum + (visited.map (Visit.worth loses fun _ => 0)).sum + measure work =
      (visited.map (Visit.worth gives worth)).sum + measure after := by
  induction turns with
  | nil => rfl
  | entered outcome _ induction =>
      have own := each _ List.mem_cons_self _ rfl sound outcome
      have rest := induction (sound.later (advances outcome))
        fun visit member => each visit (List.mem_cons_of_mem _ member)
      simp only [List.map_cons, List.sum_cons, Visit.worth] at rest ⊢
      omega
  | passed _ induction =>
      have rest := induction sound fun visit member => each visit (List.mem_cons_of_mem _ member)
      simp only [List.map_cons, List.sum_cons, Visit.worth] at rest ⊢
      omega

variable (advances : Advances transform) {work after : Work} (sound : work.Sound (· ∈ names))

include advances sound

/-- The functions in an expression account for what they add. -/
theorem balance_onExpression {expression final : Expression}
    (holds : AllFunctions (Balances names transform measure worth gives loses)
      (expression.nodes false))
    (nested : (nestedFunctions transform).onExpression expression work = .ok (final, after)) :
    sumOfFunctions worth (final.nodes false) + sumOfFunctions loses (expression.nodes false) +
        measure work =
      sumOfFunctions gives (expression.nodes false) + measure after := by
  obtain ⟨_, results, rfl, turns⟩ :=
    (turns_onExpression advances expression).follows (.refl work) nested
  have each : ∀ visit ∈ enteredOf (expression.nodes false), ∀ function, visit = .entered function →
      Balances names transform measure worth gives loses function := by
    intro visit member function equal
    obtain ⟨entered, among, rfl⟩ := List.mem_map.mp member
    cases equal
    exact holds _ among
  have balance := turns.balance advances sound each
  rwa [sum_enteredOf, sum_enteredOf] at balance

/-- The functions in statements account for what they add, those of checkers apart. -/
theorem balance_onStatements {statements final : List Statement}
    (holds : (charted names work.helperNames
      (Balances names transform measure worth gives loses)).OnStatements statements)
    (empty : (hidden names).ofStatements statements = 0)
    (nested : (nestedFunctions transform).onStatements statements work = .ok (final, after)) :
    sumOfFunctions worth (nodesOfStatements false final) +
          (((functions names).ofStatements statements).map loses).sum + measure work =
      (((functions names).ofStatements statements).map gives).sum +
        (Tally.others names worth).ofStatements statements + measure after := by
  obtain ⟨_, results, rfl, turns⟩ :=
    (turns_onStatements advances sound statements holds empty).follows (.refl work) nested
  have balance := turns.balance advances sound
    (Collection.forall_ofStatements visits_meet statements holds)
  rwa [sum_visits, sum_visits, others_nothing, Nat.add_zero] at balance

end

/-! ## What is required of walked statements -/

section

variable {names made : List String} {property : Function → Prop}

theorem charted_free {expression : Expression}
    (none : functionsOf (expression.nodes false) = []) :
    (charted names made property).expression expression := by
  intro function member
  rw [none] at member
  cases member

theorem charted_routes (checker : Checker) : (charted names made property).Routes checker where
  argument := by
    intro argument holds
    have inner : AllFunctions property (argument.nodes false) := holds
    change AllFunctions property _
    simpa [Checker.call, Expression.nodes, nodesOfExpressions] using inner
  bare := charted_free (by simp [Checker.call, Expression.nodes, nodesOfExpressions])
  check := charted_free (by simp [Checker.call, Expression.nodes, nodesOfExpressions])

theorem charted_declaration {checker : Checker} (among : checker.name ∈ made)
    (unknown : checker.name ∉ names) (parameter : String) :
    (charted names made property).OnStatement (checker.declaration parameter) := by
  have others : introduces names
      [⟨checker.name, some (.lambda (checker.function parameter))⟩] = false := by
    simp [introduces, unknown]
  rw [Checker.declaration, Parts.OnStatement]
  simp only [charted, others, Bool.false_eq_true, if_false]
  exact .inr fun name member => List.mem_singleton.mp member ▸ among

theorem charted_admits (parameter : String) {last : Pass}
    (known : last.work.Sound (· ∈ names)) :
    Admits (charted names last.work.helperNames property) parameter last where
  guard := onStatement_of_isPlainGuard fun _ none => charted_free none
  routes := fun {checker} _ => charted_routes checker
  declaration := fun wired => charted_declaration wired.named
    (fun among => (known.known among).2 wired.named) parameter

/-- Finishing a walk adds nothing but declarations of checkers and constants. -/
theorem charted_finish {parameter : String} {pass : Pass} {statements : List Statement}
    (sound : pass.Sound) (known : pass.work.Sound (· ∈ names))
    (holds : (charted names pass.work.helperNames property).OnStatements statements) :
    (charted names pass.work.helperNames property).OnStatements
      (finish parameter pass statements) := by
  rw [finish, prologue, Parts.onStatements_append, Parts.onStatements_append]
  refine ⟨⟨?_, ?_⟩, onStatements_applyPostconditions charted_routes _ _ holds⟩
  · refine Parts.onStatements_iff.mpr fun statement member => ?_
    obtain ⟨checker, among, rfl⟩ := List.mem_map.mp member
    have named := (sound.checkers checker among).1
    exact charted_declaration named (fun inside => (known.known inside).2 named) parameter
  · refine Parts.onStatements_iff.mpr fun statement member => ?_
    obtain ⟨binding, among, rfl⟩ := List.mem_map.mp member
    have none : functionsOf (nodesOfDeclarators false [⟨binding.name, some binding.init⟩]) = [] := by
      simp [nodesOfDeclarators, nodesOfOptional,
        binding.init.functionsOf_plain (sound.captured binding among).2.2]
    rw [Parts.OnStatement]
    simp only [charted]
    split
    · intro function member
      rw [none] at member
      cases member
    · exact .inl none

/-- Statements of a program meet the requirement. -/
theorem charted_source {size : Nat} (statements : List Statement)
    (bounded : Bounded size (· ∈ names) (nodesOfStatements true statements))
    (holds : ∀ function, BoundedFunction size (· ∈ names) function → property function) :
    (charted names made property).OnStatements statements := by
  have implies : (Parts.known (BoundedFunction size (· ∈ names)) (· ∈ names) fun _ => False).Implies
      (charted names made property) := by
    refine ⟨fun each function member => holds function (each function member),
      fun own => holds _ own, fun {declarators} given => ?_⟩
    obtain ⟨each, known⟩ := given.resolve_right id
    simp only [charted]
    split
    · exact fun function member => holds function (each function member)
    case isFalse others =>
      rw [eq_nil_of_introduces known (Bool.eq_false_iff.mpr others)]
      exact .inl rfl
  exact Parts.OnStatements.imp implies statements (bounded.onStatements statements)

/-! ## No functions in loops -/

/-- Nothing that a walk adds has functions in the variables of counting loops. -/
theorem charges_hidden : (hidden names).Charges ⟨0, 0, 0, 0, 0⟩ names where
  guard := by
    rintro calls guard ⟨test, message, rfl, _, _⟩
    rfl
  check _ := rfl
  declaration {checker} _ _ _ := by
    simp [Weights.ofChecker, Checker.declaration, Tally.ofStatement, hidden, Tally.zero]
  constant _ _ := rfl
  routed _ := by
    refine ⟨fun argument => ?_, fun _ => rfl, rfl, fun _ => rfl, fun _ _ => rfl, fun _ => rfl, ?_⟩
    · rw [Nat.zero_mul]
      rfl
    · exact fun _ _ same => same
  labeled _ _ := rfl

theorem worth_nothing (summary : Summary) : Weights.worth ⟨0, 0, 0, 0, 0⟩ summary = 0 := by
  simp [Weights.worth]

theorem ofCheckers_nothing (checkers : List Checker) :
    Weights.ofCheckers ⟨0, 0, 0, 0, 0⟩ checkers = 0 := by
  refine List.sum_eq_zero fun worth member => ?_
  obtain ⟨checker, _, rfl⟩ := List.mem_map.mp member
  simp [Weights.ofChecker]

/-- The variables of counting loops in a program have names of the program. -/
theorem hidden_walked {size : Nat} {context : Context} {statements walked : List Statement}
    {pass after : Pass} (walks : Walks context (.list [] statements) pass walked after)
    (sound : pass.Sound) (known : pass.work.Sound (· ∈ names))
    (bounded : Bounded size (· ∈ names) (nodesOfStatements true statements)) :
    (hidden names).ofStatements walked = 0 := by
  have within := (Bounded.inherited size (· ∈ names)).withinStatements statements bounded
  have combines : Tally.Combines (Parts.within (Bounded size (· ∈ names)) (· ∈ names))
      (hidden names) 1 Tally.zero Tally.zero := by
    refine ⟨fun _ => rfl, fun _ => rfl, rfl, fun {declarators} given => ?_, fun _ => rfl,
      fun _ => rfl, ?_⟩
    · simp only [hidden]
      split
      · rfl
      case isFalse others =>
        rw [eq_nil_of_introduces given.2 (Bool.eq_false_iff.mpr others)]
        rfl
    · intro label body _ same
      rwa [Tally.ofStatement_labeled rfl, Tally.ofStatement_labeled rfl]
  have source := Tally.ofStatements_combines
    (combines.left context.settings context.place) statements within
  have balance := walks.balance charges_hidden sound known trivial
  simp only [worth_nothing, ofCheckers_nothing, Stretch.counted_nil, source,
    Tally.ofStatements_left_zero] at balance
  omega

theorem hidden_finish {work : Work} {pass : Pass} (sound : pass.Sound)
    (known : work.Sound (· ∈ names)) (precedes : work.start.Precedes pass) (parameter : String)
    {walked : List Statement} (empty : (hidden names).ofStatements walked = 0) :
    (hidden names).ofStatements (finish parameter pass walked) = 0 := by
  have balance := balance_finish charges_hidden sound known precedes parameter walked
  simp only [worth_nothing, ofCheckers_nothing, empty] at balance
  omega

end

/-! ## What is added in one function, and in a program -/

section

variable {settings : Settings} {names : List String} {weights : Weights}

/-- A transformation does not make another kind of function of a function. -/
theorem isBlockArrow_of_transformFunction {fuel : Nat} {scopes : ScopeStack}
    {source target : Function} {work after : Work}
    (outcome : transformFunction settings fuel scopes source work = .ok (target, after)) :
    target.isBlockArrow = source.isBlockArrow := by
  cases fuel with
  | zero => rw [(step_pure_eq_ok.mp outcome).1]
  | succ fuel =>
      cases shape : source.body with
      | block statements =>
          obtain ⟨_, _, _, _, _, rfl⟩ := (transformFunction_block shape).mp outcome
          simp [Function.isBlockArrow, Function.block?, shape]
      | result expression =>
          obtain ⟨_, _, rfl⟩ := (transformFunction_result shape).mp outcome
          simp [Function.isBlockArrow, Function.block?, shape]

/-- What a walk over a program's statements has left of them is what it had found, and its work. -/
theorem balance_walks {size : Nat} {context : Context} {statements walked : List Statement}
    {pass after : Pass} (walks : Walks context (.list [] statements) pass walked after)
    (sound : pass.Sound) (known : pass.work.Sound (· ∈ names)) (mute : pass.postconditions = [])
    (bounded : Bounded size (· ∈ names) (nodesOfStatements true statements)) :
    (weights.checking names).ofStatements walked + weights.ofCheckers after.postconditions +
        weights.route * undoneOfAll context.settings context.place 0 statements +
          weights.worth pass.work.summary =
      weights.guard *
          (Tally.left context.settings context.place Tally.branches).ofStatements statements +
        weights.worth after.work.summary := by
  have source := Tally.ofStatements_combines
    ((@combines_checking weights names size).left context.settings context.place) statements
    ((Bounded.inherited size (· ∈ names)).withinStatements statements bounded)
  have balance := walks.balance (@charges_checking weights names) sound known trivial
  rw [Stretch.counted_nil, source, Tally.ofStatements_left_zero, Stretch.undone, mute] at balance
  exact balance

/-- A function accounts for everything that its transformation adds to it and inside it. -/
theorem balances_transformFunction :
    ∀ (fuel : Nat) (scopes : ScopeStack) (function : Function),
      BoundedFunction fuel (· ∈ names) function →
        Balances names (transformFunction settings fuel scopes)
          (fun work => weights.worth work.summary) (weights.inside names)
          (weights.gives names settings fuel) (weights.loses names settings fuel) function := by
  intro fuel
  induction fuel with
  | zero =>
      intro scopes function bounded
      exact absurd bounded.size (by simp [Function.nodes_true])
  | succ fuel induction =>
      intro scopes function bounded work after result sound outcome
      have advances : Advances (transformFunction settings fuel (scopes.push function.scope)) :=
        transformFunction_advances settings fuel _
      have body := bounded.body
      cases shape : function.body with
      | block statements =>
          rw [shape, FunctionBody.nodes] at body
          obtain ⟨walked, pass, final, walks, nested, rfl⟩ :=
            (transformFunction_block shape).mp outcome
          have start := @Pass.sound_start work.entering sound.helpers
          have passSound := walks.sound start
          have begun := sound.later work.precedes_start
          have known := begun.later walks.precedes.work
          have finishes := known.later (Work.precedes_finishWork pass walked)
          have empty := hidden_finish passSound sound walks.precedes settings.tokens.result
            (hidden_walked walks start begun body)
          -- The functions of the program that are transformed are those that survive.
          have same : (functions names).ofStatements (finish settings.tokens.result pass walked) =
              (survivors settings (.function function.name) names).ofStatements statements := by
            rw [finish, Collection.ofStatements_append, functions_prologue passSound known,
              functions_applyPostconditions, List.nil_append]
            exact walks.functions begun trivial
          have inner := balance_onStatements advances finishes
            (charted_finish passSound known (walks.parts
              (charted_admits settings.tokens.result known) start (.refl pass)
              (charted_source statements body (induction _)))) empty nested
          have kept := Tally.ofStatements_kept (@kept_tally weights names _ _ _ isBlockArrow_of_transformFunction)
            (nestedFunctions_onStatements advances nested).2
          have finished := balance_finish (@charges_checking weights names) passSound sound
            walks.precedes settings.tokens.result walked
          have walk := @balance_walks names weights fuel _ _ _ _ _ walks start begun rfl body
          have entered : weights.worth work.start.work.summary =
              weights.worth work.summary + weights.function := by
            simp only [Work.start, Work.entering, Weights.worth, Nat.mul_add, Nat.mul_one]
            omega
          rw [same] at inner
          rw [ofStatements_checking] at finished
          rw [entered] at walk
          simp only [Weights.loses, Weights.gives] at inner ⊢
          rw [inside_block rfl, kept, multiple_block _ _ _ _ _ shape,
            multiple_block _ _ _ _ _ shape]
          simp only [functionContext] at walk
          omega
      | result expression =>
          rw [shape, FunctionBody.nodes] at body
          obtain ⟨final, nested, rfl⟩ := (transformFunction_result shape).mp outcome
          have inner := balance_onExpression advances sound
            (fun inner member => induction _ inner (body.function expression.contains inner member))
            nested
          rw [inside_result rfl, Weights.loses, Weights.gives, multiple_result _ _ _ _ _ shape,
            multiple_result _ _ _ _ _ shape]
          exact inner

/--
What can be found in an output makes up for the branches that were left and for
what the summary counts, except for the routings that were undone.
-/
theorem balance_transform (weights : Weights) {program output : Program} {summary : Summary}
    (outcome : program.transform settings = .ok (output, summary)) :
    weights.function * output.blockFunctions.length +
          output.count (weights.tally program.allNames) +
        weights.route * program.routingsUndone settings =
      weights.guard * program.branchesLeft settings + weights.worth summary := by
  obtain ⟨work, transformed, rfl⟩ := transform_eq_ok.mp outcome
  obtain ⟨walked, pass, walks, nested⟩ := transformStatements_eq_ok.mp transformed
  have bounded := bounded_ofProgram program
  have advances : Advances (transformFunction settings program.functions.length
      (.ofProgram program)) := transformFunction_advances settings _ _
  have begun := Work.sound_ofProgram program
  have start := @Pass.sound_start (.ofProgram program) begun.helpers
  have known := begun.later walks.precedes.work
  have resumes := walks.resumes (needsNoCheckers_topLevel settings _)
  have same : (functions program.allNames).ofStatements walked =
      (survivors settings .topLevel program.allNames).ofStatements program.statements :=
    walks.functions begun trivial
  have inner := balance_onStatements advances known
    (walks.parts (charted_admits settings.tokens.result known) start (.refl pass)
      (charted_source program.statements bounded
        (@balances_transformFunction settings program.allNames weights _ (.ofProgram program))))
    (hidden_walked walks start begun bounded) nested
  have kept := Tally.ofStatements_kept (@kept_tally weights program.allNames _ _ _
    isBlockArrow_of_transformFunction)
    (nestedFunctions_onStatements advances nested).2
  have walk := @balance_walks _ weights _ _ _ _ _ _ walks start begun rfl bounded
  have none : weights.ofCheckers pass.postconditions = 0 := by
    rw [resumes.postconditions]
    rfl
  have zero : weights.worth (Work.ofProgram program).summary = 0 := by
    simp [Work.ofProgram, Summary.zero, Weights.worth]
  have deep := @sum_inside weights program.allNames output
  rw [same] at inner
  rw [none, zero, ofStatements_checking] at walk
  rw [← deep, kept, Program.routingsUndone, Program.branchesLeft, mul_throughout, mul_throughout]
  simp only [Weights.loses, Weights.gives] at inner
  simp only [topLevelContext] at walk
  omega

theorem count_zero (program : Program) : program.count Tally.zero = 0 := by
  have nothing : Tally.zero.ofStatements = fun _ => 0 := funext Tally.ofStatements_zero
  simp [Program.count, nothing]

/-- With a single weight, a single thing is counted. -/
theorem tally_single (names : List String) :
    (Weights.tally ⟨1, 0, 0, 0, 0⟩ names = Tally.zero ∧
      Weights.tally ⟨0, 1, 0, 0, 0⟩ names = Tally.checkers names ∧
      Weights.tally ⟨0, 0, 1, 0, 0⟩ names = Tally.branches) ∧
      Weights.tally ⟨0, 0, 0, 1, 0⟩ names = Tally.constants names ∧
      Weights.tally ⟨0, 0, 0, 0, 1⟩ names = Tally.wrapped names := by
  simp [Weights.tally, Tally.zero, Tally.checkers, Tally.constants, Tally.branches, Tally.wrapped]

/--
The summary of a transformation accounts for its output.  Functions, checkers,
constants for values on entry and guards are found in the output as often as
the summary says.  Of the returns that it says were routed, those are found
whose routing was not undone by removing them afterwards.
-/
theorem transform_accounts {program output : Program} {summary : Summary}
    (outcome : program.transform settings = .ok (output, summary)) :
    output.blockFunctions.length = summary.functions + summary.helpers ∧
      output.count (Tally.checkers program.allNames) = summary.helpers ∧
      output.count (Tally.constants program.allNames) = summary.oldBindings ∧
      output.count Tally.branches = program.branchesLeft settings + summary.guards ∧
      output.count (Tally.wrapped program.allNames) + program.routingsUndone settings =
        summary.returnsRouted := by
  have functions := balance_transform ⟨1, 0, 0, 0, 0⟩ outcome
  have helpers := balance_transform ⟨0, 1, 0, 0, 0⟩ outcome
  have guards := balance_transform ⟨0, 0, 1, 0, 0⟩ outcome
  have constants := balance_transform ⟨0, 0, 0, 1, 0⟩ outcome
  have routed := balance_transform ⟨0, 0, 0, 0, 1⟩ outcome
  obtain ⟨⟨none, checker, branch⟩, constant, wrapped⟩ := tally_single program.allNames
  rw [none, count_zero] at functions
  rw [checker] at helpers
  rw [branch] at guards
  rw [constant] at constants
  rw [wrapped] at routed
  simp only [Weights.worth] at functions helpers guards constants routed
  omega

end

/-- A function with an invariant, which returns twice, the first time in another environment. -/
def returnsTwice : Program :=
  ⟨[.declare
    ⟨some "f", ["x"],
      .block
        [.labeled "invariant" (.evaluate (.identifier "x")),
          .labeled "prod" (.block [.giveBack (some (.literal (.number 1)))]),
          .giveBack (some (.identifier "x"))],
      false, false, false⟩]⟩

/-- A return that is routed and then removed is counted, but it is not found in the output. -/
theorem removed_return_counted :
    ∃ output summary,
      returnsTwice.transform .extracting = .ok (output, summary) ∧
        summary.returnsRouted = 2 ∧ output.count (Tally.wrapped returnsTwice.allNames) = 1 := by
  have counts :
      (returnsTwice.transform .extracting).toOption.map (fun done =>
        (done.2.returnsRouted, done.1.count (Tally.wrapped returnsTwice.allNames))) =
          some (2, 1) := by
    decide +kernel
  cases outcome : returnsTwice.transform .extracting with
  | error reason =>
      rw [outcome] at counts
      cases counts
  | ok done =>
      rw [outcome] at counts
      exact ⟨done.1, done.2, rfl, Prod.mk.inj (Option.some.inj counts)⟩

/-- In the account of such a function one routing is undone. -/
theorem transform_accounts_returnsTwice :
    ∃ output summary,
      returnsTwice.transform .extracting = .ok (output, summary) ∧
        returnsTwice.routingsUndone .extracting = 1 ∧
          output.blockFunctions.length = summary.functions + summary.helpers ∧
            output.count (Tally.checkers returnsTwice.allNames) = summary.helpers ∧
            output.count (Tally.constants returnsTwice.allNames) = summary.oldBindings ∧
            output.count Tally.branches =
              returnsTwice.branchesLeft .extracting + summary.guards ∧
            output.count (Tally.wrapped returnsTwice.allNames) +
                returnsTwice.routingsUndone .extracting =
              summary.returnsRouted := by
  cases outcome : returnsTwice.transform .extracting with
  | error reason =>
      have accepted : (returnsTwice.transform .extracting).toBool = true := by
        decide +kernel
      rw [outcome] at accepted
      cases accepted
  | ok done =>
      exact ⟨done.1, done.2, rfl, by decide +kernel, transform_accounts outcome⟩

end Covenant.Contract
