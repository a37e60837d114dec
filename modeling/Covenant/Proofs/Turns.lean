import Covenant.Proofs.Idempotence
import Covenant.Proofs.Ledger

/-!
# Functions transformed in turn

The functions in statements are transformed one after another, in source order,
each with the work that the one before it has left.  The functions of checkers
are passed over.
-/

namespace Covenant.Contract

/-- A function that is come across: it is transformed, or it is passed over. -/
inductive Visit where
  | entered (function : Function)
  | passed (function : Function)

/-- Functions are visited one after another, and this becomes of them. -/
inductive InTurn (transform : Function → Transforming Function) :
    List Visit → Work → List Function → Work → Prop where
  | nil {work : Work} : InTurn transform [] work [] work
  | entered {function result : Function} {rest : List Visit} {results : List Function}
      {work between after : Work} (first : transform function work = .ok (result, between))
      (others : InTurn transform rest between results after) :
      InTurn transform (.entered function :: rest) work (result :: results) after
  | passed {function : Function} {rest : List Visit} {results : List Function}
      {work after : Work} (others : InTurn transform rest work results after) :
      InTurn transform (.passed function :: rest) work (function :: results) after

section

variable {transform : Function → Transforming Function}

theorem InTurn.append
    {visits others : List Visit} {results more : List Function} {work between after : Work}
    (first : InTurn transform visits work results between)
    (second : InTurn transform others between more after) :
    InTurn transform (visits ++ others) work (results ++ more) after := by
  induction first with
  | nil => exact second
  | entered outcome _ induction => exact .entered outcome (induction second)
  | passed _ induction => exact .passed (induction second)

theorem InTurn.passedOver (functions : List Function) (work : Work) :
    InTurn transform (functions.map .passed) work functions work := by
  induction functions with
  | nil => exact .nil
  | cons function rest induction => exact .passed induction

end

/-! ## What is visited -/

/-- Visits that enter all functions among nodes. -/
def enteredOf (nodes : List Node) : List Visit :=
  (functionsOf nodes).map .entered

section

variable (nodes others : List Node) (expression : Expression) (function : Function)

@[simp]
theorem enteredOf_nil : enteredOf [] = [] :=
  rfl

@[simp]
theorem enteredOf_cons_expression :
    enteredOf (.expression expression :: nodes) = enteredOf nodes :=
  rfl

@[simp]
theorem enteredOf_append : enteredOf (nodes ++ others) = enteredOf nodes ++ enteredOf others := by
  simp [enteredOf]

@[simp]
theorem enteredOf_function : enteredOf (function.nodes false) = [.entered function] := by
  simp [enteredOf, Function.nodes_false]

end

/--
The functions that are visited in statements.  Those in declarations that
introduce none of some names are passed over.
-/
def visits (names : List String) : Collection Visit where
  expression expression := enteredOf (expression.nodes false)
  function function := [.entered function]
  declared declarators :=
    if introduces names declarators then enteredOf (nodesOfDeclarators false declarators)
    else (functionsOf (nodesOfDeclarators false declarators)).map .passed
  labeled _ _ := none

/--
What is required of statements whose functions are visited: functions that are
entered have a property, and if there are functions in a declaration that
introduces none of some names, it declares checkers.
-/
def charted (names made : List String) (property : Function → Prop) : Parts where
  expression expression := AllFunctions property (expression.nodes false)
  function := property
  declared declarators :=
    if introduces names declarators then
      AllFunctions property (nodesOfDeclarators false declarators)
    else
      functionsOf (nodesOfDeclarators false declarators) = [] ∨
        ∀ name ∈ namesOfDeclarators declarators, name ∈ made

/-- The functions in variables of counting loops that have none of some names. -/
def hidden (names : List String) : Tally :=
  { Tally.zero with
    loop := fun declarators =>
      if introduces names declarators then 0
      else (functionsOf (nodesOfDeclarators false declarators)).length }

/-- Functions that are entered have the property that is required of them. -/
theorem visits_meet {names made : List String} {property : Function → Prop} :
    (visits names).Meets (charted names made property)
      fun visit => ∀ function, visit = .entered function → property function where
  expression holds visit member function equal := by
    obtain ⟨inner, among, rfl⟩ := List.mem_map.mp member
    cases equal
    exact holds _ among
  function holds visit member function equal := by
    cases List.mem_singleton.mp member
    cases equal
    exact holds
  declared {declarators} holds visit member function equal := by
    cases introduced : introduces names declarators <;>
      simp only [charted, visits, introduced, if_true, if_false, Bool.false_eq_true] at holds member
    · obtain ⟨inner, among, rfl⟩ := List.mem_map.mp member
      cases equal
    · obtain ⟨inner, among, rfl⟩ := List.mem_map.mp member
      cases equal
      exact holds _ among
  labeled _ absurd := by cases absurd

/-! ## Steps that visit functions -/

/-- A step visits functions, and its result yields what becomes of them. -/
structure TakesTurns (transform : Function → Transforming Function) (earliest : Work) {α : Type}
    (step : Transforming α) (visits : List Visit) (yields : α → List Function → Prop) :
    Prop where
  follows {work after : Work} {result : α} :
    earliest.Precedes work → step work = .ok (result, after) →
      earliest.Precedes after ∧
        ∃ results, yields result results ∧ InTurn transform visits work results after

namespace TakesTurns

variable {transform : Function → Transforming Function} {earliest : Work} {α β : Type}

theorem pure {value : α} {functions : List Function} {yields : α → List Function → Prop}
    (given : yields value functions) :
    TakesTurns transform earliest (Pure.pure value) (functions.map .passed) yields where
  follows {work _ _} early outcome := by
    obtain ⟨rfl, rfl⟩ := step_pure_eq_ok.mp outcome
    exact ⟨early, functions, given, .passedOver functions work⟩

theorem nil {value : α} {yields : α → List Function → Prop} (given : yields value []) :
    TakesTurns transform earliest (Pure.pure value) [] yields :=
  .pure given

theorem bind
    {first : Transforming α} {next : α → Transforming β} {visits others : List Visit}
    {yielded : α → List Function → Prop} {yields : β → List Function → Prop}
    (head : TakesTurns transform earliest first visits yielded)
    (rest : ∀ value functions, yielded value functions →
      TakesTurns transform earliest (next value) others
        fun result more => yields result (functions ++ more)) :
    TakesTurns transform earliest (first >>= next) (visits ++ others) yields where
  follows early outcome := by
    obtain ⟨value, between, begun, ended⟩ := step_bind_eq_ok.mp outcome
    obtain ⟨early', functions, given, turns⟩ := head.follows early begun
    obtain ⟨early'', more, given', turns'⟩ := (rest value functions given).follows early' ended
    exact ⟨early'', functions ++ more, given', turns.append turns'⟩

/-- A step that is followed only by putting its result together. -/
theorem last
    {first : Transforming α} {build : α → β} {visits : List Visit}
    {yielded : α → List Function → Prop} {yields : β → List Function → Prop}
    (head : TakesTurns transform earliest first visits yielded)
    (builds : ∀ value functions, yielded value functions → yields (build value) functions) :
    TakesTurns transform earliest (first >>= fun value => Pure.pure (build value)) visits yields where
  follows early outcome := by
    obtain ⟨value, between, begun, ended⟩ := step_bind_eq_ok.mp outcome
    obtain ⟨rfl, rfl⟩ := step_pure_eq_ok.mp ended
    obtain ⟨early', functions, given, turns⟩ := head.follows early begun
    exact ⟨early', functions, builds value functions given, turns⟩

end TakesTurns

section

open Replacer

set_option linter.unusedSectionVars false

variable {transform : Function → Transforming Function} {earliest : Work}

variable (advances : Advances transform)

include advances

theorem turns_onFunction (function : Function) :
    TakesTurns transform earliest ((nestedFunctions transform).onFunction function)
      [.entered function] fun result functions => functions = [result] where
  follows {work after result} early outcome := by
    have outcome : transform function work = .ok (result, after) := by
      obtain ⟨name, parameters, body, isArrow, isAsync, isGenerator⟩ := function
      rw [onFunction] at outcome
      obtain ⟨answer, between, gives, rest⟩ := step_bind_eq_ok.mp outcome
      obtain ⟨_, rfl, transformed⟩ := nestedFunctions_function_eq_ok.mp gives
      obtain ⟨rfl, rfl⟩ := step_pure_eq_ok.mp rest
      exact transformed
    exact ⟨early.trans (advances outcome), [result], rfl, .entered outcome .nil⟩

mutual

/-- The functions in an expression are transformed in turn. -/
theorem turns_onExpression : (expression : Expression) →
    TakesTurns transform earliest ((nestedFunctions transform).onExpression expression)
      (enteredOf (expression.nodes false))
      fun result functions => functionsOf (result.nodes false) = functions
  | .literal _ | .identifier _ | .receiver => by
      rw [onExpression, expression_of_nestedFunctions, pure_bind, Expression.nodes]
      exact .nil rfl
  | .array elements => by
      rw [onExpression, expression_of_nestedFunctions, pure_bind, Expression.nodes,
        enteredOf_cons_expression]
      exact (turns_onExpressions elements).last fun _ _ given => given
  | .record properties => by
      rw [onExpression, expression_of_nestedFunctions, pure_bind, Expression.nodes,
        enteredOf_cons_expression]
      exact (turns_onProperties properties).last fun _ _ given => given
  | .lambda function => by
      rw [onExpression, expression_of_nestedFunctions, pure_bind, Expression.nodes,
        enteredOf_cons_expression, enteredOf_function]
      refine (turns_onFunction advances function).last ?_
      rintro result _ rfl
      simp [Expression.nodes, Function.nodes_false]
  | .unary _ argument | .update _ _ argument | .await argument | .member argument _ => by
      rw [onExpression, expression_of_nestedFunctions, pure_bind, Expression.nodes,
        enteredOf_cons_expression]
      exact (turns_onExpression argument).last fun _ _ given => given
  | .binary _ left right | .logical _ left right | .assign _ left right | .index left right => by
      rw [onExpression, expression_of_nestedFunctions, pure_bind, Expression.nodes,
        enteredOf_cons_expression, enteredOf_append]
      refine (turns_onExpression left).bind fun _ _ given => ?_
      refine (turns_onExpression right).last fun _ _ given' => ?_
      simp [Expression.nodes, given, given']
  | .conditional test consequent alternate => by
      rw [onExpression, expression_of_nestedFunctions, pure_bind, Expression.nodes,
        enteredOf_cons_expression, enteredOf_append, enteredOf_append, List.append_assoc]
      refine (turns_onExpression test).bind fun _ _ given => ?_
      refine (turns_onExpression consequent).bind fun _ _ given' => ?_
      refine (turns_onExpression alternate).last fun _ _ given'' => ?_
      simp [Expression.nodes, given, given', given'']
  | .call callee arguments | .construct callee arguments => by
      rw [onExpression, expression_of_nestedFunctions, pure_bind, Expression.nodes,
        enteredOf_cons_expression, enteredOf_append]
      refine (turns_onExpression callee).bind fun _ _ given => ?_
      refine (turns_onExpressions arguments).last fun _ _ given' => ?_
      simp [Expression.nodes, given, given']
  | .sequence expressions => by
      rw [onExpression, expression_of_nestedFunctions, pure_bind, Expression.nodes,
        enteredOf_cons_expression]
      exact (turns_onExpressions expressions).last fun _ _ given => given
  | .yield argument _ => by
      rw [onExpression, expression_of_nestedFunctions, pure_bind, Expression.nodes,
        enteredOf_cons_expression]
      exact (turns_onOptional argument).last fun _ _ given => given

theorem turns_onExpressions : (expressions : List Expression) →
    TakesTurns transform earliest ((nestedFunctions transform).onExpressions expressions)
      (enteredOf (nodesOfExpressions false expressions))
      fun result functions => functionsOf (nodesOfExpressions false result) = functions
  | [] => by
      rw [onExpressions, nodesOfExpressions]
      exact .nil rfl
  | expression :: rest => by
      rw [onExpressions, nodesOfExpressions, enteredOf_append]
      refine (turns_onExpression expression).bind fun _ _ given => ?_
      refine (turns_onExpressions rest).last fun _ _ given' => ?_
      simp [nodesOfExpressions, given, given']

theorem turns_onProperties : (properties : List Property) →
    TakesTurns transform earliest ((nestedFunctions transform).onProperties properties)
      (enteredOf (nodesOfProperties false properties))
      fun result functions => functionsOf (nodesOfProperties false result) = functions
  | [] => by
      rw [onProperties, nodesOfProperties]
      exact .nil rfl
  | ⟨_, value⟩ :: rest => by
      rw [onProperties, nodesOfProperties, enteredOf_append]
      refine (turns_onExpression value).bind fun _ _ given => ?_
      refine (turns_onProperties rest).last fun _ _ given' => ?_
      simp [nodesOfProperties, given, given']

theorem turns_onOptional : (expression : Option Expression) →
    TakesTurns transform earliest ((nestedFunctions transform).onOptional expression)
      (enteredOf (nodesOfOptional false expression))
      fun result functions => functionsOf (nodesOfOptional false result) = functions
  | none => by
      rw [onOptional, nodesOfOptional]
      exact .nil rfl
  | some expression => by
      rw [onOptional, nodesOfOptional]
      exact (turns_onExpression expression).last fun _ _ given => given

end

theorem turns_onDeclarators (declarators : List Declarator) :
    TakesTurns transform earliest ((nestedFunctions transform).onDeclarators declarators)
      (enteredOf (nodesOfDeclarators false declarators))
      fun result functions => functionsOf (nodesOfDeclarators false result) = functions := by
  induction declarators with
  | nil =>
      rw [onDeclarators, nodesOfDeclarators]
      exact .nil rfl
  | cons declarator rest induction =>
      obtain ⟨name, init⟩ := declarator
      rw [onDeclarators, nodesOfDeclarators, enteredOf_append]
      refine (turns_onOptional advances init).bind fun _ _ given => ?_
      refine induction.last fun _ _ given' => ?_
      simp [nodesOfDeclarators, given, given']

variable {names : List String} {property : Function → Prop}

omit advances in
theorem enteredOf_nodesOfOptional (expression : Option Expression) :
    enteredOf (nodesOfOptional false expression) = (visits names).ofOptional expression := by
  cases expression with
  | none => rfl
  | some given =>
      rw [nodesOfOptional]
      rfl

/-- The functions in the initial step of a counting loop are transformed in turn. -/
theorem turns_onLoopInit : (init : Option LoopInit) → (hidden names).ofLoopInit init = 0 →
    TakesTurns transform earliest ((nestedFunctions transform).onLoopInit init)
      ((visits names).ofLoopInit init)
      fun result functions => functionsOf (nodesOfLoopInit false result) = functions
  | none, _ => by
      rw [onLoopInit]
      exact .nil rfl
  | some (.bindings _ declarators), empty => by
      have same : (visits names).declared declarators =
          enteredOf (nodesOfDeclarators false declarators) := by
        cases introduced : introduces names declarators with
        | true => simp only [visits, introduced, if_true]
        | false =>
            simp only [Tally.ofLoopInit, hidden, introduced, Bool.false_eq_true, if_false,
              List.length_eq_zero_iff] at empty
            simp [visits, introduced, empty, enteredOf]
      rw [onLoopInit, Collection.ofLoopInit, same]
      exact (turns_onDeclarators advances declarators).last fun _ _ given => given
  | some (.evaluate expression), _ => by
      rw [onLoopInit, Collection.ofLoopInit]
      exact (turns_onExpression advances expression).last fun _ _ given => given

omit advances in
/-- A statement is passed over if it declares checkers, and entered otherwise. -/
theorem turns_statement
    {statement : Statement} {next : Option Statement → Transforming Statement}
    {visits : List Visit} {yields : Statement → List Function → Prop}
    (passes : ∀ work, earliest.Precedes work → declaresHelpers work.helperNames statement = true →
      TakesTurns transform earliest (next (some statement)) visits yields)
    (enters : ∀ work, earliest.Precedes work →
      declaresHelpers work.helperNames statement = false →
        TakesTurns transform earliest (next none) visits yields) :
    TakesTurns transform earliest ((nestedFunctions transform).statement statement >>= next)
      visits yields where
  follows {work _ _} early outcome := by
    have hook : (nestedFunctions transform).statement statement work = .ok (_, work) :=
      nestedFunctions_statement_eq_ok.mpr ⟨rfl, rfl⟩
    rw [step_bind_of_ok hook] at outcome
    split at outcome
    case isTrue declares => exact (passes work early declares).follows early outcome
    case isFalse declares =>
      exact (enters work early (Bool.eq_false_iff.mpr declares)).follows early outcome

variable (sound : earliest.Sound (· ∈ names))

include sound

omit advances in
/-- What declares checkers introduces no name of the program. -/
theorem introduces_of_declaresHelpers
    {work : Work} {kind : DeclarationKind} {declarators : List Declarator}
    (early : earliest.Precedes work)
    (declares : declaresHelpers work.helperNames (.bindings kind declarators) = true) :
    introduces names declarators = false := by
  refine List.any_eq_false.mpr fun declarator member introduced => ?_
  have helper := List.all_eq_true.mp declares declarator member
  exact ((sound.later early).known (List.contains_iff_mem.mp introduced)).2
    (List.contains_iff_mem.mp helper)

/-- The functions in a declaration are passed over together, or they are transformed in turn. -/
theorem turns_bindings {kind : DeclarationKind} {declarators : List Declarator}
    (holds : (charted names earliest.helperNames property).declared declarators) :
    TakesTurns transform earliest ((nestedFunctions transform).onStatement (.bindings kind declarators))
      ((visits names).declared declarators)
      fun result functions => functionsOf (result.nodes false) = functions := by
  rw [onStatement]
  refine turns_statement ?_ ?_
  · intro work early declares
    have unknown := introduces_of_declaresHelpers sound early declares
    simp only [visits, unknown, Bool.false_eq_true, if_false]
    refine .pure ?_
    rw [Statement.nodes, functionsOf_cons_statement]
  · intro work early enters
    have same : (visits names).declared declarators =
        enteredOf (nodesOfDeclarators false declarators) := by
      cases introduced : introduces names declarators with
      | true => simp only [visits, introduced, if_true]
      | false =>
          simp only [charted, introduced, Bool.false_eq_true, if_false] at holds
          rcases holds with none | made
          · simp [visits, introduced, none, enteredOf]
          · -- A declaration of checkers would not have been entered.
            refine absurd enters (Bool.not_eq_false _ ▸ List.all_eq_true.mpr ?_)
            intro declarator member
            exact List.contains_iff_mem.mpr
              (early.helpers (made _ (List.mem_map.mpr ⟨declarator, member, rfl⟩)))
    rw [same]
    exact (turns_onDeclarators advances declarators).last fun _ _ given => given

mutual

/-- The functions in a statement are transformed in turn, except for those of checkers. -/
theorem turns_onStatement : (statement : Statement) →
    (charted names earliest.helperNames property).OnStatement statement →
      (hidden names).ofStatement statement = 0 →
        TakesTurns transform earliest ((nestedFunctions transform).onStatement statement)
          ((visits names).ofStatement statement)
          fun result functions => functionsOf (result.nodes false) = functions
  | .evaluate expression, _, _ | .raise expression, _, _ => by
      rw [onStatement, Collection.ofStatement]
      refine turns_statement (fun _ _ absurd => by cases absurd) fun _ _ _ => ?_
      exact (turns_onExpression advances expression).last fun _ _ given => given
  | .block statements, holds, empty => by
      rw [Parts.OnStatement] at holds
      rw [Tally.ofStatement] at empty
      rw [onStatement, Collection.ofStatement]
      refine turns_statement (fun _ _ absurd => by cases absurd) fun _ _ _ => ?_
      exact (turns_onStatements statements holds empty).last fun _ _ given => given
  | .labeled _ body, holds, empty => by
      rw [Parts.OnStatement] at holds
      rw [Tally.ofStatement_labeled rfl] at empty
      rw [onStatement, Collection.ofStatement]
      refine turns_statement (fun _ _ absurd => by cases absurd) fun _ _ _ => ?_
      exact (turns_onStatement body holds empty).last fun _ _ given => given
  | .giveBack argument, _, _ => by
      rw [onStatement, Collection.ofStatement, ← enteredOf_nodesOfOptional]
      refine turns_statement (fun _ _ absurd => by cases absurd) fun _ _ _ => ?_
      exact (turns_onOptional advances argument).last fun _ _ given => given
  | .branch test consequent alternate, holds, empty => by
      rw [Parts.OnStatement] at holds
      simp only [Tally.ofStatement, Nat.add_eq_zero_iff] at empty
      rw [onStatement, Collection.ofStatement, List.append_assoc]
      refine turns_statement (fun _ _ absurd => by cases absurd) fun _ _ _ => ?_
      refine (turns_onExpression advances test).bind fun _ _ given => ?_
      refine (turns_onStatement consequent holds.2.1 empty.1.2).bind fun _ _ given' => ?_
      refine (turns_onAlternate alternate holds.2.2 empty.2).last fun _ _ given'' => ?_
      simp [Statement.nodes, given, given', given'']
  | .whileLoop test body, holds, empty => by
      rw [Parts.OnStatement] at holds
      simp only [Tally.ofStatement, Nat.add_eq_zero_iff] at empty
      rw [onStatement, Collection.ofStatement]
      refine turns_statement (fun _ _ absurd => by cases absurd) fun _ _ _ => ?_
      refine (turns_onExpression advances test).bind fun _ _ given => ?_
      refine (turns_onStatement body holds.2 empty.2).last fun _ _ given' => ?_
      simp [Statement.nodes, given, given']
  | .doWhileLoop body test, holds, empty => by
      rw [Parts.OnStatement] at holds
      simp only [Tally.ofStatement, Nat.add_eq_zero_iff] at empty
      rw [onStatement, Collection.ofStatement]
      refine turns_statement (fun _ _ absurd => by cases absurd) fun _ _ _ => ?_
      refine (turns_onStatement body holds.2 empty.1).bind fun _ _ given => ?_
      refine (turns_onExpression advances test).last fun _ _ given' => ?_
      simp [Statement.nodes, given, given']
  | .forLoop init test update body, holds, empty => by
      rw [Parts.OnStatement] at holds
      simp only [Tally.ofStatement, Nat.add_eq_zero_iff] at empty
      rw [onStatement, Collection.ofStatement, ← enteredOf_nodesOfOptional,
        ← enteredOf_nodesOfOptional, List.append_assoc, List.append_assoc]
      refine turns_statement (fun _ _ absurd => by cases absurd) fun _ _ _ => ?_
      refine (turns_onLoopInit advances init empty.1.1.1).bind fun _ _ given => ?_
      refine (turns_onOptional advances test).bind fun _ _ given' => ?_
      refine (turns_onOptional advances update).bind fun _ _ given'' => ?_
      refine (turns_onStatement body holds.2.2.2 empty.2).last fun _ _ given''' => ?_
      simp [Statement.nodes, given, given', given'', given''']
  | .bindings _ _, holds, _ => by
      rw [Parts.OnStatement] at holds
      rw [Collection.ofStatement]
      exact turns_bindings advances sound holds
  | .declare function, _, _ => by
      rw [onStatement, Collection.ofStatement]
      refine turns_statement (fun _ _ absurd => by cases absurd) fun _ _ _ => ?_
      refine (turns_onFunction advances function).last ?_
      rintro result _ rfl
      simp [Statement.nodes, Function.nodes_false]
  | .breakOut _, _, _ | .continueLoop _, _, _ | .empty, _, _ => by
      rw [onStatement, Collection.ofStatement]
      exact turns_statement (fun _ _ absurd => by cases absurd) fun _ _ _ => .nil rfl

theorem turns_onAlternate : (alternate : Option Statement) →
    (charted names earliest.helperNames property).OnAlternate alternate →
      (hidden names).ofAlternate alternate = 0 →
        TakesTurns transform earliest ((nestedFunctions transform).onAlternate alternate)
          ((visits names).ofAlternate alternate)
          fun result functions => functionsOf (nodesOfAlternate false result) = functions
  | none, _, _ => by
      rw [onAlternate, Collection.ofAlternate]
      exact .nil rfl
  | some statement, holds, empty => by
      rw [Parts.OnAlternate] at holds
      rw [Tally.ofAlternate] at empty
      rw [onAlternate, Collection.ofAlternate]
      exact (turns_onStatement statement holds empty).last fun _ _ given => given

/-- The functions in statements are transformed in turn, except for those of checkers. -/
theorem turns_onStatements : (statements : List Statement) →
    (charted names earliest.helperNames property).OnStatements statements →
      (hidden names).ofStatements statements = 0 →
        TakesTurns transform earliest ((nestedFunctions transform).onStatements statements)
          ((visits names).ofStatements statements)
          fun result functions => functionsOf (nodesOfStatements false result) = functions
  | [], _, _ => by
      rw [onStatements, Collection.ofStatements]
      exact .nil rfl
  | statement :: rest, holds, empty => by
      rw [Parts.OnStatements] at holds
      simp only [Tally.ofStatements, Nat.add_eq_zero_iff] at empty
      rw [onStatements, Collection.ofStatements]
      refine (turns_onStatement statement holds.1 empty.1).bind fun _ _ given => ?_
      refine (turns_onStatements rest holds.2 empty.2).last fun _ _ given' => ?_
      simp [nodesOfStatements, given, given']

end

end

end Covenant.Contract
