import Covenant.Proofs.Deep

/-!
# Replacers in lockstep

Two replacers go through two trees that are related by an exchange.  If their
hooks do the same at all parts of the trees that correspond, then so do the
replacers: in whatever sense of doing the same, as long as actions that do the
same one after the other do the same together.
-/

namespace Covenant.Replacer

variable {m : Type → Type} [Monad m]

/-- A sense in which two actions do the same. -/
structure Pace (m : Type → Type) [Monad m] where
  same : {α : Type} → m α → m α → Prop
  pure {α : Type} (value : α) : same (pure value) (pure value)
  bind {α β : Type} {first first' : m α} {next next' : α → m β} :
    same first first' → (∀ value, same (next value) (next' value)) →
      same (first >>= next) (first' >>= next')

/-- What is required of parts gives the functions in them what is required of functions. -/
structure Covers (exchange : Exchange) (parts : Parts) : Prop where
  expression {expression : Expression} :
    parts.expression expression → AllFunctions parts.function (expression.nodes false)
  declared {declarators : List Declarator} :
    (∀ name ∈ namesOfDeclarators declarators, exchange.name name) → parts.declared declarators →
      AllFunctions parts.function (nodesOfDeclarators false declarators)

/-- The hooks of two replacers do the same at corresponding parts of trees. -/
structure Lockstep (pace : Pace m) (exchange : Exchange) (parts parts' : Parts)
    (replacer replacer' : Replacer m) : Prop where
  covers : Covers exchange parts
  covers' : Covers exchange parts'
  expression {source target : Expression} :
    exchange.OnExpression source target →
      pace.same (replacer.expression source) (replacer'.expression target)
  /-- Expressions that stand for each other need not be alike, but what is done is. -/
  exchanged {source target : Expression} :
    exchange.expression source target →
      pace.same (replacer.onExpression source) (replacer'.onExpression target)
  function {source target : Function} :
    exchange.function source target → parts.function source → parts'.function target →
      pace.same (replacer.onFunction source) (replacer'.onFunction target)
  statement {source target : Statement} :
    exchange.OnStatement source target → parts.OnStatement source → parts'.OnStatement target →
      pace.same (replacer.statement source) (replacer'.statement target)
  swapped {source target : Statement} :
    exchange.statement source target →
      pace.same (replacer.onStatement source) (replacer'.onStatement target)

theorem Covers.optional {exchange : Exchange} {parts : Parts} (covers : Covers exchange parts)
    {expression : Option Expression} (holds : parts.OnOptional expression) :
    AllFunctions parts.function (nodesOfOptional false expression) := by
  cases expression with
  | none => exact .nil
  | some given =>
      rw [nodesOfOptional]
      exact covers.expression (holds given rfl)

/-- Variables that correspond have names that may be declared. -/
theorem known_of_onDeclarators {exchange : Exchange} {declarators declarators' : List Declarator}
    (related : exchange.OnDeclarators declarators declarators') :
    ∀ name ∈ namesOfDeclarators declarators, exchange.name name := by
  induction related with
  | nil => simp [namesOfDeclarators]
  | cons known _ _ induction => exact List.forall_mem_cons.mpr ⟨known, induction⟩

/-- Actions do the same if they ask hooks that do, and go on alike without an answer. -/
theorem Pace.answered {pace : Pace m} {α β : Type} {hook hook' : m (Option α)}
    {next next' : Option α → m β} (asked : pace.same hook hook')
    (taken : ∀ answer, pace.same (next (some answer)) (next' (some answer)))
    (entered : pace.same (next none) (next' none)) :
    pace.same (hook >>= next) (hook' >>= next') := by
  refine pace.bind asked fun answer => ?_
  cases answer with
  | some answer => exact taken answer
  | none => exact entered

section

set_option linter.unusedSectionVars false

variable {pace : Pace m} {exchange : Exchange} {parts parts' : Parts}
  {replacer replacer' : Replacer m} (lockstep : Lockstep pace exchange parts parts' replacer replacer')

include lockstep

mutual

/-- Replacers in lockstep do the same in expressions that correspond. -/
theorem same_onExpression {source target : Expression} :
    exchange.OnExpression source target →
      AllFunctions parts.function (source.nodes false) →
        AllFunctions parts'.function (target.nodes false) →
          pace.same (replacer.onExpression source) (replacer'.onExpression target)
  | .exchanged given, _, _ => lockstep.exchanged given
  | related@(.literal _), _, _ | related@(.identifier _), _, _ | related@.receiver, _, _ => by
      rw [onExpression, onExpression]
      exact pace.answered (lockstep.expression related) pace.pure (pace.pure _)
  | related@(.array inner), holds, holds' => by
      rw [Expression.nodes, AllFunctions.cons_expression] at holds holds'
      rw [onExpression, onExpression]
      refine pace.answered (lockstep.expression related) pace.pure ?_
      exact pace.bind (same_onExpressions inner holds holds') fun _ => pace.pure _
  | related@(.record inner), holds, holds' => by
      rw [Expression.nodes, AllFunctions.cons_expression] at holds holds'
      rw [onExpression, onExpression]
      refine pace.answered (lockstep.expression related) pace.pure ?_
      exact pace.bind (same_onProperties inner holds holds') fun _ => pace.pure _
  | related@(.lambda inner), holds, holds' => by
      rw [Expression.nodes, AllFunctions.cons_expression, AllFunctions.of_lambda] at holds holds'
      rw [onExpression, onExpression]
      refine pace.answered (lockstep.expression related) pace.pure ?_
      exact pace.bind (lockstep.function inner holds holds') fun _ => pace.pure _
  | related@(.unary inner), holds, holds' | related@(.update inner), holds, holds'
  | related@(.await inner), holds, holds' | related@(.member inner), holds, holds' => by
      rw [Expression.nodes, AllFunctions.cons_expression] at holds holds'
      rw [onExpression, onExpression]
      refine pace.answered (lockstep.expression related) pace.pure ?_
      exact pace.bind (same_onExpression inner holds holds') fun _ => pace.pure _
  | related@(.binary left right), holds, holds'
  | related@(.logical left right), holds, holds'
  | related@(.assign left right), holds, holds'
  | related@(.index left right), holds, holds' => by
      rw [Expression.nodes, AllFunctions.cons_expression, AllFunctions.append] at holds holds'
      rw [onExpression, onExpression]
      refine pace.answered (lockstep.expression related) pace.pure ?_
      refine pace.bind (same_onExpression left holds.1 holds'.1) fun _ => ?_
      exact pace.bind (same_onExpression right holds.2 holds'.2) fun _ => pace.pure _
  | related@(.conditional test consequent alternate), holds, holds' => by
      rw [Expression.nodes, AllFunctions.cons_expression, AllFunctions.append,
        AllFunctions.append] at holds holds'
      rw [onExpression, onExpression]
      refine pace.answered (lockstep.expression related) pace.pure ?_
      refine pace.bind (same_onExpression test holds.1.1 holds'.1.1) fun _ => ?_
      refine pace.bind (same_onExpression consequent holds.1.2 holds'.1.2) fun _ => ?_
      exact pace.bind (same_onExpression alternate holds.2 holds'.2) fun _ => pace.pure _
  | related@(.call callee arguments), holds, holds'
  | related@(.construct callee arguments), holds, holds' => by
      rw [Expression.nodes, AllFunctions.cons_expression, AllFunctions.append] at holds holds'
      rw [onExpression, onExpression]
      refine pace.answered (lockstep.expression related) pace.pure ?_
      refine pace.bind (same_onExpression callee holds.1 holds'.1) fun _ => ?_
      exact pace.bind (same_onExpressions arguments holds.2 holds'.2) fun _ => pace.pure _
  | related@(.sequence inner), holds, holds' => by
      rw [Expression.nodes, AllFunctions.cons_expression] at holds holds'
      rw [onExpression, onExpression]
      refine pace.answered (lockstep.expression related) pace.pure ?_
      exact pace.bind (same_onExpressions inner holds holds') fun _ => pace.pure _
  | related@(.yield inner), holds, holds' => by
      rw [Expression.nodes, AllFunctions.cons_expression] at holds holds'
      rw [onExpression, onExpression]
      refine pace.answered (lockstep.expression related) pace.pure ?_
      exact pace.bind (same_onOptional inner holds holds') fun _ => pace.pure _

theorem same_onExpressions {source target : List Expression} :
    exchange.OnExpressions source target →
      AllFunctions parts.function (nodesOfExpressions false source) →
        AllFunctions parts'.function (nodesOfExpressions false target) →
          pace.same (replacer.onExpressions source) (replacer'.onExpressions target)
  | .nil, _, _ => by
      rw [onExpressions, onExpressions]
      exact pace.pure _
  | .cons first second, holds, holds' => by
      rw [nodesOfExpressions, AllFunctions.append] at holds holds'
      rw [onExpressions, onExpressions]
      refine pace.bind (same_onExpression first holds.1 holds'.1) fun _ => ?_
      exact pace.bind (same_onExpressions second holds.2 holds'.2) fun _ => pace.pure _

theorem same_onProperties {source target : List Property} :
    exchange.OnProperties source target →
      AllFunctions parts.function (nodesOfProperties false source) →
        AllFunctions parts'.function (nodesOfProperties false target) →
          pace.same (replacer.onProperties source) (replacer'.onProperties target)
  | .nil, _, _ => by
      rw [onProperties, onProperties]
      exact pace.pure _
  | .cons first second, holds, holds' => by
      rw [nodesOfProperties, AllFunctions.append] at holds holds'
      rw [onProperties, onProperties]
      refine pace.bind (same_onExpression first holds.1 holds'.1) fun _ => ?_
      exact pace.bind (same_onProperties second holds.2 holds'.2) fun _ => pace.pure _

theorem same_onOptional {source target : Option Expression} :
    exchange.OnOptional source target →
      AllFunctions parts.function (nodesOfOptional false source) →
        AllFunctions parts'.function (nodesOfOptional false target) →
          pace.same (replacer.onOptional source) (replacer'.onOptional target)
  | .none, _, _ => by
      rw [onOptional, onOptional]
      exact pace.pure _
  | .some inner, holds, holds' => by
      rw [nodesOfOptional] at holds holds'
      rw [onOptional, onOptional]
      exact pace.bind (same_onExpression inner holds holds') fun _ => pace.pure _

end

theorem same_onDeclarators {source target : List Declarator}
    (related : exchange.OnDeclarators source target) :
    AllFunctions parts.function (nodesOfDeclarators false source) →
      AllFunctions parts'.function (nodesOfDeclarators false target) →
        pace.same (replacer.onDeclarators source) (replacer'.onDeclarators target) := by
  induction related with
  | nil =>
      intro _ _
      rw [onDeclarators, onDeclarators]
      exact pace.pure _
  | cons _ first _ induction =>
      intro holds holds'
      rw [nodesOfDeclarators, AllFunctions.append] at holds holds'
      rw [onDeclarators, onDeclarators]
      refine pace.bind (same_onOptional lockstep first holds.1 holds'.1) fun _ => ?_
      exact pace.bind (induction holds.2 holds'.2) fun _ => pace.pure _

/-- Replacers in lockstep do the same in declared variables that correspond. -/
theorem same_onVariables {source target : List Declarator}
    (related : exchange.OnDeclarators source target)
    (holds : parts.declared source) (holds' : parts'.declared target) :
    pace.same (replacer.onDeclarators source) (replacer'.onDeclarators target) := by
  have known := known_of_onDeclarators related
  exact same_onDeclarators lockstep related (lockstep.covers.declared known holds)
    (lockstep.covers'.declared (related.names ▸ known) holds')

theorem same_onGiven {source target : Option Expression}
    (related : exchange.OnOptional source target)
    (holds : parts.OnOptional source) (holds' : parts'.OnOptional target) :
    pace.same (replacer.onOptional source) (replacer'.onOptional target) :=
  same_onOptional lockstep related (lockstep.covers.optional holds)
    (lockstep.covers'.optional holds')

theorem same_onWritten {source target : Expression}
    (related : exchange.OnExpression source target)
    (holds : parts.expression source) (holds' : parts'.expression target) :
    pace.same (replacer.onExpression source) (replacer'.onExpression target) :=
  same_onExpression lockstep related (lockstep.covers.expression holds)
    (lockstep.covers'.expression holds')

theorem same_onLoopInit {source target : Option LoopInit}
    (related : exchange.OnLoopInit source target)
    (holds : parts.OnLoopInit source) (holds' : parts'.OnLoopInit target) :
    pace.same (replacer.onLoopInit source) (replacer'.onLoopInit target) := by
  cases related with
  | none =>
      rw [onLoopInit, onLoopInit]
      exact pace.pure _
  | bindings inner =>
      rw [onLoopInit, onLoopInit]
      exact pace.bind (same_onVariables lockstep inner holds holds') fun _ => pace.pure _
  | evaluate inner =>
      rw [onLoopInit, onLoopInit]
      exact pace.bind (same_onWritten lockstep inner holds holds') fun _ => pace.pure _

mutual

/-- Replacers in lockstep do the same in statements that correspond. -/
theorem same_onStatement {source target : Statement} :
    exchange.OnStatement source target →
      parts.OnStatement source → parts'.OnStatement target →
        pace.same (replacer.onStatement source) (replacer'.onStatement target)
  | .exchanged given, _, _ => lockstep.swapped given
  | related@(.evaluate inner), holds, holds' | related@(.raise inner), holds, holds' => by
      rw [Parts.OnStatement] at holds holds'
      rw [onStatement, onStatement]
      refine pace.answered (lockstep.statement related holds holds') pace.pure ?_
      exact pace.bind (same_onWritten lockstep inner holds holds') fun _ => pace.pure _
  | related@(.block inner), holds, holds' => by
      rw [Parts.OnStatement] at holds holds'
      rw [onStatement, onStatement]
      refine pace.answered (lockstep.statement related holds holds') pace.pure ?_
      exact pace.bind (same_onStatements inner holds holds') fun _ => pace.pure _
  | related@(.labeled inner), holds, holds' => by
      rw [Parts.OnStatement] at holds holds'
      rw [onStatement, onStatement]
      refine pace.answered (lockstep.statement related holds holds') pace.pure ?_
      exact pace.bind (same_onStatement inner holds holds') fun _ => pace.pure _
  | related@(.giveBack inner), holds, holds' => by
      rw [Parts.OnStatement] at holds holds'
      rw [onStatement, onStatement]
      refine pace.answered (lockstep.statement related holds holds') pace.pure ?_
      exact pace.bind (same_onGiven lockstep inner holds holds') fun _ => pace.pure _
  | related@(.branch test consequent alternate), holds, holds' => by
      rw [Parts.OnStatement] at holds holds'
      rw [onStatement, onStatement]
      refine pace.answered (lockstep.statement related holds holds') pace.pure ?_
      refine pace.bind (same_onWritten lockstep test holds.1 holds'.1) fun _ => ?_
      refine pace.bind (same_onStatement consequent holds.2.1 holds'.2.1) fun _ => ?_
      exact pace.bind (same_onAlternate alternate holds.2.2 holds'.2.2) fun _ => pace.pure _
  | related@(.whileLoop test body), holds, holds' => by
      rw [Parts.OnStatement] at holds holds'
      rw [onStatement, onStatement]
      refine pace.answered (lockstep.statement related holds holds') pace.pure ?_
      refine pace.bind (same_onWritten lockstep test holds.1 holds'.1) fun _ => ?_
      exact pace.bind (same_onStatement body holds.2 holds'.2) fun _ => pace.pure _
  | related@(.doWhileLoop body test), holds, holds' => by
      rw [Parts.OnStatement] at holds holds'
      rw [onStatement, onStatement]
      refine pace.answered (lockstep.statement related holds holds') pace.pure ?_
      refine pace.bind (same_onStatement body holds.2 holds'.2) fun _ => ?_
      exact pace.bind (same_onWritten lockstep test holds.1 holds'.1) fun _ => pace.pure _
  | related@(.forLoop init test update body), holds, holds' => by
      rw [Parts.OnStatement] at holds holds'
      rw [onStatement, onStatement]
      refine pace.answered (lockstep.statement related holds holds') pace.pure ?_
      refine pace.bind (same_onLoopInit lockstep init holds.1 holds'.1) fun _ => ?_
      refine pace.bind (same_onGiven lockstep test holds.2.1 holds'.2.1) fun _ => ?_
      refine pace.bind (same_onGiven lockstep update holds.2.2.1 holds'.2.2.1) fun _ => ?_
      exact pace.bind (same_onStatement body holds.2.2.2 holds'.2.2.2) fun _ => pace.pure _
  | related@(.bindings inner), holds, holds' => by
      rw [Parts.OnStatement] at holds holds'
      rw [onStatement, onStatement]
      refine pace.answered (lockstep.statement related holds holds') pace.pure ?_
      exact pace.bind (same_onVariables lockstep inner holds holds') fun _ => pace.pure _
  | related@(.declare inner), holds, holds' => by
      rw [Parts.OnStatement] at holds holds'
      rw [onStatement, onStatement]
      refine pace.answered (lockstep.statement related holds holds') pace.pure ?_
      exact pace.bind (lockstep.function inner holds holds') fun _ => pace.pure _
  | related@(.breakOut _), holds, holds' | related@(.continueLoop _), holds, holds'
  | related@.empty, holds, holds' => by
      rw [onStatement, onStatement]
      exact pace.answered (lockstep.statement related holds holds') pace.pure (pace.pure _)

theorem same_onAlternate {source target : Option Statement} :
    exchange.OnAlternate source target →
      parts.OnAlternate source → parts'.OnAlternate target →
        pace.same (replacer.onAlternate source) (replacer'.onAlternate target)
  | .none, _, _ => by
      rw [onAlternate, onAlternate]
      exact pace.pure _
  | .some inner, holds, holds' => by
      rw [Parts.OnAlternate] at holds holds'
      rw [onAlternate, onAlternate]
      exact pace.bind (same_onStatement inner holds holds') fun _ => pace.pure _

/-- Replacers in lockstep do the same in lists of statements that correspond. -/
theorem same_onStatements {source target : List Statement} :
    exchange.OnStatements source target →
      parts.OnStatements source → parts'.OnStatements target →
        pace.same (replacer.onStatements source) (replacer'.onStatements target)
  | .nil, _, _ => by
      rw [onStatements, onStatements]
      exact pace.pure _
  | .cons first second, holds, holds' => by
      rw [Parts.OnStatements] at holds holds'
      rw [onStatements, onStatements]
      refine pace.bind (same_onStatement first holds.1 holds'.1) fun _ => ?_
      exact pace.bind (same_onStatements second holds.2 holds'.2) fun _ => pace.pure _

end

end

/-- Functions that are given to transformations which do the same are replaced alike. -/
theorem same_onFunction [LawfulMonad m] {pace : Pace m} {replacer replacer' : Replacer m}
    {transform transform' : Function → m Function}
    (given : ∀ function, replacer.function function = some <$> transform function)
    (given' : ∀ function, replacer'.function function = some <$> transform' function)
    {source target : Function} (step : pace.same (transform source) (transform' target)) :
    pace.same (replacer.onFunction source) (replacer'.onFunction target) := by
  obtain ⟨name, parameters, body, isArrow, isAsync, isGenerator⟩ := source
  obtain ⟨name', parameters', body', isArrow', isAsync', isGenerator'⟩ := target
  rw [onFunction, onFunction, given, given', map_eq_pure_bind, map_eq_pure_bind, bind_assoc,
    bind_assoc]
  refine pace.bind step fun function => ?_
  rw [pure_bind, pure_bind]
  exact pace.pure function

end Covenant.Replacer
