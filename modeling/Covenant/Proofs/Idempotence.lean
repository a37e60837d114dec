import Mathlib
import Covenant.Proofs.Finished

/-!
# Transforming twice

A transformed program has nothing left to be transformed: its statements are
settled, outside functions and in every function, the checkers included.
Transforming it again succeeds, changes nothing, and counts nothing but the
functions that it looks at.
-/

namespace Covenant.Contract

/-! ## Steps that keep a value -/

/-- Nothing happened but that functions were counted. -/
structure Work.Idles (earlier later : Work) : Prop where
  supply : later.supply = earlier.supply
  helperNames : later.helperNames = earlier.helperNames
  summary : ∃ functions, later.summary = { earlier.summary with functions := functions }

namespace Work

theorem Idles.refl (work : Work) : work.Idles work :=
  ⟨rfl, rfl, work.summary.functions, rfl⟩

theorem Idles.trans
    {first second third : Work} (before : first.Idles second) (after : second.Idles third) :
    first.Idles third := by
  obtain ⟨early, earlyEqual⟩ := before.summary
  obtain ⟨late, lateEqual⟩ := after.summary
  exact ⟨after.supply.trans before.supply, after.helperNames.trans before.helperNames, late,
    by rw [lateEqual, earlyEqual]⟩

end Work

/-- A step gives a value and only counts functions. -/
def Keeps {α : Type} (step : Transforming α) (value : α) : Prop :=
  ∀ work, ∃ after, step work = .ok (value, after) ∧ work.Idles after

theorem Keeps.pure {α : Type} (value : α) : Keeps (Pure.pure value) value :=
  fun work => ⟨work, rfl, .refl work⟩

theorem Keeps.bind {α β : Type} {first : Transforming α} {next : α → Transforming β}
    {value : α} {result : β} (kept : Keeps first value) (rest : Keeps (next value) result) :
    Keeps (first >>= next) result := by
  intro work
  obtain ⟨between, outcome, idle⟩ := kept work
  obtain ⟨after, final, idles⟩ := rest between
  exact ⟨after, by rw [step_bind_of_ok outcome, final], idle.trans idles⟩

/-! ## Trees whose functions are kept -/

section

open Replacer

variable {transform : Function → Transforming Function}

/-- A function that a transformation keeps. -/
abbrev Kept (transform : Function → Transforming Function) (function : Function) : Prop :=
  Keeps (transform function) function

theorem keeps_onFunction {function : Function} (kept : Kept transform function) :
    Keeps ((nestedFunctions transform).onFunction function) function := by
  obtain ⟨name, parameters, body, isArrow, isAsync, isGenerator⟩ := function
  rw [onFunction]
  have hook : Keeps ((nestedFunctions transform).function
      ⟨name, parameters, body, isArrow, isAsync, isGenerator⟩)
      (some ⟨name, parameters, body, isArrow, isAsync, isGenerator⟩) := by
    intro work
    obtain ⟨after, outcome, idle⟩ := kept work
    exact ⟨after, nestedFunctions_function_eq_ok.mpr ⟨_, rfl, outcome⟩, idle⟩
  exact hook.bind (.pure _)

theorem expression_of_nestedFunctions (expression : Expression) :
    (nestedFunctions transform).expression expression = pure none :=
  rfl

mutual

/-- An expression whose functions are kept is kept. -/
theorem keeps_onExpression : (expression : Expression) →
    AllFunctions (Kept transform) (expression.nodes false) →
      Keeps ((nestedFunctions transform).onExpression expression) expression
  | .literal _, _ | .identifier _, _ | .receiver, _ => by
      rw [onExpression, expression_of_nestedFunctions, pure_bind]
      exact .pure _
  | .array elements, kept => by
      rw [Expression.nodes, AllFunctions.cons_expression] at kept
      rw [onExpression, expression_of_nestedFunctions, pure_bind]
      exact (keeps_onExpressions elements kept).bind (.pure _)
  | .record properties, kept => by
      rw [Expression.nodes, AllFunctions.cons_expression] at kept
      rw [onExpression, expression_of_nestedFunctions, pure_bind]
      exact (keeps_onProperties properties kept).bind (.pure _)
  | .lambda function, kept => by
      rw [Expression.nodes, AllFunctions.cons_expression, AllFunctions.of_lambda] at kept
      rw [onExpression, expression_of_nestedFunctions, pure_bind]
      exact (keeps_onFunction kept).bind (.pure _)
  | .unary _ argument, kept | .update _ _ argument, kept | .await argument, kept
  | .member argument _, kept => by
      rw [Expression.nodes, AllFunctions.cons_expression] at kept
      rw [onExpression, expression_of_nestedFunctions, pure_bind]
      exact (keeps_onExpression argument kept).bind (.pure _)
  | .binary _ left right, kept | .logical _ left right, kept | .assign _ left right, kept
  | .index left right, kept => by
      rw [Expression.nodes, AllFunctions.cons_expression, AllFunctions.append] at kept
      rw [onExpression, expression_of_nestedFunctions, pure_bind]
      refine (keeps_onExpression left kept.1).bind ?_
      exact (keeps_onExpression right kept.2).bind (.pure _)
  | .conditional test consequent alternate, kept => by
      rw [Expression.nodes, AllFunctions.cons_expression, AllFunctions.append,
        AllFunctions.append] at kept
      rw [onExpression, expression_of_nestedFunctions, pure_bind]
      refine (keeps_onExpression test kept.1.1).bind ?_
      refine (keeps_onExpression consequent kept.1.2).bind ?_
      exact (keeps_onExpression alternate kept.2).bind (.pure _)
  | .call callee arguments, kept | .construct callee arguments, kept => by
      rw [Expression.nodes, AllFunctions.cons_expression, AllFunctions.append] at kept
      rw [onExpression, expression_of_nestedFunctions, pure_bind]
      refine (keeps_onExpression callee kept.1).bind ?_
      exact (keeps_onExpressions arguments kept.2).bind (.pure _)
  | .sequence expressions, kept => by
      rw [Expression.nodes, AllFunctions.cons_expression] at kept
      rw [onExpression, expression_of_nestedFunctions, pure_bind]
      exact (keeps_onExpressions expressions kept).bind (.pure _)
  | .yield argument _, kept => by
      rw [Expression.nodes, AllFunctions.cons_expression] at kept
      rw [onExpression, expression_of_nestedFunctions, pure_bind]
      exact (keeps_onOptional argument kept).bind (.pure _)

theorem keeps_onExpressions : (expressions : List Expression) →
    AllFunctions (Kept transform) (nodesOfExpressions false expressions) →
      Keeps ((nestedFunctions transform).onExpressions expressions) expressions
  | [], _ => by
      rw [onExpressions]
      exact .pure _
  | expression :: rest, kept => by
      rw [nodesOfExpressions, AllFunctions.append] at kept
      rw [onExpressions]
      refine (keeps_onExpression expression kept.1).bind ?_
      exact (keeps_onExpressions rest kept.2).bind (.pure _)

theorem keeps_onProperties : (properties : List Property) →
    AllFunctions (Kept transform) (nodesOfProperties false properties) →
      Keeps ((nestedFunctions transform).onProperties properties) properties
  | [], _ => by
      rw [onProperties]
      exact .pure _
  | ⟨_, value⟩ :: rest, kept => by
      rw [nodesOfProperties, AllFunctions.append] at kept
      rw [onProperties]
      refine (keeps_onExpression value kept.1).bind ?_
      exact (keeps_onProperties rest kept.2).bind (.pure _)

theorem keeps_onOptional : (expression : Option Expression) →
    AllFunctions (Kept transform) (nodesOfOptional false expression) →
      Keeps ((nestedFunctions transform).onOptional expression) expression
  | none, _ => by
      rw [onOptional]
      exact .pure _
  | some expression, kept => by
      rw [nodesOfOptional] at kept
      rw [onOptional]
      exact (keeps_onExpression expression kept).bind (.pure _)

end

theorem keeps_onDeclarators : (declarators : List Declarator) →
    AllFunctions (Kept transform) (nodesOfDeclarators false declarators) →
      Keeps ((nestedFunctions transform).onDeclarators declarators) declarators
  | [], _ => by
      rw [onDeclarators]
      exact .pure _
  | ⟨_, init⟩ :: rest, kept => by
      rw [nodesOfDeclarators, AllFunctions.append] at kept
      rw [onDeclarators]
      refine (keeps_onOptional init kept.1).bind ?_
      exact (keeps_onDeclarators rest kept.2).bind (.pure _)

theorem keeps_onGiven {expression : Option Expression}
    (kept : (Parts.all (Kept transform)).OnOptional expression) :
    Keeps ((nestedFunctions transform).onOptional expression) expression := by
  refine keeps_onOptional expression ?_
  cases expression with
  | none => exact .nil
  | some given =>
      rw [nodesOfOptional]
      exact kept given rfl

theorem keeps_onLoopInit : (init : Option LoopInit) →
    (Parts.all (Kept transform)).OnLoopInit init →
      Keeps ((nestedFunctions transform).onLoopInit init) init
  | none, _ => by
      rw [onLoopInit]
      exact .pure _
  | some (.bindings _ declarators), kept => by
      rw [onLoopInit]
      exact (keeps_onDeclarators declarators kept).bind (.pure _)
  | some (.evaluate expression), kept => by
      rw [onLoopInit]
      exact (keeps_onExpression expression kept).bind (.pure _)

/-- Whether or not a statement is passed over, it is kept if what is inside is kept. -/
theorem keeps_statement
    {statement : Statement} {next : Option Statement → Transforming Statement}
    (taken : next (some statement) = Pure.pure statement) (inside : Keeps (next none) statement) :
    Keeps ((nestedFunctions transform).statement statement >>= next) statement := by
  intro work
  have hook : (nestedFunctions transform).statement statement work = .ok (_, work) :=
    nestedFunctions_statement_eq_ok.mpr ⟨rfl, rfl⟩
  rw [step_bind_of_ok hook]
  split
  · rw [taken]
    exact Keeps.pure statement work
  · exact inside work

mutual

/-- A statement whose functions are kept is kept. -/
theorem keeps_onStatement : (statement : Statement) →
    (Parts.all (Kept transform)).OnStatement statement →
      Keeps ((nestedFunctions transform).onStatement statement) statement
  | .evaluate expression, kept | .raise expression, kept => by
      rw [Parts.OnStatement] at kept
      rw [onStatement]
      refine keeps_statement rfl ?_
      exact (keeps_onExpression expression kept).bind (.pure _)
  | .block statements, kept => by
      rw [Parts.OnStatement] at kept
      rw [onStatement]
      refine keeps_statement rfl ?_
      exact (keeps_onStatements statements kept).bind (.pure _)
  | .labeled _ body, kept => by
      rw [Parts.OnStatement] at kept
      rw [onStatement]
      refine keeps_statement rfl ?_
      exact (keeps_onStatement body kept).bind (.pure _)
  | .giveBack argument, kept => by
      rw [Parts.OnStatement] at kept
      rw [onStatement]
      refine keeps_statement rfl ?_
      exact (keeps_onGiven kept).bind (.pure _)
  | .branch test consequent alternate, kept => by
      rw [Parts.OnStatement] at kept
      rw [onStatement]
      refine keeps_statement rfl ?_
      refine (keeps_onExpression test kept.1).bind ?_
      refine (keeps_onStatement consequent kept.2.1).bind ?_
      exact (keeps_onAlternate alternate kept.2.2).bind (.pure _)
  | .whileLoop test body, kept => by
      rw [Parts.OnStatement] at kept
      rw [onStatement]
      refine keeps_statement rfl ?_
      refine (keeps_onExpression test kept.1).bind ?_
      exact (keeps_onStatement body kept.2).bind (.pure _)
  | .doWhileLoop body test, kept => by
      rw [Parts.OnStatement] at kept
      rw [onStatement]
      refine keeps_statement rfl ?_
      refine (keeps_onStatement body kept.2).bind ?_
      exact (keeps_onExpression test kept.1).bind (.pure _)
  | .forLoop init test update body, kept => by
      rw [Parts.OnStatement] at kept
      rw [onStatement]
      refine keeps_statement rfl ?_
      refine (keeps_onLoopInit init kept.1).bind ?_
      refine (keeps_onGiven kept.2.1).bind ?_
      refine (keeps_onGiven kept.2.2.1).bind ?_
      exact (keeps_onStatement body kept.2.2.2).bind (.pure _)
  | .bindings _ declarators, kept => by
      rw [Parts.OnStatement] at kept
      rw [onStatement]
      refine keeps_statement rfl ?_
      exact (keeps_onDeclarators declarators kept).bind (.pure _)
  | .declare function, kept => by
      rw [Parts.OnStatement] at kept
      rw [onStatement]
      refine keeps_statement rfl ?_
      exact (keeps_onFunction kept).bind (.pure _)
  | .breakOut _, _ | .continueLoop _, _ | .empty, _ => by
      rw [onStatement]
      exact keeps_statement rfl (.pure _)

theorem keeps_onAlternate : (alternate : Option Statement) →
    (Parts.all (Kept transform)).OnAlternate alternate →
      Keeps ((nestedFunctions transform).onAlternate alternate) alternate
  | none, _ => by
      rw [onAlternate]
      exact .pure _
  | some statement, kept => by
      rw [Parts.OnAlternate] at kept
      rw [onAlternate]
      exact (keeps_onStatement statement kept).bind (.pure _)

/-- Statements whose functions are kept are kept. -/
theorem keeps_onStatements : (statements : List Statement) →
    (Parts.all (Kept transform)).OnStatements statements →
      Keeps ((nestedFunctions transform).onStatements statements) statements
  | [], _ => by
      rw [onStatements]
      exact .pure _
  | statement :: rest, kept => by
      rw [Parts.OnStatements] at kept
      rw [onStatements]
      refine (keeps_onStatement statement kept.1).bind ?_
      exact (keeps_onStatements rest kept.2).bind (.pure _)

end

end

/-! ## Functions that are left as they are -/

/-- A function that every transformation with some settings leaves as it is. -/
def Fixed (settings : Settings) (function : Function) : Prop :=
  ∀ fuel scopes, Kept (transformFunction settings fuel scopes) function

/-- A walk over settled statements keeps them and everything that it carries along. -/
theorem walks_of_settled
    {context : Context} {statements : List Statement} (settled : context.settles statements)
    (pass : Pass) :
    Walks context (.list [] statements) pass statements pass := by
  rw [walks_list_iff, walkBlock_of_settled statements settled [], List.nil_append]
  rfl

/-- A function is determined by its body if nothing else about it changes. -/
theorem function_eq_of_body
    {function : Function} {body : FunctionBody} (shape : function.body = body) :
    function = { function with body := body } := by
  cases function
  cases shape
  rfl

/-- A function with settled statements is fixed if the functions in them are. -/
theorem fixed_of_settled
    {settings : Settings} {function : Function} {statements : List Statement}
    (shape : function.body = .block statements)
    (settled : SettledAll settings (.function function.name) statements)
    (inner : (Parts.all (Fixed settings)).OnStatements statements) :
    Fixed settings function := by
  intro fuel scopes work
  cases fuel with
  | zero => exact ⟨work, rfl, .refl work⟩
  | succ fuel =>
      have keeps := keeps_onStatements statements
        (Parts.OnStatements.imp
          (Parts.all_implies fun _ kept => kept fuel (scopes.push function.scope)) statements inner)
      obtain ⟨after, nested, idle⟩ := keeps (finishWork work.start statements)
      refine ⟨after, (transformFunction_block shape).mpr ?_, ?_⟩
      · exact ⟨statements, work.start, statements, walks_of_settled settled work.start, nested,
          function_eq_of_body shape⟩
      · have finished : work.Idles (finishWork work.start statements) :=
          ⟨rfl, rfl, work.summary.functions + 1, rfl⟩
        exact finished.trans idle

/-- A function that is a single expression is fixed if the functions in it are. -/
theorem fixed_of_result
    {settings : Settings} {function : Function} {expression : Expression}
    (shape : function.body = .result expression)
    (inner : AllFunctions (Fixed settings) (expression.nodes false)) :
    Fixed settings function := by
  intro fuel scopes work
  cases fuel with
  | zero => exact ⟨work, rfl, .refl work⟩
  | succ fuel =>
      have keeps := keeps_onExpression expression fun nested member =>
        inner nested member fuel (scopes.push function.scope)
      obtain ⟨after, nested, idle⟩ := keeps work
      refine ⟨after, (transformFunction_result shape).mpr ?_, idle⟩
      exact ⟨expression, nested, function_eq_of_body shape⟩

/-! ## What a transformation leaves -/

/-- The function of a checker is fixed, whether or not its guards may call. -/
theorem Checker.fixed
    {settings : Settings} {checker : Checker} {calls : Bool}
    (plain : ∀ guard ∈ checker.guards, IsPlainGuard calls guard) (parameter : String) :
    Fixed settings (checker.function parameter) := by
  refine @fixed_of_settled settings _ (checker.statements parameter) rfl ?_
    (checker.onStatements_all plain parameter _)
  rw [Checker.statements, settledAll_append]
  refine ⟨settledAll_iff.mpr fun guard member => ?_, by simp [SettledAll, Settled]⟩
  obtain ⟨test, message, rfl, _, _⟩ := plain guard member
  simp [guardClause, Settled, SettledAll, SettledAlternate]

theorem fixed_checker {settings : Settings} : OfCheckers (Fixed settings) :=
  Checker.fixed

section

variable {settings : Settings} {size : Nat} {known : String → Prop}

/-- What is required before the functions in statements are transformed. -/
abbrev unfinished (settings : Settings) (size : Nat) (known : String → Prop) : Parts :=
  between (BoundedFunction size known) (Fixed settings) known

theorem unfinished_admits (parameter : String) (last : Pass) :
    Admits (unfinished settings size known) parameter last :=
  between_admits fixed_checker parameter last

/-- If transformed functions are fixed, then all functions are fixed afterwards. -/
theorem finished_of_unfinished
    {transform : Function → Transforming Function} {earliest latest : Work}
    (sound : earliest.Sound known)
    (fixes : ∀ {source target : Function} {state after : Work},
      BoundedFunction size known source → state.Sound known →
        transform source state = .ok (target, after) → Fixed settings target)
    (keeps : ∀ {source : Function}, Fixed settings source → Kept transform source) :
    Parts.Carried (nestedExchange transform earliest latest) (unfinished settings size known)
      (Parts.all (Fixed settings)) := by
  refine between_carried sound fixes ?_
  intro source target state after holds outcome
  obtain ⟨other, same, _⟩ := keeps holds state
  rw [same] at outcome
  cases outcome
  exact holds

end

/-- What a transformation makes of a function is fixed. -/
theorem fixed_of_transformFunction (settings : Settings) (known : String → Prop) :
    ∀ (fuel : Nat) (scopes : ScopeStack) {source target : Function} {work after : Work},
      BoundedFunction fuel known source → work.Sound known →
        transformFunction settings fuel scopes source work = .ok (target, after) →
          Fixed settings target := by
  intro fuel
  induction fuel with
  | zero =>
      intro scopes source target work after bounded
      have small := bounded.size
      rw [Function.nodes_true, functionsOf_cons_function, List.length_cons] at small
      omega
  | succ fuel induction =>
      intro scopes source target work after bounded sound outcome
      have keeps {inner : Function} (fixed : Fixed settings inner) :
          Kept (transformFunction settings fuel (scopes.push source.scope)) inner :=
        fixed fuel _
      cases shape : source.body with
      | block statements =>
          obtain ⟨walked, pass, final, walks, nested, rfl⟩ :=
            (transformFunction_block shape).mp outcome
          have passSound : pass.Sound :=
            walks.sound (@Pass.sound_start work.entering sound.helpers)
          have body := bounded.body
          rw [shape, FunctionBody.nodes] at body
          have walkedParts := walks.parts (@unfinished_admits settings _ _ _ pass)
            (@Pass.sound_start work.entering sound.helpers) (.refl pass)
            (Bounded.onStatements statements body)
          have finishSound : (finishWork pass walked).Sound known :=
            sound.later ((work.precedes_start.trans walks.precedes.work).trans
              (Work.precedes_finishWork pass walked))
          obtain ⟨_, related⟩ :=
            nestedFunctions_onStatements (transformFunction_advances settings fuel _) nested
          have finalParts := Parts.onStatements_of_exchange
            (finished_of_unfinished finishSound (induction _) keeps) related
            (between_finish fixed_checker passSound walkedParts)
          refine fixed_of_settled rfl ?_ finalParts
          have settled := @settledAll_finish _ _ settings.tokens.result pass _
            (walks.settles (by simp [SettledAll]))
          exact settledAll_of_exchange related settled
      | result expression =>
          obtain ⟨final, nested, rfl⟩ := (transformFunction_result shape).mp outcome
          obtain ⟨_, related⟩ :=
            nestedFunctions_onExpression (transformFunction_advances settings fuel _) nested
          have body := bounded.body
          rw [shape, FunctionBody.nodes] at body
          refine fixed_of_result rfl ?_
          exact (finished_of_unfinished sound (induction _) keeps).expression related
            (body.function expression.contains)

/-- Transforming a program twice is the same as transforming it once. -/
theorem transform_idempotent
    {settings : Settings} {program output : Program} {summary : Summary}
    (outcome : program.transform settings = .ok (output, summary)) :
    ∃ functions,
      output.transform settings =
        .ok (output, { Summary.zero with functions := functions }) := by
  obtain ⟨work, statements, _⟩ := transform_eq_ok.mp outcome
  obtain ⟨walked, pass, walks, nested⟩ := transformStatements_eq_ok.mp statements
  have sound := Work.sound_ofProgram program
  have walkedParts := walks.parts (@unfinished_admits settings _ _ _ pass)
    (Pass.sound_start sound.helpers) (.refl pass)
    (Bounded.onStatements _ (bounded_ofProgram program))
  obtain ⟨_, related⟩ :=
    nestedFunctions_onStatements (transformFunction_advances settings _ _) nested
  have finalParts := Parts.onStatements_of_exchange
    (finished_of_unfinished (sound.later walks.precedes.work)
      (fixed_of_transformFunction settings _ _ _) (fun fixed => fixed _ _))
    related walkedParts
  have settled : (topLevelContext settings (.ofProgram output)).settles output.statements :=
    settledAll_of_exchange related (walks.settles (by simp [SettledAll]))
  have keeps := keeps_onStatements output.statements
    (Parts.OnStatements.imp
      (Parts.all_implies fun _ kept => kept output.functions.length (.ofProgram output))
      output.statements finalParts)
  obtain ⟨after, kept, idle⟩ := keeps (.ofProgram output)
  obtain ⟨functions, counted⟩ := idle.summary
  refine ⟨functions, transform_eq_ok.mpr ⟨after, transformStatements_eq_ok.mpr ?_, counted⟩⟩
  exact ⟨output.statements, _, walks_of_settled settled _, kept⟩

/-- A function with a precondition on its parameter and a postcondition on its result. -/
def checkedIdentity : Program :=
  ⟨[.declare
    ⟨some "keep", ["x"],
      .block
        [.labeled "pre" (.evaluate (.identifier "x")),
          .labeled "post" (.evaluate (.identifier "it"))],
      false, false, false⟩]⟩

theorem transform_idempotent_of_checkedIdentity :
    ∃ output summary functions,
      checkedIdentity.transform (Options.usual.resolve "test") = .ok (output, summary) ∧
        output.transform (Options.usual.resolve "test") =
          .ok (output, { Summary.zero with functions := functions }) := by
  cases outcome : checkedIdentity.transform (Options.usual.resolve "test") with
  | error reason =>
      have accepted :
          (checkedIdentity.transform (Options.usual.resolve "test")).toBool = true := by
        cbv
      rw [outcome] at accepted
      cases accepted
  | ok done =>
      obtain ⟨functions, again⟩ := transform_idempotent outcome
      exact ⟨done.1, done.2, functions, rfl, again⟩

end Covenant.Contract
