import Covenant.Proofs.Idempotence
import Covenant.Proofs.Lockstep
import Covenant.Proofs.Rejection
import Covenant.Proofs.Stripping

/-!
# What is not looked at in contracts that are removed

Two programs that are the same but for the bodies of contracts that are removed
are transformed into the same program, with the same account of what was done.

Walks over them are in step, and so are the transformations of the functions
that the walks leave: whatever one of them does, the other one does as well.
-/

namespace Covenant.Contract

/-! ## Steps that do the same -/

/-- Whatever the first of two steps does, the second one does as well. -/
structure InStep {α : Type} (step step' : Transforming α) : Prop where
  follows {work work' after : Work} {result : α} :
    work.Even work' → step work = .ok (result, after) →
      ∃ after', step' work' = .ok (result, after') ∧ after.Even after'

namespace InStep

variable {α β : Type}

theorem pure (value : α) : InStep (Pure.pure value) (Pure.pure value) where
  follows {_ work' _ _} even outcome := by
    obtain ⟨rfl, rfl⟩ := step_pure_eq_ok.mp outcome
    exact ⟨work', rfl, even⟩

theorem bind
    {first first' : Transforming α} {next next' : α → Transforming β}
    (head : InStep first first') (rest : ∀ value, InStep (next value) (next' value)) :
    InStep (first >>= next) (first' >>= next') where
  follows even outcome := by
    obtain ⟨value, between, begun, ended⟩ := step_bind_eq_ok.mp outcome
    obtain ⟨between', begun', even'⟩ := head.follows even begun
    obtain ⟨after', ended', even''⟩ := (rest value).follows even' ended
    exact ⟨after', step_bind_eq_ok.mpr ⟨value, between', begun', ended'⟩, even''⟩

end InStep

/-- Steps do the same if whatever one of them does the other one does as well. -/
def inStep : Replacer.Pace Transforming where
  same := InStep
  pure := .pure
  bind := .bind

section

variable {transform transform' : Function → Transforming Function}
  {related : Function → Function → Prop} {property property' : Function → Prop}
  (alike : ∀ function function', related function function' → property function →
    property' function' → InStep (transform function) (transform' function'))

theorem covers_functionsApart : Replacer.Covers (functionsApart related) (Parts.all property) where
  expression := id
  declared _ := id

/-- As no checkers are made, both statements are passed over if one declares nothing. -/
theorem declaresHelpers_nil_of_functionsApart {statement statement' : Statement}
    (apart : (functionsApart related).OnStatement statement statement') :
    declaresHelpers [] statement' = declaresHelpers [] statement ∧
      (declaresHelpers [] statement = true → statement' = statement) := by
  cases apart with
  | exchanged given => cases given
  | bindings inner =>
      cases inner with
      | nil => exact ⟨rfl, fun _ => rfl⟩
      | cons _ _ _ => exact ⟨rfl, fun absurd => by cases absurd⟩
  | evaluate _ | block _ | labeled _ | giveBack _ | branch _ _ _ | whileLoop _ _ | doWhileLoop _ _
  | forLoop _ _ _ _ | declare _ | raise _ | breakOut _ | continueLoop _ | empty =>
      exact ⟨rfl, fun absurd => by cases absurd⟩

include alike

/-- Functions are transformed in step in trees that differ in their functions only. -/
theorem lockstep_functionsApart :
    Replacer.Lockstep inStep (functionsApart related) (Parts.all property) (Parts.all property')
      (nestedFunctions transform) (nestedFunctions transform') where
  covers := covers_functionsApart
  covers' := covers_functionsApart
  expression _ := .pure none
  exchanged given := given.elim
  function apart holds holds' :=
    Replacer.same_onFunction (fun _ => rfl) (fun _ => rfl) (alike _ _ apart holds holds')
  statement apart _ _ := by
    obtain ⟨same, equal⟩ := declaresHelpers_nil_of_functionsApart apart
    constructor
    intro work work' after result even outcome
    obtain ⟨answer, rfl⟩ := nestedFunctions_statement_eq_ok.mp outcome
    rw [even.none] at answer
    refine ⟨work', nestedFunctions_statement_eq_ok.mpr ⟨?_, rfl⟩, even⟩
    rw [even.none', same, ← answer]
    split
    case isTrue declares => rw [equal declares]
    case isFalse => rfl
  swapped given := given.elim

end

/-! ## Transformations that do the same -/

/-- A walk that makes no checkers leaves no functions but those that were there before. -/
theorem Walks.onFunctions
    {context : Context} {stretch : Stretch} {pass after : Pass} {result : List Statement}
    (walks : Walks context stretch pass result after) (sound : pass.Sound)
    (none : after.work.helperNames = []) {property : Function → Prop}
    (holds : (Parts.all property).OnStatements stretch.statements) :
    (Parts.all property).OnStatements result := by
  have unwired {checker : Checker} : ¬ Wired after checker := by
    intro wired
    have named := wired.named
    rw [none] at named
    cases named
  have free (expression : Expression) (empty : functionsOf (expression.nodes false) = []) :
      (Parts.all property).expression expression := by
    intro function member
    rw [empty] at member
    cases member
  refine walks.parts ⟨onStatement_of_isPlainGuard free, ?_, ?_⟩ sound (.refl after) holds
  · exact fun wired => (unwired wired).elim
  · exact fun wired => (unwired wired).elim

/-- Walks over functions start alike. -/
theorem Work.Even.start {work work' : Work} (even : work.Even work') :
    work.start.Even work'.start where
  work := ⟨congrArg (fun summary => { summary with functions := summary.functions + 1 })
    even.summary, even.none, even.none'⟩
  captured := rfl
  captured' := rfl
  postconditions := rfl
  postconditions' := rfl

/-- Nothing is added to statements for which nothing has been generated. -/
theorem finish_of_even {pass pass' : Pass} (even : pass.Even pass') (parameter : String)
    (statements statements' : List Statement) :
    finish parameter pass statements = statements ∧
      finish parameter pass' statements' = statements' ∧
        (finishWork pass statements).Even (finishWork pass' statements') := by
  obtain ⟨⟨summary, none, none'⟩, captured, captured', postconditions, postconditions'⟩ := even
  refine ⟨?_, ?_, ⟨?_, none, none'⟩⟩
  · simp [finish, prologue, postconditions, captured, OldBindings.declarations, OldBindings.empty]
  · simp [finish, prologue, postconditions', captured', OldBindings.declarations,
      OldBindings.empty]
  · simp [finishWork, postconditions, postconditions', captured, captured', summary, countRouted]

/-- The functions in bounded statements are bounded. -/
theorem onFunctions_of_bounded {size : Nat} {known : String → Prop} (statements : List Statement)
    (bounded : Bounded size known (nodesOfStatements true statements)) :
    (Parts.all (BoundedFunction size known)).OnStatements statements := by
  have implies : (Parts.known (BoundedFunction size known) known fun _ => False).Implies
      (Parts.all (BoundedFunction size known)) := by
    constructor
    · exact id
    · exact id
    · exact fun given => given.elim (·.functions) False.elim
  exact Parts.OnStatements.imp implies statements (bounded.onStatements statements)

section

variable {settings : Settings} (strips : settings.stripsContracts = true)

include strips

/-- Functions that are the same besides are transformed in step, whatever stands around them. -/
theorem inStep_transformFunction {known known' : String → Prop} (fuel : Nat) :
    ∀ (fuel' : Nat) (scopes scopes' : ScopeStack) (function function' : Function),
      FunctionSameBesides settings function function' → BoundedFunction fuel known function →
        BoundedFunction fuel' known' function' →
          InStep (transformFunction settings fuel scopes function)
            (transformFunction settings fuel' scopes' function') := by
  induction fuel with
  | zero =>
      intro fuel' scopes scopes' function function' same bounded bounded'
      exact absurd bounded.size (by simp [Function.nodes_true])
  | succ fuel induction =>
      rintro (_ | fuel') scopes scopes' function function' same bounded bounded'
      · exact absurd bounded'.size (by simp [Function.nodes_true])
      have alike := induction fuel' (scopes.push function.scope) (scopes'.push function'.scope)
      have body := bounded.body
      have body' := bounded'.body
      constructor
      intro work work' after result even outcome
      cases same with
      | @block name parameters statements statements' isArrow isAsync isGenerator inner =>
          rw [FunctionBody.nodes] at body body'
          obtain ⟨walked, pass, final, walks, nested, rfl⟩ :=
            (transformFunction_block rfl).mp outcome
          obtain ⟨walked', pass', walks', apart, ended⟩ :=
            walks.followed strips (scopes'.push _)
              (.list .nil ((removes_functionContext settings scopes _).symm ▸ inner))
              even.start
          obtain ⟨finished, finished', even'⟩ :=
            finish_of_even ended settings.tokens.result walked walked'
          have start := @Pass.sound_start work.entering (by simp [Work.entering, even.none])
          have start' := @Pass.sound_start work'.entering (by simp [Work.entering, even.none'])
          rw [finished] at nested
          have step : InStep _ _ :=
            Replacer.same_onStatements (lockstep_functionsApart alike) apart
              (walks.onFunctions start ended.work.none (onFunctions_of_bounded statements body))
              (walks'.onFunctions start' ended.work.none'
                (onFunctions_of_bounded statements' body'))
          obtain ⟨after', nested', even''⟩ := step.follows even' nested
          exact ⟨after', (transformFunction_block rfl).mpr
            ⟨walked', pass', final, walks', finished'.symm ▸ nested', rfl⟩, even''⟩
      | @result name parameters expression expression' isArrow isAsync isGenerator inner =>
          rw [FunctionBody.nodes] at body body'
          obtain ⟨final, nested, rfl⟩ := (transformFunction_result rfl).mp outcome
          have step : InStep _ _ :=
            Replacer.same_onExpression (lockstep_functionsApart alike) inner
              (body.function expression.contains) (body'.function expression'.contains)
          obtain ⟨after', nested', even'⟩ := step.follows even nested
          exact ⟨after', (transformFunction_result rfl).mpr ⟨final, nested', rfl⟩, even'⟩

/--
When contracts are removed, a transformation succeeds, and what it gives does
not depend on the bodies of the contracts that it removes: programs that are
the same besides become the same program, with the same summary.
-/
theorem transform_eq_of_sameBesides {program program' : Program}
    (same : ProgramSameBesides settings program program') :
    ∃ output summary,
      program.transform settings = .ok (output, summary) ∧
        program'.transform settings = .ok (output, summary) := by
  obtain ⟨output, summary, outcome⟩ := exists_transform_of_strips strips program
  refine ⟨output, summary, outcome, ?_⟩
  obtain ⟨work, transformed, rfl⟩ := transform_eq_ok.mp outcome
  obtain ⟨walked, pass, walks, nested⟩ := transformStatements_eq_ok.mp transformed
  have bounded := bounded_ofProgram program
  have bounded' := bounded_ofProgram program'
  have begun : Pass.Even ⟨.ofProgram program, .empty, []⟩ ⟨.ofProgram program', .empty, []⟩ :=
    ⟨⟨rfl, rfl, rfl⟩, rfl, rfl, rfl, rfl⟩
  rw [ProgramSameBesides, ← removes_topLevelContext settings (.ofProgram program)] at same
  obtain ⟨walked', pass', walks', apart, ended⟩ :=
    walks.followed strips (.ofProgram program') (.list .nil same) begun
  have start := @Pass.sound_start (.ofProgram program) (List.nil_subset _)
  have start' := @Pass.sound_start (.ofProgram program') (List.nil_subset _)
  have step : InStep _ _ :=
    Replacer.same_onStatements
      (lockstep_functionsApart
        (inStep_transformFunction strips _ _ (.ofProgram program) (.ofProgram program'))) apart
      (walks.onFunctions start ended.work.none (onFunctions_of_bounded _ bounded))
      (walks'.onFunctions start' ended.work.none' (onFunctions_of_bounded _ bounded'))
  obtain ⟨after', nested', even⟩ := step.follows ended.work nested
  exact transform_eq_ok.mpr
    ⟨after', transformStatements_eq_ok.mpr ⟨walked', pass', walks', nested'⟩, even.summary.symm⟩

end

/-- The settings of a user who has all contracts removed. -/
def Settings.removing : Settings :=
  { Options.usual with strip := true }.resolve usualEnvironment

/-- A program with an assertion and a function with a precondition. -/
def guardedIdentity (assertion precondition : Statement) : Program where
  statements :=
    [.labeled "assert" assertion,
      .declare
        ⟨some "f", ["x"],
          .block [.labeled "pre" precondition, .giveBack (some (.identifier "x"))],
          false, false, false⟩]

/-- A body with a function that returns, a declaration, and further labels. -/
def crowdedBody : Statement :=
  .block
    [.declare ⟨some "x", [], .block [.giveBack none], false, false, false⟩,
      .bindings .block [⟨"undefined", none⟩],
      .labeled "prod" (.labeled "invariant" (.evaluate (.identifier "y")))]

theorem transform_crowdedBody :
    ∃ output summary,
      (guardedIdentity .empty (.giveBack none)).transform .removing = .ok (output, summary) ∧
        (guardedIdentity crowdedBody crowdedBody).transform .removing = .ok (output, summary) := by
  refine transform_eq_of_sameBesides (by decide) ?_
  have assertion : Settings.removing.roleOf "assert" = .contract .assertion := by decide
  have precondition : Settings.removing.roleOf "pre" = .contract .precondition := by decide
  have parameter : (functionsApart (FunctionSameBesides .removing)).OnOptional
      (some (.identifier "x")) (some (.identifier "x")) := .some (.identifier trivial)
  have function : FunctionSameBesides .removing
      ⟨some "f", ["x"],
        .block [.labeled "pre" (.giveBack none), .giveBack (some (.identifier "x"))],
        false, false, false⟩
      ⟨some "f", ["x"],
        .block [.labeled "pre" crowdedBody, .giveBack (some (.identifier "x"))],
        false, false, false⟩ :=
    .block (.cons (.removed precondition rfl)
      (.cons (.simple rfl (.giveBack parameter)) .nil))
  exact .cons (.removed assertion rfl)
    (.cons (.simple rfl (.declare function)) .nil)

end Covenant.Contract
