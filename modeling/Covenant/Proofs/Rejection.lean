import Covenant.Proofs.Acceptance
import Covenant.Proofs.Guarantee

/-!
# Which programs are rejected

A transformation looks at the contracts of a program one after the other and
rejects the program with the first that it cannot accept.  It looks at the
contracts outside functions, then at those of every function that is left,
outer functions before the functions nested in them.  What an environment
removes is gone by then; the functions of checkers state no contracts.

So a program is accepted just if contracts are removed from it or every
contract that is looked at is accepted by itself.  The way to the contracts is
followed once, for every way to judge them.
-/

namespace Covenant.Contract

/-! ## The functions in a tree -/

section

open Replacer

variable {judgement : Judgement Error} {transform : Function → Transforming Function}
  {names : List String}

/-- Work in which the names of a program are known, and none of them is a checker's. -/
abbrev InOrder (names : List String) : Work → Prop :=
  Work.Sound (· ∈ names)

/-- A step of a transformation is judged, whatever work in order it starts with. -/
abbrev Judges {α : Type} (judgement : Judgement Error) (names : List String)
    (step : Transforming α) (holds : Prop) : Prop :=
  Judged judgement (InOrder names) step holds

/-- How a function is transformed is told by a property of the function. -/
def Told (judgement : Judgement Error) (names : List String)
    (transform : Function → Transforming Function) (accepted : Function → Prop)
    (function : Function) : Prop :=
  Judges judgement names (transform function) (accepted function)

variable {accepted : Function → Prop}

theorem judges_onFunction {function : Function}
    (told : Told judgement names transform accepted function) :
    Judges judgement names ((nestedFunctions transform).onFunction function)
      (accepted function) := by
  obtain ⟨name, parameters, body, isArrow, isAsync, isGenerator⟩ := function
  rw [onFunction]
  change Judges judgement names ((some <$> transform _) >>= _) _
  rw [map_eq_pure_bind, bind_assoc]
  refine told.before fun target => ?_
  rw [pure_bind]
  exact .pure _

mutual

/-- Transforming the functions in an expression depends on whether all of them are accepted. -/
theorem judges_onExpression : (expression : Expression) →
    AllFunctions (Told judgement names transform accepted) (expression.nodes false) →
      Judges judgement names ((nestedFunctions transform).onExpression expression)
        (AllFunctions accepted (expression.nodes false))
  | .literal _, _ | .identifier _, _ | .receiver, _ => by
      rw [onExpression, expression_of_nestedFunctions, pure_bind]
      exact (Judged.pure _).congr (by simp [Expression.nodes, AllFunctions])
  | .array elements, told => by
      rw [Expression.nodes, AllFunctions.cons_expression] at told ⊢
      rw [onExpression, expression_of_nestedFunctions, pure_bind]
      exact (judges_onExpressions elements told).before fun _ => .pure _
  | .record properties, told => by
      rw [Expression.nodes, AllFunctions.cons_expression] at told ⊢
      rw [onExpression, expression_of_nestedFunctions, pure_bind]
      exact (judges_onProperties properties told).before fun _ => .pure _
  | .lambda function, told => by
      rw [Expression.nodes, AllFunctions.cons_expression, AllFunctions.of_lambda] at told ⊢
      rw [onExpression, expression_of_nestedFunctions, pure_bind]
      exact (judges_onFunction told).before fun _ => .pure _
  | .unary _ argument, told | .update _ _ argument, told | .await argument, told
  | .member argument _, told => by
      rw [Expression.nodes, AllFunctions.cons_expression] at told ⊢
      rw [onExpression, expression_of_nestedFunctions, pure_bind]
      exact (judges_onExpression argument told).before fun _ => .pure _
  | .binary _ left right, told | .logical _ left right, told | .assign _ left right, told
  | .index left right, told => by
      rw [Expression.nodes, AllFunctions.cons_expression, AllFunctions.append] at told ⊢
      rw [onExpression, expression_of_nestedFunctions, pure_bind]
      refine (judges_onExpression left told.1).bind fun _ => ?_
      exact (judges_onExpression right told.2).before fun _ => .pure _
  | .conditional test consequent alternate, told => by
      rw [Expression.nodes, AllFunctions.cons_expression, AllFunctions.append,
        AllFunctions.append] at told ⊢
      rw [onExpression, expression_of_nestedFunctions, pure_bind, and_assoc]
      refine (judges_onExpression test told.1.1).bind fun _ => ?_
      refine (judges_onExpression consequent told.1.2).bind fun _ => ?_
      exact (judges_onExpression alternate told.2).before fun _ => .pure _
  | .call callee arguments, told | .construct callee arguments, told => by
      rw [Expression.nodes, AllFunctions.cons_expression, AllFunctions.append] at told ⊢
      rw [onExpression, expression_of_nestedFunctions, pure_bind]
      refine (judges_onExpression callee told.1).bind fun _ => ?_
      exact (judges_onExpressions arguments told.2).before fun _ => .pure _
  | .sequence expressions, told => by
      rw [Expression.nodes, AllFunctions.cons_expression] at told ⊢
      rw [onExpression, expression_of_nestedFunctions, pure_bind]
      exact (judges_onExpressions expressions told).before fun _ => .pure _
  | .yield argument _, told => by
      rw [Expression.nodes, AllFunctions.cons_expression] at told ⊢
      rw [onExpression, expression_of_nestedFunctions, pure_bind]
      exact (judges_onOptional argument told).before fun _ => .pure _

theorem judges_onExpressions : (expressions : List Expression) →
    AllFunctions (Told judgement names transform accepted) (nodesOfExpressions false expressions) →
      Judges judgement names ((nestedFunctions transform).onExpressions expressions)
        (AllFunctions accepted (nodesOfExpressions false expressions))
  | [], _ => by
      rw [onExpressions]
      exact (Judged.pure _).congr (by simp [nodesOfExpressions, AllFunctions])
  | expression :: rest, told => by
      rw [nodesOfExpressions, AllFunctions.append] at told ⊢
      rw [onExpressions]
      refine (judges_onExpression expression told.1).bind fun _ => ?_
      exact (judges_onExpressions rest told.2).before fun _ => .pure _

theorem judges_onProperties : (properties : List Property) →
    AllFunctions (Told judgement names transform accepted) (nodesOfProperties false properties) →
      Judges judgement names ((nestedFunctions transform).onProperties properties)
        (AllFunctions accepted (nodesOfProperties false properties))
  | [], _ => by
      rw [onProperties]
      exact (Judged.pure _).congr (by simp [nodesOfProperties, AllFunctions])
  | ⟨_, value⟩ :: rest, told => by
      rw [nodesOfProperties, AllFunctions.append] at told ⊢
      rw [onProperties]
      refine (judges_onExpression value told.1).bind fun _ => ?_
      exact (judges_onProperties rest told.2).before fun _ => .pure _

theorem judges_onOptional : (expression : Option Expression) →
    AllFunctions (Told judgement names transform accepted) (nodesOfOptional false expression) →
      Judges judgement names ((nestedFunctions transform).onOptional expression)
        (AllFunctions accepted (nodesOfOptional false expression))
  | none, _ => by
      rw [onOptional]
      exact (Judged.pure _).congr (by simp [nodesOfOptional, AllFunctions])
  | some expression, told => by
      rw [nodesOfOptional] at told ⊢
      rw [onOptional]
      exact (judges_onExpression expression told).before fun _ => .pure _

end

theorem judges_onDeclarators : (declarators : List Declarator) →
    AllFunctions (Told judgement names transform accepted) (nodesOfDeclarators false declarators) →
      Judges judgement names ((nestedFunctions transform).onDeclarators declarators)
        (AllFunctions accepted (nodesOfDeclarators false declarators))
  | [], _ => by
      rw [onDeclarators]
      exact (Judged.pure _).congr (by simp [nodesOfDeclarators, AllFunctions])
  | ⟨_, init⟩ :: rest, told => by
      rw [nodesOfDeclarators, AllFunctions.append] at told ⊢
      rw [onDeclarators]
      refine (judges_onOptional init told.1).bind fun _ => ?_
      exact (judges_onDeclarators rest told.2).before fun _ => .pure _

theorem judges_onGiven {expression : Option Expression}
    (told : (Parts.all (Told judgement names transform accepted)).OnOptional expression) :
    Judges judgement names ((nestedFunctions transform).onOptional expression)
      ((Parts.all accepted).OnOptional expression) := by
  rw [Parts.onOptional_all] at told ⊢
  exact judges_onOptional expression told

theorem judges_onLoopInit : (init : Option LoopInit) →
    (Parts.all (Told judgement names transform accepted)).OnLoopInit init →
      Judges judgement names ((nestedFunctions transform).onLoopInit init)
        ((Parts.all accepted).OnLoopInit init)
  | none, _ => by
      rw [onLoopInit]
      exact .pure _
  | some (.bindings _ declarators), told => by
      rw [onLoopInit]
      exact (judges_onDeclarators declarators told).before fun _ => .pure _
  | some (.evaluate expression), told => by
      rw [onLoopInit]
      exact (judges_onExpression expression told).before fun _ => .pure _

/--
Parts whose functions are told.  A declaration that may be passed over, as
those of checkers are, has accepted functions only.
-/
def surveyed (judgement : Judgement Error) (names : List String)
    (transform : Function → Transforming Function) (accepted : Function → Prop) : Parts where
  expression expression :=
    AllFunctions (Told judgement names transform accepted) (expression.nodes false)
  function := Told judgement names transform accepted
  declared declarators :=
    AllFunctions (Told judgement names transform accepted) (nodesOfDeclarators false declarators) ∧
      ((∀ name ∈ namesOfDeclarators declarators, name ∈ names) ∨
        AllFunctions accepted (nodesOfDeclarators false declarators))

theorem surveyed_implies :
    (surveyed judgement names transform accepted).Implies
      (Parts.all (Told judgement names transform accepted)) where
  expression := id
  function := id
  declared := And.left

/-- A statement is entered, unless it may be passed over and is accepted anyway. -/
theorem judges_statement
    {statement : Statement} {next : Option Statement → Transforming Statement} {holds : Prop}
    (taken : next (some statement) = pure statement)
    (passed : ∀ work, InOrder names work → declaresHelpers work.helperNames statement = true →
      holds)
    (inside : Judges judgement names (next none) holds) :
    Judges judgement names ((nestedFunctions transform).statement statement >>= next) holds where
  judges {work} sound := by
    have hook : (nestedFunctions transform).statement statement work = .ok (_, work) :=
      nestedFunctions_statement_eq_ok.mpr ⟨rfl, rfl⟩
    rw [step_bind_of_ok hook]
    split
    case isTrue declares =>
      rw [taken]
      exact Judgement.of_ok rfl (passed work sound declares)
    case isFalse => exact inside.judges sound
  sound {work after result} sound outcome := by
    have hook : (nestedFunctions transform).statement statement work = .ok (_, work) :=
      nestedFunctions_statement_eq_ok.mpr ⟨rfl, rfl⟩
    rw [step_bind_of_ok hook] at outcome
    split at outcome
    · rw [taken] at outcome
      exact (step_pure_eq_ok.mp outcome).2 ▸ sound
    · exact inside.sound sound outcome

/-- A declaration that is passed over has accepted functions. -/
theorem accepted_of_declaresHelpers
    {kind : DeclarationKind} {declarators : List Declarator} {work : Work}
    (given : (surveyed judgement names transform accepted).declared declarators)
    (sound : InOrder names work)
    (declares : declaresHelpers work.helperNames (.bindings kind declarators) = true) :
    AllFunctions accepted (nodesOfDeclarators false declarators) := by
  rcases given.2 with known | holds
  · cases declarators with
    | nil => exact .nil
    | cons declarator rest =>
        have helper : declarator.name ∈ work.helperNames := by
          simpa using List.all_eq_true.mp declares declarator List.mem_cons_self
        exact ((sound.known (known declarator.name List.mem_cons_self)).2 helper).elim
  · exact holds

mutual

/-- Transforming the functions in a statement depends on whether all of them are accepted. -/
theorem judges_onStatement : (statement : Statement) →
    (surveyed judgement names transform accepted).OnStatement statement →
      Judges judgement names ((nestedFunctions transform).onStatement statement)
        ((Parts.all accepted).OnStatement statement)
  | .evaluate expression, told | .raise expression, told => by
      rw [Parts.OnStatement] at told ⊢
      rw [onStatement]
      refine judges_statement rfl (fun _ _ absurd => by cases absurd) ?_
      exact (judges_onExpression expression told).before fun _ => .pure _
  | .block statements, told => by
      rw [Parts.OnStatement] at told ⊢
      rw [onStatement]
      refine judges_statement rfl (fun _ _ absurd => by cases absurd) ?_
      exact (judges_onStatements statements told).before fun _ => .pure _
  | .labeled _ body, told => by
      rw [Parts.OnStatement] at told ⊢
      rw [onStatement]
      refine judges_statement rfl (fun _ _ absurd => by cases absurd) ?_
      exact (judges_onStatement body told).before fun _ => .pure _
  | .giveBack argument, told => by
      rw [Parts.OnStatement] at told ⊢
      rw [onStatement]
      refine judges_statement rfl (fun _ _ absurd => by cases absurd) ?_
      exact (judges_onGiven (told.imp surveyed_implies)).before fun _ => .pure _
  | .branch test consequent alternate, told => by
      rw [Parts.OnStatement] at told ⊢
      rw [onStatement]
      refine judges_statement rfl (fun _ _ absurd => by cases absurd) ?_
      refine (judges_onExpression test told.1).bind fun _ => ?_
      refine (judges_onStatement consequent told.2.1).bind fun _ => ?_
      exact (judges_onAlternate alternate told.2.2).before fun _ => .pure _
  | .whileLoop test body, told => by
      rw [Parts.OnStatement] at told ⊢
      rw [onStatement]
      refine judges_statement rfl (fun _ _ absurd => by cases absurd) ?_
      refine (judges_onExpression test told.1).bind fun _ => ?_
      exact (judges_onStatement body told.2).before fun _ => .pure _
  | .doWhileLoop body test, told => by
      rw [Parts.OnStatement] at told ⊢
      rw [onStatement, and_comm]
      refine judges_statement rfl (fun _ _ absurd => by cases absurd) ?_
      refine (judges_onStatement body told.2).bind fun _ => ?_
      exact (judges_onExpression test told.1).before fun _ => .pure _
  | .forLoop init test update body, told => by
      rw [Parts.OnStatement] at told ⊢
      rw [onStatement]
      refine judges_statement rfl (fun _ _ absurd => by cases absurd) ?_
      refine (judges_onLoopInit init (told.1.imp surveyed_implies init)).bind fun _ => ?_
      refine (judges_onGiven (told.2.1.imp surveyed_implies)).bind fun _ => ?_
      refine (judges_onGiven (told.2.2.1.imp surveyed_implies)).bind fun _ => ?_
      exact (judges_onStatement body told.2.2.2).before fun _ => .pure _
  | .bindings _ declarators, told => by
      rw [Parts.OnStatement] at told ⊢
      rw [onStatement]
      refine judges_statement rfl (fun _ => accepted_of_declaresHelpers told) ?_
      exact (judges_onDeclarators declarators told.1).before fun _ => .pure _
  | .declare function, told => by
      rw [Parts.OnStatement] at told ⊢
      rw [onStatement]
      refine judges_statement rfl (fun _ _ absurd => by cases absurd) ?_
      exact (judges_onFunction told).before fun _ => .pure _
  | .breakOut _, _ | .continueLoop _, _ | .empty, _ => by
      rw [Parts.OnStatement, onStatement]
      exact judges_statement rfl (fun _ _ _ => trivial) (.pure _)

theorem judges_onAlternate : (alternate : Option Statement) →
    (surveyed judgement names transform accepted).OnAlternate alternate →
      Judges judgement names ((nestedFunctions transform).onAlternate alternate)
        ((Parts.all accepted).OnAlternate alternate)
  | none, _ => by
      rw [Parts.OnAlternate, onAlternate]
      exact .pure _
  | some statement, told => by
      rw [Parts.OnAlternate] at told ⊢
      rw [onAlternate]
      exact (judges_onStatement statement told).before fun _ => .pure _

/-- Transforming the functions in statements depends on whether all of them are accepted. -/
theorem judges_onStatements : (statements : List Statement) →
    (surveyed judgement names transform accepted).OnStatements statements →
      Judges judgement names ((nestedFunctions transform).onStatements statements)
        ((Parts.all accepted).OnStatements statements)
  | [], _ => by
      rw [Parts.OnStatements, onStatements]
      exact .pure _
  | statement :: rest, told => by
      rw [Parts.OnStatements] at told ⊢
      rw [onStatements]
      refine (judges_onStatement statement told.1).bind fun _ => ?_
      exact (judges_onStatements rest told.2).before fun _ => .pure _

end

end

/-! ## The contracts of a function -/

/--
The contracts that a transformation looks at in a function: those of its own
statements, and those of the functions that stand in them and are left.
-/
inductive Processes (settings : Settings) (names : List String) :
    Function → Site → Statement → Prop where
  | own {function : Function} {statements : List Statement} {kind : Kind} {body : Statement}
      (shape : function.body = .block statements)
      (stated : (kind, body) ∈
        (contracts settings (.function function.name)).ofStatements statements) :
      Processes settings names function ⟨kind, function.name⟩ body
  | nested {function inner : Function} {statements : List Statement} {site : Site}
      {body : Statement}
      (shape : function.body = .block statements)
      (survives : inner ∈
        (survivors settings (.function function.name) names).ofStatements statements)
      (within : Processes settings names inner site body) :
      Processes settings names function site body
  | result {function inner : Function} {expression : Expression} {site : Site} {body : Statement}
      (shape : function.body = .result expression)
      (among : inner ∈ functionsOf (expression.nodes false))
      (within : Processes settings names inner site body) :
      Processes settings names function site body

/-- Every contract that a transformation looks at in a function is accepted by itself. -/
def Accepts (settings : Settings) (names : List String) (accepted : Site → Statement → Prop)
    (function : Function) : Prop :=
  ∀ site body, Processes settings names function site body → accepted site body

section

variable {settings : Settings} {names : List String} {accepted : Site → Statement → Prop}
  {function : Function}

theorem accepts_block (scopes : ScopeStack)
    {statements : List Statement} (shape : function.body = .block statements) :
    (functionContext settings scopes function).Accepts accepted
          ((functionContext settings scopes function).contracts.ofStatements statements) ∧
        (∀ inner ∈ (survivors settings (.function function.name) names).ofStatements statements,
          Accepts settings names accepted inner) ↔
      Accepts settings names accepted function := by
  constructor
  · rintro ⟨own, others⟩ site body processed
    cases processed with
    | own given stated =>
        cases shape.symm.trans given
        exact own _ stated
    | nested given survives within =>
        cases shape.symm.trans given
        exact others _ survives _ _ within
    | result given => cases shape.symm.trans given
  · intro accepts
    exact ⟨fun contract stated => accepts _ _ (.own shape stated),
      fun inner survives site body within => accepts _ _ (.nested shape survives within)⟩

theorem accepts_result {expression : Expression} (shape : function.body = .result expression) :
    AllFunctions (Accepts settings names accepted) (expression.nodes false) ↔
      Accepts settings names accepted function := by
  constructor
  · intro others site body processed
    cases processed with
    | own given => cases shape.symm.trans given
    | nested given => cases shape.symm.trans given
    | result given among within =>
        cases shape.symm.trans given
        exact others _ among _ _ within
  · exact fun accepts inner among site body within => accepts _ _ (.result shape among within)

/-- A function that is left as it is, or whose contracts are accepted. -/
abbrev Cleared (settings : Settings) (names : List String) (accepted : Site → Statement → Prop)
    (function : Function) : Prop :=
  Accepts settings names accepted function ∨ Fixed settings function

variable {fuel : Nat} {scopes : ScopeStack} {judgement : Judgement Error}

/-- A function that every transformation leaves as it is is told. -/
theorem told_of_fixed (fixed : Fixed settings function) :
    Told judgement names (transformFunction settings fuel scopes)
      (Cleared settings names accepted) function where
  judges {work} _ := by
    obtain ⟨_, outcome, _⟩ := fixed fuel scopes work
    exact Judgement.of_ok outcome (.inr fixed)
  sound sound outcome := sound.later (transformFunction_advances settings fuel scopes outcome)

/-- A function that depends on whether its contracts are accepted is told. -/
theorem told_of_judges
    (judged : Judges judgement names (transformFunction settings fuel scopes function)
      (Accepts settings names accepted function)) :
    Told judgement names (transformFunction settings fuel scopes)
      (Cleared settings names accepted) function := by
  by_cases fixed : Fixed settings function
  · exact told_of_fixed fixed
  · exact judged.congr (or_iff_left fixed).symm

/-- What is required before the functions in statements are transformed tells them. -/
theorem unfinished_implies
    (judged : ∀ {inner : Function}, BoundedFunction fuel (· ∈ names) inner →
      Judges judgement names (transformFunction settings fuel scopes inner)
        (Accepts settings names accepted inner)) :
    (unfinished settings fuel (· ∈ names)).Implies
      (surveyed judgement names (transformFunction settings fuel scopes)
        (Cleared settings names accepted)) where
  expression each := fun inner member => told_of_judges (judged (each inner member))
  function bounded := told_of_judges (judged bounded)
  declared given := by
    rcases given with own | added
    · exact ⟨fun inner member => told_of_judges (judged (own.functions inner member)),
        .inl own.names⟩
    · exact ⟨fun inner member => told_of_fixed (added inner member),
        .inr fun inner member => .inr (added inner member)⟩

/-- All functions in statements are accepted if those of the program are. -/
theorem functions_complete {transform : Function → Transforming Function}
    {accepted : Function → Prop} :
    (functions names).Completes (surveyed judgement names transform accepted) accepted
      (Parts.all accepted) where
  expression _ each := each
  function _ each := each _ List.mem_cons_self
  declared {declarators} given each := by
    rcases given.2 with known | holds
    · cases declarators with
      | nil => exact .nil
      | cons declarator rest =>
          have introduced : introduces names (declarator :: rest) = true := by
            have among := known declarator.name List.mem_cons_self
            simp [introduces, among]
          simp only [functions, introduced, if_true] at each
          exact each
    · exact holds
  labeled _ _ := rfl

theorem functions_meet_all {accepted : Function → Prop} :
    (functions names).Meets (Parts.all accepted) accepted where
  expression holds := holds
  function holds inner member := List.mem_singleton.mp member ▸ holds
  declared holds inner member := by
    simp only [functions] at member
    split at member
    · exact holds inner member
    · cases member
  labeled _ absurd := by cases absurd

/--
Functions that every transformation leaves as they are contain no contracts but
accepted ones, if that is what their transformation depends on.
-/
def ContractJudgement.SparesFixed (judgement : ContractJudgement settings) (names : List String) :
    Prop :=
  ∀ {fuel : Nat} {scopes : ScopeStack} {function : Function} {work : Work},
    BoundedFunction fuel (· ∈ names) function → InOrder names work → Fixed settings function →
      judgement.judges (transformFunction settings fuel scopes function work)
          (Accepts settings names judgement.accepted function) →
        Accepts settings names judgement.accepted function

section

variable {judgement : ContractJudgement settings}

/-- Transforming what is nested in statements depends on the functions of the program only. -/
theorem judges_nested {statements : List Statement} {work : Work}
    (spares : judgement.SparesFixed names)
    (judged : ∀ {inner : Function}, BoundedFunction fuel (· ∈ names) inner →
      Judges judgement.toJudgement names (transformFunction settings fuel scopes inner)
        (Accepts settings names judgement.accepted inner))
    (sound : InOrder names work)
    (parts : (unfinished settings fuel (· ∈ names)).OnStatements statements)
    (bounded : ∀ inner ∈ (functions names).ofStatements statements,
      BoundedFunction fuel (· ∈ names) inner) :
    judgement.judges
      ((nestedFunctions (transformFunction settings fuel scopes)).onStatements statements work)
      (∀ inner ∈ (functions names).ofStatements statements,
        Accepts settings names judgement.accepted inner) := by
  have told := Parts.OnStatements.imp (@unfinished_implies _ _ _ _ scopes _ judged) statements parts
  refine Judgement.congr ((judges_onStatements statements told).judges sound) ⟨?_, ?_⟩
  · intro cleared inner member
    rcases Collection.forall_ofStatements functions_meet_all statements cleared inner member with
      accepts | fixed
    · exact accepts
    · exact spares (bounded inner member) sound fixed
        ((judged (bounded inner member)).judges sound)
  · intro accepts
    exact Collection.completeStatements functions_complete statements told
      fun inner member => .inl (accepts inner member)

/-- How a function is transformed depends on whether its contracts are accepted. -/
theorem judges_transformFunction (spares : judgement.SparesFixed names) :
    ∀ (fuel : Nat) (scopes : ScopeStack) {function : Function},
      BoundedFunction fuel (· ∈ names) function →
        Judges judgement.toJudgement names (transformFunction settings fuel scopes function)
          (Accepts settings names judgement.accepted function) := by
  intro fuel
  induction fuel with
  | zero =>
      intro scopes function bounded
      have small := bounded.size
      rw [Function.nodes_true, functionsOf_cons_function, List.length_cons] at small
      omega
  | succ fuel induction =>
      intro scopes function bounded
      refine ⟨fun {work} sound => ?_,
        fun sound outcome => sound.later (transformFunction_advances settings _ scopes outcome)⟩
      have body := bounded.body
      cases shape : function.body with
      | block statements =>
          rw [shape, FunctionBody.nodes] at body
          rw [transformFunction_eq_of_block shape]
          have start := @Pass.sound_start work.entering sound.helpers
          have walk : Rules judgement.toJudgement _ _ :=
            (@rules_walkBlock (functionContext settings scopes function) judgement).1 [] statements
          refine Judgement.congr
            (judgement.bind (walk.judges trivial) fun (walked, pass) outcome => ?_)
            (accepts_block scopes shape)
          have walks := walks_list_iff.mpr outcome
          have passSound := walks.sound start
          have known := sound.later (work.precedes_start.trans walks.precedes.work)
          have same : (functions names).ofStatements (finish settings.tokens.result pass walked) =
              (survivors settings (.function function.name) names).ofStatements statements := by
            rw [finish, Collection.ofStatements_append, functions_prologue passSound known,
              functions_applyPostconditions, List.nil_append]
            exact walks.functions (sound.later work.precedes_start) trivial
          rw [← same]
          refine Judgement.before (judges_nested spares (induction _)
            (known.later (Work.precedes_finishWork pass walked))
            (between_finish fixed_checker passSound (walks.parts
              (unfinished_admits settings.tokens.result pass) start (.refl pass)
              (Bounded.onStatements statements body))) ?_) fun _ _ => judgement.ok _
          rw [same]
          exact Collection.forall_ofStatements (survivors_meet settings _ fuel) statements
            (Bounded.onStatements statements body)
      | result expression =>
          rw [shape, FunctionBody.nodes] at body
          rw [transformFunction_eq_of_result shape]
          have each : ∀ inner ∈ functionsOf (expression.nodes false),
              BoundedFunction fuel (· ∈ names) inner :=
            body.function expression.contains
          have nested := @judges_onExpression judgement.toJudgement
            (transformFunction settings fuel _) names
            (Accepts settings names judgement.accepted) expression
            fun inner member => induction (scopes.push function.scope) (each inner member)
          exact Judgement.congr (Judgement.before (nested.judges sound) fun _ _ => judgement.ok _)
            (accepts_result shape)

end

end

/-! ## The contracts of a program -/

/--
The contracts that a transformation looks at in a program: those that count
outside functions, and those of the functions that are left.
-/
inductive ProgramProcesses (settings : Settings) (program : Program) :
    Site → Statement → Prop where
  | own {kind : Kind} {body : Statement}
      (stated : (kind, body) ∈ (contracts settings .topLevel).ofStatements program.statements) :
      ProgramProcesses settings program ⟨kind, none⟩ body
  | function {function : Function} {site : Site} {body : Statement}
      (survives : function ∈
        (survivors settings .topLevel program.allNames).ofStatements program.statements)
      (within : Processes settings program.allNames function site body) :
      ProgramProcesses settings program site body

/-- Every contract of a program is accepted. -/
theorem accepts_program (settings : Settings) {accepted : Site → Statement → Prop}
    {program : Program} :
    (topLevelContext settings (.ofProgram program)).Accepts accepted
          ((topLevelContext settings (.ofProgram program)).contracts.ofStatements
            program.statements) ∧
        (∀ function ∈
            (survivors settings .topLevel program.allNames).ofStatements program.statements,
          Accepts settings program.allNames accepted function) ↔
      ∀ site body, ProgramProcesses settings program site body → accepted site body := by
  constructor
  · rintro ⟨own, others⟩ site body processed
    cases processed with
    | own stated => exact own _ stated
    | function survives within => exact others _ survives _ _ within
  · intro accepts
    exact ⟨fun contract stated => accepts _ _ (.own stated),
      fun function survives site body within => accepts _ _ (.function survives within)⟩

section

variable {settings : Settings}

/-- How a program is transformed depends on whether its contracts are accepted. -/
theorem judges_transform {judgement : ContractJudgement settings} {program : Program}
    (spares : judgement.SparesFixed program.allNames) :
    judgement.judges (program.transform settings)
      (∀ site body, ProgramProcesses settings program site body →
        judgement.accepted site body) := by
  have sound := Work.sound_ofProgram program
  have bounded := bounded_ofProgram program
  have start := @Pass.sound_start (Work.ofProgram program) sound.helpers
  have walk : Rules judgement.toJudgement _ _ :=
    (@rules_walkBlock (topLevelContext settings (.ofProgram program)) judgement).1 []
      program.statements
  rw [transform_eq]
  refine Judgement.before ?_ fun _ _ => judgement.ok _
  rw [transformStatements_eq]
  refine Judgement.congr (judgement.bind (walk.judges trivial) fun (walked, pass) outcome => ?_)
    (accepts_program settings)
  have walks := walks_list_iff.mpr outcome
  have same : (functions program.allNames).ofStatements walked =
      (survivors settings .topLevel program.allNames).ofStatements program.statements :=
    walks.functions sound trivial
  rw [← same]
  refine judges_nested spares (judges_transformFunction spares _ _)
    (sound.later walks.precedes.work)
    (walks.parts (unfinished_admits settings.tokens.result pass) start (.refl pass)
      (Bounded.onStatements program.statements bounded)) ?_
  rw [same]
  exact Collection.forall_ofStatements (survivors_meet settings _ _) program.statements
    (Bounded.onStatements program.statements bounded)

theorem sparesFixed_deciding (settings : Settings) (names : List String) :
    (ContractJudgement.deciding settings).SparesFixed names := by
  intro fuel scopes function work _ _ fixed judged
  obtain ⟨after, outcome, _⟩ := fixed fuel scopes work
  exact judged.mp ⟨_, outcome⟩

/-- A program is transformed just if its contracts are accepted. -/
theorem exists_transform_iff {program : Program} :
    (∃ output summary, program.transform settings = .ok (output, summary)) ↔
      ∀ site body, ProgramProcesses settings program site body →
        ∃ clauses, assemble site body = .ok clauses :=
  Prod.exists.symm.trans
    (judges_transform (sparesFixed_deciding settings program.allNames))

/-- When contracts are removed, none is looked at. -/
theorem contracts_of_strips (strips : settings.stripsContracts = true) (place : Place)
    (statements : List Statement) : (contracts settings place).ofStatements statements = [] := by
  have meets : (contracts settings place).Meets (Parts.all fun _ => True) fun _ => False := by
    constructor
    · exact fun _ _ absurd => by cases absurd
    · exact fun _ _ absurd => by cases absurd
    · exact fun _ _ absurd => by cases absurd
    · intro label body whole _ given contract member
      simp only [contracts, strips, Bool.true_or, if_true] at given
      split at given
      · cases given
        cases member
      · split at given
        · cases given
          cases member
        · cases given
      · cases given
  refine List.eq_nil_iff_forall_not_mem.mpr ?_
  exact Collection.forall_ofStatements meets statements
    (Parts.onStatements_all statements |>.mpr fun _ _ => trivial)

theorem not_processes_of_strips (strips : settings.stripsContracts = true) {names : List String}
    {function : Function} {site : Site} {body : Statement} :
    ¬ Processes settings names function site body := by
  intro processed
  induction processed with
  | own _ stated =>
      rw [contracts_of_strips strips] at stated
      cases stated
  | nested _ _ _ induction | result _ _ _ induction => exact induction

/-- Transforming a program without its contracts succeeds. -/
theorem exists_transform_of_strips (strips : settings.stripsContracts = true) (program : Program) :
    ∃ output summary, program.transform settings = .ok (output, summary) := by
  refine exists_transform_iff.mpr fun site body processed => ?_
  cases processed with
  | own stated =>
      rw [contracts_of_strips strips] at stated
      cases stated
  | function _ within => exact (not_processes_of_strips strips within).elim

/--
A transformation succeeds just if it removes contracts or every contract that
it looks at is accepted by itself.  Capturing values on entry before the
conditions are judged makes no difference, neither to a verdict nor to
whether the contract is accepted.
-/
theorem transform_accepts_iff (settings : Settings) (program : Program) :
    ((∃ output summary, program.transform settings = .ok (output, summary)) ↔
        settings.stripsContracts = true ∨
          ∀ site body, ProgramProcesses settings program site body →
            ∃ clauses, assemble site body = .ok clauses) ∧
      (∀ (context : Context) (site : Site) (body : Statement) (pass : Pass),
        (∃ clauses after, checkedGuards context site body pass = .ok (clauses, after)) ↔
          ∃ clauses, assemble site body = .ok clauses) ∧
        ∀ (marker : String) (condition : Expression) (capture : Capture),
          verdict (Capture.replace marker condition capture).1 = verdict condition := by
  refine ⟨⟨fun succeeds => .inr (exists_transform_iff.mp succeeds), ?_⟩,
    fun _ _ _ _ => exists_checkedGuards_iff, verdict_replace⟩
  rintro (strips | accepts)
  · exact exists_transform_of_strips strips program
  · exact exists_transform_iff.mpr accepts

end

end Covenant.Contract
