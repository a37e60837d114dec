import Covenant.Proofs.Functions
import Covenant.Proofs.Settled

/-!
# What becomes of functions

A function with a block is walked over and finished, and then the functions
nested in it are transformed.  The result differs from the finished block only
in those functions, and declarations of checkers are left as they are.
-/

namespace Covenant.Contract

namespace Work

/-- Work on one more function. -/
def entering (work : Work) : Work :=
  { work with summary := { work.summary with functions := work.summary.functions + 1 } }

/-- The pass with which a function is walked over. -/
def start (work : Work) : Pass :=
  ⟨work.entering, .empty, []⟩

/-- Names of checkers are taken, and known names are taken but not by checkers. -/
structure Sound (known : String → Prop) (work : Work) : Prop where
  helpers : work.helperNames ⊆ work.supply.taken
  known {name : String} : known name → name ∈ work.supply.taken ∧ name ∉ work.helperNames

/-- Work stays in order when it makes progress. -/
theorem Sound.later
    {known : String → Prop} {earlier later : Work} (sound : earlier.Sound known)
    (precedes : earlier.Precedes later) :
    later.Sound known where
  helpers := by
    intro name member
    rcases precedes.named name member with early | out
    · exact precedes.taken (sound.helpers early)
    · exact out.taken
  known := by
    intro name holds
    obtain ⟨taken, apart⟩ := sound.known holds
    refine ⟨precedes.taken taken, fun member => ?_⟩
    rcases precedes.named name member with early | out
    · exact apart early
    · exact out.free taken

theorem precedes_start (work : Work) : work.Precedes work.start.work :=
  Work.precedes_of_same rfl rfl

theorem precedes_finishWork (pass : Pass) (statements : List Statement) :
    pass.work.Precedes (finishWork pass statements) :=
  Work.precedes_of_same rfl rfl

end Work

/-! ## The functions in a tree -/

section

variable {transform : Function → Transforming Function}

/-- What is related when the functions of a tree are transformed between two moments. -/
def nestedExchange (transform : Function → Transforming Function) (earliest latest : Work) :
    Exchange where
  name _ := True
  function source target :=
    ∃ state after,
      earliest.Precedes state ∧ transform source state = .ok (target, after) ∧
        after.Precedes latest
  expression _ _ := False
  statement source target :=
    source = target ∧
      ∃ state : Work,
        earliest.Precedes state ∧ state.Precedes latest ∧
          declaresHelpers state.helperNames source = true

/-- A transformation of functions only makes progress. -/
def Advances (transform : Function → Transforming Function) : Prop :=
  ∀ {source target : Function} {work after : Work},
    transform source work = .ok (target, after) → work.Precedes after

theorem nestedFunctions_statement_eq_ok
    {source : Statement} {target : Option Statement} {work after : Work} :
    (nestedFunctions transform).statement source work = .ok (target, after) ↔
      (if declaresHelpers work.helperNames source then some source else none) = target ∧
        work = after := by
  change Except.ok ((if declaresHelpers work.helperNames source then some source else none), work) =
    Except.ok (target, after) ↔ _
  simp

theorem nestedFunctions_function_eq_ok
    {source : Function} {target : Option Function} {work after : Work} :
    (nestedFunctions transform).function source work = .ok (target, after) ↔
      ∃ result, target = some result ∧ transform source work = .ok (result, after) := by
  change (some <$> transform source) work = _ ↔ _
  rw [map_eq_pure_bind, step_bind_eq_ok]
  constructor
  · rintro ⟨result, between, outcome, rest⟩
    obtain ⟨rfl, rfl⟩ := step_pure_eq_ok.mp rest
    exact ⟨result, rfl, outcome⟩
  · rintro ⟨result, rfl, outcome⟩
    exact ⟨result, after, outcome, step_pure_eq_ok.mpr ⟨rfl, rfl⟩⟩

theorem nestedFunctions_follows (advances : Advances transform) :
    Replacer.Follows (nestedFunctions transform) (.ofSteps Work Error) Work.course where
  statement := by
    intro source state after target gives
    obtain ⟨_, rfl⟩ := nestedFunctions_statement_eq_ok.mp gives
    exact .refl state
  expression := by
    intro source state after target gives
    obtain ⟨_, rfl⟩ := step_pure_eq_ok.mp gives
    exact .refl state
  function := by
    intro source state after target gives
    obtain ⟨result, _, outcome⟩ := nestedFunctions_function_eq_ok.mp gives
    exact advances outcome
  replaced := by
    intro source state after gives
    obtain ⟨result, absurd, _⟩ := nestedFunctions_function_eq_ok.mp gives
    cases absurd

theorem nestedFunctions_within (earliest latest : Work) :
    ((nestedFunctions transform).exchange (.ofSteps Work Error) Work.course
      ⟨earliest, latest⟩).Within (nestedExchange transform earliest latest) where
  name := id
  function := by
    rintro source target ⟨state, after, early, gives, late⟩
    obtain ⟨result, equal, outcome⟩ := nestedFunctions_function_eq_ok.mp gives
    cases equal
    exact ⟨state, after, early, outcome, late⟩
  expression := by
    rintro source target ⟨state, after, _, gives, _⟩
    obtain ⟨absurd, _⟩ := step_pure_eq_ok.mp gives
    cases absurd
  statement := by
    rintro source target ⟨state, after, early, gives, late⟩
    obtain ⟨answer, rfl⟩ := nestedFunctions_statement_eq_ok.mp gives
    split at answer
    case isTrue declares =>
      cases answer
      exact ⟨rfl, state, early, late, declares⟩
    case isFalse => cases answer

/-- Transforming the functions in statements relates them to the result. -/
theorem nestedFunctions_onStatements
    (advances : Advances transform) {source target : List Statement} {work after : Work}
    (outcome : (nestedFunctions transform).onStatements source work = .ok (target, after)) :
    work.Precedes after ∧ (nestedExchange transform work after).OnStatements source target := by
  obtain ⟨precedes, relates⟩ :=
    Replacer.onStatements_yields (nestedFunctions_follows advances) source work target after outcome
  refine ⟨precedes, ?_⟩
  exact (relates ⟨work, after⟩ (.refl _) (.refl _)).mono (nestedFunctions_within work after)

/-- Transforming the functions in an expression relates it to the result. -/
theorem nestedFunctions_onExpression
    (advances : Advances transform) {source target : Expression} {work after : Work}
    (outcome : (nestedFunctions transform).onExpression source work = .ok (target, after)) :
    work.Precedes after ∧ (nestedExchange transform work after).OnExpression source target := by
  obtain ⟨precedes, relates⟩ :=
    Replacer.onExpression_yields (nestedFunctions_follows advances) source work target after outcome
  refine ⟨precedes, ?_⟩
  exact (relates ⟨work, after⟩ (.refl _) (.refl _)).mono (nestedFunctions_within work after)

end

section

set_option linter.unusedSectionVars false

variable {settings : Settings} {place : Place} {transform : Function → Transforming Function}
  {earliest latest : Work}

mutual

/-- Transforming the functions in a statement keeps it settled. -/
theorem settled_of_exchange {alone : Bool} : {source target : Statement} →
    (nestedExchange transform earliest latest).OnStatement source target →
      Settled settings place alone source → Settled settings place alone target
  | _, _, .exchanged given, settled => given.1 ▸ settled
  | .labeled label _, _, .labeled inner, settled => by
      cases role : settings.roleOf label <;> simp only [Settled, role] at settled ⊢
      · exact settled
      · exact ⟨settled.1, settled.2.1, settled_of_exchange inner settled.2.2⟩
      · exact settled_of_exchange inner settled
  | _, _, .block inner, settled => by
      rw [Settled] at settled ⊢
      exact settledAll_of_exchange inner settled
  | _, _, .branch _ consequent alternate, settled => by
      rw [Settled] at settled ⊢
      exact ⟨settled_of_exchange consequent settled.1,
        settledAlternate_of_exchange alternate settled.2⟩
  | _, _, .whileLoop _ body, settled | _, _, .doWhileLoop body _, settled
  | _, _, .forLoop _ _ _ body, settled => by
      rw [Settled] at settled ⊢
      exact settled_of_exchange body settled
  | _, _, .evaluate _, _ | _, _, .giveBack _, _ | _, _, .bindings _, _ | _, _, .declare _, _
  | _, _, .raise _, _ | _, _, .breakOut _, _ | _, _, .continueLoop _, _ | _, _, .empty, _ => by
      simp [Settled]

theorem settledAlternate_of_exchange {source target : Option Statement} :
    (nestedExchange transform earliest latest).OnAlternate source target →
      SettledAlternate settings place source → SettledAlternate settings place target
  | .none, settled => settled
  | .some inner, settled => by
      rw [SettledAlternate] at settled ⊢
      exact settled_of_exchange inner settled

/-- Transforming the functions in statements keeps them settled. -/
theorem settledAll_of_exchange {source target : List Statement} :
    (nestedExchange transform earliest latest).OnStatements source target →
      SettledAll settings place source → SettledAll settings place target
  | .nil, settled => settled
  | .cons head rest, settled => by
      rw [SettledAll] at settled ⊢
      exact ⟨settled_of_exchange head settled.1, settledAll_of_exchange rest settled.2⟩

end

end

/-! ## One function -/

section

variable {settings : Settings} {fuel : Nat} {scopes : ScopeStack}
  {function result : Function} {work after : Work}

/-- A context for the statements of a function. -/
def functionContext (settings : Settings) (scopes : ScopeStack) (function : Function) : Context :=
  ⟨settings, scopes.push function.scope, .function function.name⟩

/-- The statements of a function are walked over and then finished. -/
theorem transformBlock_eq {name : Option String} {statements : List Statement} :
    transformBlock settings scopes name statements work =
      (do
        let (walked, pass) ←
          walkBlock ⟨settings, scopes, .function name⟩ [] statements work.start
        .ok (finish settings.tokens.result pass walked, finishWork pass walked)) := by
  change ((walkBlock ⟨settings, scopes, .function name⟩ [] statements work.start).bind
    fun done => Except.ok (done, work)).bind _ = _
  cases walkBlock ⟨settings, scopes, .function name⟩ [] statements work.start <;> rfl

theorem transformBlock_eq_ok
    {name : Option String} {statements finished : List Statement} :
    transformBlock settings scopes name statements work = .ok (finished, after) ↔
      ∃ walked pass,
        Walks ⟨settings, scopes, .function name⟩ (.list [] statements) work.start walked pass ∧
          finished = finish settings.tokens.result pass walked ∧
            after = finishWork pass walked := by
  rw [transformBlock_eq]
  constructor
  · intro outcome
    cases first : walkBlock ⟨settings, scopes, .function name⟩ [] statements work.start with
    | error reason =>
        rw [first] at outcome
        cases outcome
    | ok done =>
        rw [first] at outcome
        cases outcome
        exact ⟨done.1, done.2, walks_list_iff.mpr first, rfl, rfl⟩
  · rintro ⟨walked, pass, walks, rfl, rfl⟩
    rw [walks_list_iff.mp walks]
    rfl

/-- A function with a block is walked over and finished, and then its functions are transformed. -/
theorem transformFunction_eq_of_block
    {statements : List Statement} (shape : function.body = .block statements) :
    transformFunction settings (fuel + 1) scopes function work =
      (do
        let (walked, pass) ←
          walkBlock (functionContext settings scopes function) [] statements work.start
        let (final, after) ←
          (nestedFunctions
              (transformFunction settings fuel (scopes.push function.scope))).onStatements
            (finish settings.tokens.result pass walked) (finishWork pass walked)
        .ok ({ function with body := .block final }, after)) := by
  simp only [transformFunction, shape, bind_assoc, pure_bind, Replacer.onFunctionBody]
  change (transformBlock settings (scopes.push function.scope) function.name statements work >>=
    _) = _
  rw [transformBlock_eq, functionContext]
  cases walkBlock _ [] statements work.start <;> rfl

/-- Of a function that is a single expression only the functions in it are transformed. -/
theorem transformFunction_eq_of_result
    {expression : Expression} (shape : function.body = .result expression) :
    transformFunction settings (fuel + 1) scopes function work =
      (do
        let (final, after) ←
          (nestedFunctions
              (transformFunction settings fuel (scopes.push function.scope))).onExpression
            expression work
        .ok ({ function with body := .result final }, after)) := by
  simp only [transformFunction, shape, bind_assoc, pure_bind, Replacer.onFunctionBody]
  rfl

theorem transformFunction_block
    {statements : List Statement} (shape : function.body = .block statements) :
    transformFunction settings (fuel + 1) scopes function work = .ok (result, after) ↔
      ∃ walked pass final,
        Walks (functionContext settings scopes function) (.list [] statements) work.start
            walked pass ∧
          (nestedFunctions
              (transformFunction settings fuel (scopes.push function.scope))).onStatements
                (finish settings.tokens.result pass walked) (finishWork pass walked) =
            .ok (final, after) ∧
            result = { function with body := .block final } := by
  simp only [transformFunction, shape, bind_assoc, pure_bind, Replacer.onFunctionBody]
  constructor
  · intro outcome
    obtain ⟨finished, between, first, outcome⟩ := step_bind_eq_ok.mp outcome
    obtain ⟨final, last, second, rest⟩ := step_bind_eq_ok.mp outcome
    obtain ⟨rfl, rfl⟩ := step_pure_eq_ok.mp rest
    obtain ⟨walked, pass, walks, rfl, rfl⟩ := transformBlock_eq_ok.mp first
    exact ⟨walked, pass, final, walks, second, rfl⟩
  · rintro ⟨walked, pass, final, walks, second, rfl⟩
    have first := transformBlock_eq_ok.mpr ⟨walked, pass, walks, rfl, rfl⟩
    rw [step_bind_of_ok first, step_bind_of_ok second]
    rfl

theorem transformFunction_result
    {expression : Expression} (shape : function.body = .result expression) :
    transformFunction settings (fuel + 1) scopes function work = .ok (result, after) ↔
      ∃ final,
        (nestedFunctions
            (transformFunction settings fuel (scopes.push function.scope))).onExpression
              expression work =
          .ok (final, after) ∧
          result = { function with body := .result final } := by
  simp only [transformFunction, shape, bind_assoc, pure_bind, Replacer.onFunctionBody]
  constructor
  · intro outcome
    obtain ⟨final, last, second, rest⟩ := step_bind_eq_ok.mp outcome
    obtain ⟨rfl, rfl⟩ := step_pure_eq_ok.mp rest
    exact ⟨final, second, rfl⟩
  · rintro ⟨final, second, rfl⟩
    rw [step_bind_of_ok second]
    rfl

end

/-- Transforming functions only makes progress. -/
theorem transformFunction_advances (settings : Settings) :
    ∀ fuel scopes, Advances (transformFunction settings fuel scopes) := by
  intro fuel
  induction fuel with
  | zero =>
      intro scopes source target work after outcome
      obtain ⟨_, rfl⟩ := step_pure_eq_ok.mp outcome
      exact .refl work
  | succ fuel induction =>
      intro scopes source target work after outcome
      cases shape : source.body with
      | block statements =>
          obtain ⟨walked, pass, final, walks, nested, _⟩ :=
            (transformFunction_block shape).mp outcome
          have inner := (nestedFunctions_onStatements (induction _) nested).1
          exact ((work.precedes_start.trans walks.precedes.work).trans
            (Work.precedes_finishWork pass walked)).trans inner
      | result expression =>
          obtain ⟨final, nested, _⟩ := (transformFunction_result shape).mp outcome
          exact (nestedFunctions_onExpression (induction _) nested).1

/-! ## Statements outside functions -/

/-- A context for the statements outside functions. -/
def topLevelContext (settings : Settings) (scopes : ScopeStack) : Context :=
  ⟨settings, scopes, .topLevel⟩

section

variable {settings : Settings} {fuel : Nat} {scopes : ScopeStack}
  {statements final : List Statement} {work after : Work}

/-- Statements outside functions are walked over, and then their functions are transformed. -/
theorem transformStatements_eq :
    transformStatements settings fuel scopes statements work =
      (do
        let (walked, pass) ←
          walkBlock (topLevelContext settings scopes) [] statements ⟨work, .empty, []⟩
        (nestedFunctions (transformFunction settings fuel scopes)).onStatements walked
          pass.work) := by
  change (((walkBlock (topLevelContext settings scopes) [] statements ⟨work, .empty, []⟩).bind
    fun done => Except.ok (done, work)).bind _).bind _ = _
  cases walkBlock (topLevelContext settings scopes) [] statements ⟨work, .empty, []⟩ <;> rfl

theorem transformStatements_eq_ok :
    transformStatements settings fuel scopes statements work = .ok (final, after) ↔
      ∃ walked pass,
        Walks (topLevelContext settings scopes) (.list [] statements) ⟨work, .empty, []⟩
            walked pass ∧
          (nestedFunctions (transformFunction settings fuel scopes)).onStatements walked
              pass.work =
            .ok (final, after) := by
  rw [transformStatements_eq]
  constructor
  · intro outcome
    cases walk : walkBlock (topLevelContext settings scopes) [] statements ⟨work, .empty, []⟩ with
    | error reason =>
        rw [walk] at outcome
        cases outcome
    | ok done =>
        rw [walk] at outcome
        exact ⟨done.1, done.2, walks_list_iff.mpr walk, outcome⟩
  · rintro ⟨walked, pass, walks, nested⟩
    rw [walks_list_iff.mp walks]
    exact nested

end

/-- What a program is transformed with at first. -/
def Work.ofProgram (program : Program) : Work :=
  ⟨.ofProgram program, [], .zero⟩

/-- A program is transformed by transforming its statements. -/
theorem transform_eq {settings : Settings} {program : Program} :
    program.transform settings =
      (do
        let (statements, work) ←
          transformStatements settings program.functions.length (.ofProgram program)
            program.statements (.ofProgram program)
        .ok (⟨statements⟩, work.summary)) :=
  rfl

theorem transform_eq_ok
    {settings : Settings} {program output : Program} {summary : Summary} :
    program.transform settings = .ok (output, summary) ↔
      ∃ work,
        transformStatements settings program.functions.length (.ofProgram program)
            program.statements (.ofProgram program) = .ok (output.statements, work) ∧
          work.summary = summary := by
  rw [transform_eq]
  constructor
  · intro outcome
    cases first : transformStatements settings program.functions.length (.ofProgram program)
        program.statements (.ofProgram program) with
    | error reason =>
        rw [first] at outcome
        cases outcome
    | ok done =>
        rw [first] at outcome
        cases outcome
        exact ⟨done.2, rfl, rfl⟩
  · rintro ⟨work, outcome, rfl⟩
    rw [outcome]
    rfl

/-- The names of a program are known, and none of them is a checker's. -/
theorem Work.sound_ofProgram (program : Program) :
    (Work.ofProgram program).Sound (· ∈ program.allNames) where
  helpers := List.nil_subset _
  known := fun member => ⟨member, List.not_mem_nil⟩

/-- The statements of a program are bounded by the number of its functions. -/
theorem bounded_ofProgram (program : Program) :
    Bounded program.functions.length (· ∈ program.allNames)
      (nodesOfStatements true program.statements) where
  size := le_of_eq rfl
  names := fun node member _ among => List.mem_flatMap.mpr ⟨node, member, among⟩

end Covenant.Contract
