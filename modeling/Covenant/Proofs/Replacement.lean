import Mathlib.Data.List.Forall2
import Covenant.Proofs.Exchange
import Covenant.Proofs.Step

/-!
# What a replacement does

A replacer walks a tree in some monad.  All that is used of the monad is which
results an action gives and which states it goes through: `Outcomes`.  A
replacement then relates the tree to its result by an exchange, in which every
function, expression, and statement that was replaced stands for what its hook
gave, at some moment between the start and the end of the replacement.
-/

namespace Covenant

/-- Whatever stands in the second of two related lists is related to something in the first. -/
theorem exists_mem_of_forall₂ {α β : Type} {related : α → β → Prop}
    {first : List α} {second : List β} (relates : List.Forall₂ related first second) :
    ∀ right ∈ second, ∃ left ∈ first, related left right := by
  induction relates with
  | nil =>
      intro right member
      cases member
  | cons head _ induction =>
      intro right member
      rcases List.mem_cons.mp member with rfl | inRest
      · exact ⟨_, List.mem_cons_self, head⟩
      · obtain ⟨left, among, holds⟩ := induction right inRest
        exact ⟨left, List.mem_cons_of_mem _ among, holds⟩

/-- Which results actions give, and from which state to which. -/
structure Outcomes (m : Type → Type) [Monad m] (σ : Type) where
  /-- An action gives a result and leads from one state to another. -/
  gives : {α : Type} → m α → σ → α → σ → Prop
  gives_pure {α : Type} {value result : α} {state after : σ} :
    gives (pure value) state result after → value = result ∧ state = after
  gives_bind {α β : Type} {first : m α} {next : α → m β} {state after : σ} {result : β} :
    gives (first >>= next) state result after →
      ∃ value between,
        gives first state value between ∧ gives (next value) between result after

/-- The outcomes of steps that carry a state and may fail. -/
def Outcomes.ofSteps (σ ε : Type) : Outcomes (StateT σ (Except ε)) σ where
  gives action state result after := action state = .ok (result, after)
  gives_pure := step_pure_eq_ok.mp
  gives_bind := step_bind_eq_ok.mp

/-- The outcomes of steps that carry a state. -/
def Outcomes.ofStates (σ : Type) : Outcomes (StateM σ) σ where
  gives action state result after := action state = (result, after)
  gives_pure := by
    intro _ value result state after equal
    cases equal
    exact ⟨rfl, rfl⟩
  gives_bind := by
    intro _ _ first next state after result equal
    exact ⟨(first state).1, (first state).2, rfl, equal⟩

namespace Replacer

variable {m : Type → Type} [Monad m] {σ : Type}

/-- A time in the course of states: what lies between two of them. -/
structure Span (σ : Type) where
  earliest : σ
  latest : σ

/-- How the states of a course follow each other. -/
structure Course (σ : Type) where
  precedes : σ → σ → Prop
  refl (state : σ) : precedes state state
  trans {first second third : σ} :
    precedes first second → precedes second third → precedes first third

/--
An action moves forward in a course of states, and its result has a property
that refers to any span of time around it.
-/
def Yields
    (outcomes : Outcomes m σ) (course : Course σ)
    {α : Type} (action : m α) (property : Span σ → α → Prop) : Prop :=
  ∀ state result after, outcomes.gives action state result after →
    course.precedes state after ∧
      ∀ span : Span σ,
        course.precedes span.earliest state → course.precedes after span.latest →
          property span result

variable {outcomes : Outcomes m σ} {course : Course σ}

theorem Yields.pure {α : Type} {value : α} {property : Span σ → α → Prop}
    (holds : ∀ span, property span value) :
    Yields outcomes course (Pure.pure value : m α) property := by
  intro state result after gives
  obtain ⟨rfl, rfl⟩ := outcomes.gives_pure gives
  exact ⟨course.refl state, fun span _ _ => holds span⟩

theorem Yields.bind {α β : Type} {first : m α} {next : α → m β}
    {property : Span σ → α → Prop} {result : Span σ → β → Prop}
    (firstYields : Yields outcomes course first property)
    (nextYields : ∀ value,
      Yields outcomes course (next value) fun span final => property span value → result span final) :
    Yields outcomes course (first >>= next) result := by
  intro state final after gives
  obtain ⟨value, between, firstGives, nextGives⟩ := outcomes.gives_bind gives
  obtain ⟨firstForward, firstHolds⟩ := firstYields state value between firstGives
  obtain ⟨nextForward, nextHolds⟩ := nextYields value between final after nextGives
  refine ⟨course.trans firstForward nextForward, fun span early late => ?_⟩
  exact nextHolds span (course.trans early firstForward) late
    (firstHolds span early (course.trans nextForward late))

/-- Actions on the values of a list yield results that belong to them one by one. -/
theorem Yields.mapM [LawfulMonad m] {α β : Type} {action : α → m β}
    {property : Span σ → α → β → Prop} : (values : List α) →
      (∀ value ∈ values, Yields outcomes course (action value) fun span result =>
        property span value result) →
      Yields outcomes course (values.mapM action) fun span results =>
        List.Forall₂ (property span) values results
  | [], _ => by
      rw [List.mapM_nil]
      exact .pure fun _ => .nil
  | value :: rest, each => by
      rw [List.mapM_cons]
      refine (each value List.mem_cons_self).bind fun _ => ?_
      refine (mapM rest fun other member => each other (List.mem_cons_of_mem _ member)).bind
        fun _ => ?_
      exact .pure fun _ second first => .cons first second

/-- What a replacer may put in the place of a function, an expression, or a statement in a span. -/
def exchange
    (replacer : Replacer m) (outcomes : Outcomes m σ) (course : Course σ) (span : Span σ) :
    Exchange where
  name _ := True
  function source target :=
    ∃ state after,
      course.precedes span.earliest state ∧
        outcomes.gives (replacer.function source) state (some target) after ∧
          course.precedes after span.latest
  expression source target :=
    ∃ state after,
      course.precedes span.earliest state ∧
        outcomes.gives (replacer.expression source) state (some target) after ∧
          course.precedes after span.latest
  statement source target :=
    ∃ state after,
      course.precedes span.earliest state ∧
        outcomes.gives (replacer.statement source) state (some target) after ∧
          course.precedes after span.latest

/-- The hooks of a replacer move forward, and every function is replaced. -/
structure Follows (replacer : Replacer m) (outcomes : Outcomes m σ) (course : Course σ) : Prop where
  statement {source : Statement} {state after : σ} {target : Option Statement} :
    outcomes.gives (replacer.statement source) state target after → course.precedes state after
  expression {source : Expression} {state after : σ} {target : Option Expression} :
    outcomes.gives (replacer.expression source) state target after → course.precedes state after
  function {source : Function} {state after : σ} {target : Option Function} :
    outcomes.gives (replacer.function source) state target after → course.precedes state after
  replaced {source : Function} {state after : σ} :
    ¬ outcomes.gives (replacer.function source) state none after

variable {replacer : Replacer m}

/-- A hook is asked first, and its answer taken as it stands. -/
theorem yields_hook {α : Type} {hook : m (Option α)} {next : Option α → m α}
    {property : Span σ → α → Prop}
    (forward : ∀ {state result after}, outcomes.gives hook state result after →
      course.precedes state after)
    (taken : ∀ replacement, next (some replacement) = Pure.pure replacement)
    (replaced : ∀ {span : Span σ} {result state after},
      course.precedes span.earliest state → outcomes.gives hook state (some result) after →
        course.precedes after span.latest → property span result)
    (inside : Yields outcomes course (next none) property) :
    Yields outcomes course (hook >>= next) property := by
  intro state result after gives
  obtain ⟨answer, between, hookGives, gives⟩ := outcomes.gives_bind gives
  have hookForward := forward hookGives
  cases answer with
  | some replacement =>
      rw [taken] at gives
      obtain ⟨rfl, rfl⟩ := outcomes.gives_pure gives
      exact ⟨hookForward, fun span early late => replaced early hookGives late⟩
  | none =>
      obtain ⟨insideForward, holds⟩ := inside between result after gives
      refine ⟨course.trans hookForward insideForward, fun span early late => ?_⟩
      exact holds span (course.trans early hookForward) late

section

set_option linter.unusedSectionVars false

variable (follows : Follows replacer outcomes course)

include follows

theorem expression_hook
    {source : Expression} {next : Option Expression → m Expression}
    (taken : ∀ replacement, next (some replacement) = Pure.pure replacement)
    (inside : Yields outcomes course (next none) fun span target =>
      (replacer.exchange outcomes course span).OnExpression source target) :
    Yields outcomes course (replacer.expression source >>= next) fun span target =>
      (replacer.exchange outcomes course span).OnExpression source target :=
  yields_hook follows.expression taken
    (fun early gives late => .exchanged ⟨_, _, early, gives, late⟩) inside

theorem statement_hook
    {source : Statement} {next : Option Statement → m Statement}
    (taken : ∀ replacement, next (some replacement) = Pure.pure replacement)
    (inside : Yields outcomes course (next none) fun span target =>
      (replacer.exchange outcomes course span).OnStatement source target) :
    Yields outcomes course (replacer.statement source >>= next) fun span target =>
      (replacer.exchange outcomes course span).OnStatement source target :=
  yields_hook follows.statement taken
    (fun early gives late => .exchanged ⟨_, _, early, gives, late⟩) inside

theorem onFunction_yields (source : Function) :
    Yields outcomes course (replacer.onFunction source) fun span target =>
      (replacer.exchange outcomes course span).function source target := by
  obtain ⟨name, parameters, body, isArrow, isAsync, isGenerator⟩ := source
  rw [onFunction]
  intro state result after gives
  obtain ⟨answer, between, hookGives, gives⟩ := outcomes.gives_bind gives
  cases answer with
  | none => exact (follows.replaced hookGives).elim
  | some replacement =>
      obtain ⟨rfl, rfl⟩ := outcomes.gives_pure gives
      exact ⟨follows.function hookGives, fun span early late => ⟨_, _, early, hookGives, late⟩⟩

mutual

/-- Replacing inside an expression relates it to the result. -/
theorem onExpression_yields : (source : Expression) →
    Yields outcomes course (replacer.onExpression source) fun span target =>
      (replacer.exchange outcomes course span).OnExpression source target
  | .literal value => by
      rw [onExpression]
      refine expression_hook follows (fun _ => rfl) ?_
      exact .pure fun _ => .literal value
  | .identifier name => by
      rw [onExpression]
      refine expression_hook follows (fun _ => rfl) ?_
      exact .pure fun _ => .identifier trivial
  | .receiver => by
      rw [onExpression]
      refine expression_hook follows (fun _ => rfl) ?_
      exact .pure fun _ => .receiver
  | .array elements => by
      rw [onExpression]
      refine expression_hook follows (fun _ => rfl) ?_
      refine (onExpressions_yields elements).bind fun _ => ?_
      exact .pure fun _ inner => .array inner
  | .record properties => by
      rw [onExpression]
      refine expression_hook follows (fun _ => rfl) ?_
      refine (onProperties_yields properties).bind fun _ => ?_
      exact .pure fun _ inner => .record inner
  | .lambda function => by
      rw [onExpression]
      refine expression_hook follows (fun _ => rfl) ?_
      refine (onFunction_yields follows function).bind fun _ => ?_
      exact .pure fun _ inner => .lambda inner
  | .unary operator argument => by
      rw [onExpression]
      refine expression_hook follows (fun _ => rfl) ?_
      refine (onExpression_yields argument).bind fun _ => ?_
      exact .pure fun _ inner => .unary inner
  | .update operator leading argument => by
      rw [onExpression]
      refine expression_hook follows (fun _ => rfl) ?_
      refine (onExpression_yields argument).bind fun _ => ?_
      exact .pure fun _ inner => .update inner
  | .binary operator left right => by
      rw [onExpression]
      refine expression_hook follows (fun _ => rfl) ?_
      refine (onExpression_yields left).bind fun _ => ?_
      refine (onExpression_yields right).bind fun _ => ?_
      exact .pure fun _ second first => .binary first second
  | .logical operator left right => by
      rw [onExpression]
      refine expression_hook follows (fun _ => rfl) ?_
      refine (onExpression_yields left).bind fun _ => ?_
      refine (onExpression_yields right).bind fun _ => ?_
      exact .pure fun _ second first => .logical first second
  | .assign operator target value => by
      rw [onExpression]
      refine expression_hook follows (fun _ => rfl) ?_
      refine (onExpression_yields target).bind fun _ => ?_
      refine (onExpression_yields value).bind fun _ => ?_
      exact .pure fun _ second first => .assign first second
  | .conditional test consequent alternate => by
      rw [onExpression]
      refine expression_hook follows (fun _ => rfl) ?_
      refine (onExpression_yields test).bind fun _ => ?_
      refine (onExpression_yields consequent).bind fun _ => ?_
      refine (onExpression_yields alternate).bind fun _ => ?_
      exact .pure fun _ third second first => .conditional first second third
  | .call callee arguments => by
      rw [onExpression]
      refine expression_hook follows (fun _ => rfl) ?_
      refine (onExpression_yields callee).bind fun _ => ?_
      refine (onExpressions_yields arguments).bind fun _ => ?_
      exact .pure fun _ second first => .call first second
  | .construct callee arguments => by
      rw [onExpression]
      refine expression_hook follows (fun _ => rfl) ?_
      refine (onExpression_yields callee).bind fun _ => ?_
      refine (onExpressions_yields arguments).bind fun _ => ?_
      exact .pure fun _ second first => .construct first second
  | .member object name => by
      rw [onExpression]
      refine expression_hook follows (fun _ => rfl) ?_
      refine (onExpression_yields object).bind fun _ => ?_
      exact .pure fun _ inner => .member inner
  | .index object key => by
      rw [onExpression]
      refine expression_hook follows (fun _ => rfl) ?_
      refine (onExpression_yields object).bind fun _ => ?_
      refine (onExpression_yields key).bind fun _ => ?_
      exact .pure fun _ second first => .index first second
  | .sequence expressions => by
      rw [onExpression]
      refine expression_hook follows (fun _ => rfl) ?_
      refine (onExpressions_yields expressions).bind fun _ => ?_
      exact .pure fun _ inner => .sequence inner
  | .yield argument delegate => by
      rw [onExpression]
      refine expression_hook follows (fun _ => rfl) ?_
      refine (onOptional_yields argument).bind fun _ => ?_
      exact .pure fun _ inner => .yield inner
  | .await argument => by
      rw [onExpression]
      refine expression_hook follows (fun _ => rfl) ?_
      refine (onExpression_yields argument).bind fun _ => ?_
      exact .pure fun _ inner => .await inner

/-- Replacing inside expressions relates them to the results. -/
theorem onExpressions_yields : (source : List Expression) →
    Yields outcomes course (replacer.onExpressions source) fun span target =>
      (replacer.exchange outcomes course span).OnExpressions source target
  | [] => by
      rw [onExpressions]
      exact .pure fun _ => .nil
  | expression :: rest => by
      rw [onExpressions]
      refine (onExpression_yields expression).bind fun _ => ?_
      refine (onExpressions_yields rest).bind fun _ => ?_
      exact .pure fun _ second first => .cons first second

/-- Replacing inside the values of properties relates them to the results. -/
theorem onProperties_yields : (source : List Property) →
    Yields outcomes course (replacer.onProperties source) fun span target =>
      (replacer.exchange outcomes course span).OnProperties source target
  | [] => by
      rw [onProperties]
      exact .pure fun _ => .nil
  | ⟨key, value⟩ :: rest => by
      rw [onProperties]
      refine (onExpression_yields value).bind fun _ => ?_
      refine (onProperties_yields rest).bind fun _ => ?_
      exact .pure fun _ second first => .cons first second

/-- Replacing inside an expression that may be missing relates it to the result. -/
theorem onOptional_yields : (source : Option Expression) →
    Yields outcomes course (replacer.onOptional source) fun span target =>
      (replacer.exchange outcomes course span).OnOptional source target
  | none => by
      rw [onOptional]
      exact .pure fun _ => .none
  | some expression => by
      rw [onOptional]
      refine (onExpression_yields expression).bind fun _ => ?_
      exact .pure fun _ inner => .some inner

end

/-- Replacing inside the initial values of variables relates them to the results. -/
theorem onDeclarators_yields : (source : List Declarator) →
    Yields outcomes course (replacer.onDeclarators source) fun span target =>
      (replacer.exchange outcomes course span).OnDeclarators source target
  | [] => by
      rw [onDeclarators]
      exact .pure fun _ => .nil
  | ⟨name, init⟩ :: rest => by
      rw [onDeclarators]
      refine (onOptional_yields follows init).bind fun _ => ?_
      refine (onDeclarators_yields rest).bind fun _ => ?_
      exact .pure fun _ second first => .cons trivial first second

/-- Replacing inside the initial step of a loop relates it to the result. -/
theorem onLoopInit_yields : (source : Option LoopInit) →
    Yields outcomes course (replacer.onLoopInit source) fun span target =>
      (replacer.exchange outcomes course span).OnLoopInit source target
  | none => by
      rw [onLoopInit]
      exact .pure fun _ => .none
  | some (.bindings kind declarators) => by
      rw [onLoopInit]
      refine (onDeclarators_yields follows declarators).bind fun _ => ?_
      exact .pure fun _ inner => .bindings inner
  | some (.evaluate expression) => by
      rw [onLoopInit]
      refine (onExpression_yields follows expression).bind fun _ => ?_
      exact .pure fun _ inner => .evaluate inner

mutual

/-- Replacing inside a statement relates it to the result. -/
theorem onStatement_yields : (source : Statement) →
    Yields outcomes course (replacer.onStatement source) fun span target =>
      (replacer.exchange outcomes course span).OnStatement source target
  | .evaluate expression => by
      rw [onStatement]
      refine statement_hook follows (fun _ => rfl) ?_
      refine (onExpression_yields follows expression).bind fun _ => ?_
      exact .pure fun _ inner => .evaluate inner
  | .block statements => by
      rw [onStatement]
      refine statement_hook follows (fun _ => rfl) ?_
      refine (onStatements_yields statements).bind fun _ => ?_
      exact .pure fun _ inner => .block inner
  | .labeled label body => by
      rw [onStatement]
      refine statement_hook follows (fun _ => rfl) ?_
      refine (onStatement_yields body).bind fun _ => ?_
      exact .pure fun _ inner => .labeled inner
  | .giveBack argument => by
      rw [onStatement]
      refine statement_hook follows (fun _ => rfl) ?_
      refine (onOptional_yields follows argument).bind fun _ => ?_
      exact .pure fun _ inner => .giveBack inner
  | .branch test consequent alternate => by
      rw [onStatement]
      refine statement_hook follows (fun _ => rfl) ?_
      refine (onExpression_yields follows test).bind fun _ => ?_
      refine (onStatement_yields consequent).bind fun _ => ?_
      refine (onAlternate_yields alternate).bind fun _ => ?_
      exact .pure fun _ third second first => .branch first second third
  | .whileLoop test body => by
      rw [onStatement]
      refine statement_hook follows (fun _ => rfl) ?_
      refine (onExpression_yields follows test).bind fun _ => ?_
      refine (onStatement_yields body).bind fun _ => ?_
      exact .pure fun _ second first => .whileLoop first second
  | .doWhileLoop body test => by
      rw [onStatement]
      refine statement_hook follows (fun _ => rfl) ?_
      refine (onStatement_yields body).bind fun _ => ?_
      refine (onExpression_yields follows test).bind fun _ => ?_
      exact .pure fun _ second first => .doWhileLoop first second
  | .forLoop init test update body => by
      rw [onStatement]
      refine statement_hook follows (fun _ => rfl) ?_
      refine (onLoopInit_yields follows init).bind fun _ => ?_
      refine (onOptional_yields follows test).bind fun _ => ?_
      refine (onOptional_yields follows update).bind fun _ => ?_
      refine (onStatement_yields body).bind fun _ => ?_
      exact .pure fun _ fourth third second first => .forLoop first second third fourth
  | .bindings kind declarators => by
      rw [onStatement]
      refine statement_hook follows (fun _ => rfl) ?_
      refine (onDeclarators_yields follows declarators).bind fun _ => ?_
      exact .pure fun _ inner => .bindings inner
  | .declare function => by
      rw [onStatement]
      refine statement_hook follows (fun _ => rfl) ?_
      refine (onFunction_yields follows function).bind fun _ => ?_
      exact .pure fun _ inner => .declare inner
  | .raise argument => by
      rw [onStatement]
      refine statement_hook follows (fun _ => rfl) ?_
      refine (onExpression_yields follows argument).bind fun _ => ?_
      exact .pure fun _ inner => .raise inner
  | .breakOut label => by
      rw [onStatement]
      refine statement_hook follows (fun _ => rfl) ?_
      exact .pure fun _ => .breakOut label
  | .continueLoop label => by
      rw [onStatement]
      refine statement_hook follows (fun _ => rfl) ?_
      exact .pure fun _ => .continueLoop label
  | .empty => by
      rw [onStatement]
      refine statement_hook follows (fun _ => rfl) ?_
      exact .pure fun _ => .empty

/-- Replacing inside a statement that may be missing relates it to the result. -/
theorem onAlternate_yields : (source : Option Statement) →
    Yields outcomes course (replacer.onAlternate source) fun span target =>
      (replacer.exchange outcomes course span).OnAlternate source target
  | none => by
      rw [onAlternate]
      exact .pure fun _ => .none
  | some statement => by
      rw [onAlternate]
      refine (onStatement_yields statement).bind fun _ => ?_
      exact .pure fun _ inner => .some inner

/-- Replacing inside statements relates them to the results. -/
theorem onStatements_yields : (source : List Statement) →
    Yields outcomes course (replacer.onStatements source) fun span target =>
      (replacer.exchange outcomes course span).OnStatements source target
  | [] => by
      rw [onStatements]
      exact .pure fun _ => .nil
  | statement :: rest => by
      rw [onStatements]
      refine (onStatement_yields statement).bind fun _ => ?_
      refine (onStatements_yields rest).bind fun _ => ?_
      exact .pure fun _ second first => .cons first second

end

end

end Replacer

end Covenant
