import Mathlib
import Covenant.Proofs.Position
import Covenant.Proofs.Returned

/-!
# Every return is routed through exactly the right helpers

In a transformed function every return passes its value through the helpers of
the invariants that govern it, and through those of all postconditions after
that, once through each and in the order of the source.  Nothing else passes
through a helper.

The returns of a transformed function correspond one by one to those of the
function that survive, and the functions of a transformed program to those of
the program, at every depth.
-/

namespace Covenant.Contract

/-! ## Helpers of postconditions -/

/-- The postconditions of a function are what is stated of their kind. -/
theorem stated_postcondition (settings : Settings) :
    stated settings .postcondition = postconditions settings := by
  rw [stated, postconditions]
  congr 1
  funext label body
  cases settings.roleOf label with
  | contract kind => cases kind <;> rfl
  | _ => rfl

/-- A helper that checks what a postcondition states enforces the postcondition. -/
theorem Checker.Checks.enforces
    {context : Context} {captured : OldBindings} {body : Statement} {checker : Checker}
    {found : List Condition} (checks : checker.Checks found)
    (states : States context captured body found) :
    checker.Enforces context .postcondition captured body := by
  obtain ⟨given, outcome, related⟩ := states
  obtain ⟨⟨site, guards⟩, _⟩ := checks
  refine ⟨given, found, outcome, related, guards.trans (List.map_congr_left fun condition among => ?_)⟩
  -- Messages have been filled in, so it does not matter for which site a clause is made.
  obtain ⟨source, inside, captures⟩ := exists_mem_of_forall₂ related condition among
  obtain ⟨original, _, rfl⟩ := List.mem_map.mp inside
  have message := captures.message
  rw [Condition.withMessage] at message
  cases written : condition.message? with
  | none =>
      rw [written] at message
      cases message
  | some expression =>
      rw [Condition.clause, Condition.clause, Condition.message, Condition.message, written,
        Option.getD_some, Option.getD_some]

/-- The helpers of a walk's postconditions enforce what is stated, in source order. -/
theorem Walks.enforced_postconditions
    {context : Context} {statements result : List Statement} {pass after : Pass}
    (place : context.place ≠ .topLevel) (keeps : context.settings.stripsContracts = false)
    (starts : pass.postconditions = [])
    (walks : Walks context (.list [] statements) pass result after) :
    List.Forall₂ (Checker.Enforces context .postcondition after.captured)
      ((stated context.settings .postcondition).ofStatements statements)
      after.postconditions := by
  rcases (walks.postconditions place keeps (.refl after) trivial).made with
    ⟨checkers, found, remembered, checks, states⟩
  rw [starts, List.nil_append] at remembered
  rw [remembered, stated_postcondition]
  have checked : List.Forall₂ (fun found checker => Checker.Checks checker found) found checkers :=
    checks.flip
  apply forall₂_trans _ states checked
  exact fun stated made => Checker.Checks.enforces made stated

/-! ## Functions of helpers -/

/-- Helpers are left alone when nested functions are transformed. -/
theorem leavesHelpers_unfinished
    {settings : Settings} {names : List String} {size fuel : Nat} {scopes : ScopeStack}
    {earliest latest : Work} :
    LeavesHelpers names (nestedExchange (transformFunction settings fuel scopes) earliest latest)
      (unfinished settings size (· ∈ names)) := by
  rintro name function other (known | fixed) unknown ⟨state, after, _, outcome, _⟩
  · exact (unknown (known.names name List.mem_cons_self)).elim
  · have inside : function ∈
        functionsOf (nodesOfDeclarators false [⟨name, some (.lambda function)⟩]) := by
      simp [nodesOfDeclarators, nodesOfOptional, Expression.nodes, Function.nodes_false]
    obtain ⟨last, same, _⟩ := fixed function inside fuel scopes state
    rw [same] at outcome
    cases outcome
    rfl

/-! ## Returns -/

/-- What is related when the functions in an expression are transformed. -/
def transforms (settings : Settings) : Exchange where
  name _ := True
  function source target :=
    ∃ fuel scopes work after, transformFunction settings fuel scopes source work =
      .ok (target, after)
  expression _ _ := False
  statement source target := source = target

theorem nestedExchange_within_transforms
    {settings : Settings} {fuel : Nat} {scopes : ScopeStack} {earliest latest : Work} :
    (nestedExchange (transformFunction settings fuel scopes) earliest latest).Within
      (transforms settings) where
  name := id
  function := by
    rintro source target ⟨state, after, _, outcome, _⟩
    exact ⟨fuel, scopes, state, after, outcome⟩
  expression := id
  statement := And.left

/--
What becomes of a return: its value is passed through the helpers of the
invariants that govern it, in order, and then through those of the
postconditions, and it is these helpers that are declared in the lists around
it.
-/
structure RoutesThrough (settings : Settings) (helper : Nat → Checker) (invariants posts : List Checker)
    (source : GovernedReturn Nat) (target : GovernedReturn Statement) : Prop where
  governing : (source.governors.map helper).Sublist invariants
  routed : ∃ given,
    (transforms settings).OnOptional source.argument given ∧
      target.argument = passed (source.governors.map helper ++ posts) given
  declared : target.governors.Perm
    ((source.governors.map helper ++ posts).map (·.declaration settings.tokens.result))

/-- Returns of a finished function pass through the helpers of what governs them. -/
theorem routesThrough_of_readings
    {settings : Settings} {names : List String} {fuel : Nat} {scopes : ScopeStack}
    {earliest latest : Work} {pass : Pass} {helper : Nat → Checker} {made : List Checker}
    {statements walked rest : List Statement}
    (sound : pass.Sound) (unknown : ∀ checker ∈ pass.postconditions, checker.name ∉ names)
    (count : countStated settings .invariant statements = made.length)
    (assigns : Assigns helper 0 made)
    (agrees : (readOutputAll names walked).Agrees
      (((readSourceAll settings 0 statements).map helper).handed settings.tokens.result))
    (exchanged : Reading.Exchanged
      (nestedExchange (transformFunction settings fuel scopes) earliest latest)
      (readOutputAll names walked) (readOutputAll names rest)) :
    List.Forall₂ (RoutesThrough settings helper made pass.postconditions)
      (readSourceAll settings 0 statements).returns
      (readOutputAll names (finish settings.tokens.result pass rest)).returns := by
  have among := (@among_readSourceAll settings 0 statements).map helper
  rw [map_positions count assigns] at among
  have handed : List.Forall₂
      (fun source target => GovernedReturn.Agrees target
        (((source : GovernedReturn Nat).map helper).handed settings.tokens.result))
      (readSourceAll settings 0 statements).returns (readOutputAll names walked).returns := by
    have flipped := agrees.returns.flip
    rwa [Reading.handed, Reading.map, List.forall₂_map_left_iff, List.forall₂_map_left_iff]
      at flipped
  have each : ∀ source ∈ (readSourceAll settings 0 statements).returns,
      (source.governors.map helper).Sublist made :=
    fun source member => among.returns _ (List.mem_map_of_mem member)
  rw [finish, readOutputAll_append, readOutputAll_prologue sound unknown,
    readOutputAll_applyPostconditions]
  simp only [Reading.follow, Reading.withArguments, List.map_nil, List.nil_append]
  rw [List.forall₂_map_right_iff, List.forall₂_map_right_iff]
  have both := (List.forall₂_and_left _ _).mpr ⟨each, handed⟩
  refine forall₂_trans (fun {source between target} one two => ?_) both exchanged.returns
  obtain ⟨governing, order, argument⟩ := one
  obtain ⟨same, related⟩ := two
  rw [argument] at related
  obtain ⟨given, inner, equal⟩ := exists_of_passed (onlyFunctions_nestedExchange _ _ _) _ related
  refine ⟨governing, ⟨given, inner.mono nestedExchange_within_transforms, ?_⟩, ?_⟩
  · rw [GovernedReturn.within, GovernedReturn.withArgument, equal, passed_append]
    rfl
  · rw [List.map_append]
    simp only [GovernedReturn.within, GovernedReturn.withArgument, List.append_nil, ← same]
    exact (order.append_left _).trans List.perm_append_comm

/-! ## All functions -/

/--
Every return of a function is routed through the helpers of what governs it,
and so are those of the functions nested in it, one by one.

The helpers enforce the invariants and the postconditions of the function, in
the order of the source.  They have names of their own, which the program does
not have.  Apart from returned values nothing refers to them but bare calls.
-/
inductive RoutesReturns (settings : Settings) (names : List String) : Function → Function → Prop where
  | block {source target : Function} {statements final : List Statement} {scopes : ScopeStack}
      {captured : OldBindings} {invariants posts : List Checker} {helper : Nat → Checker}
      (shape : source.body = .block statements)
      (finished : target = { source with body := .block final })
      (enforcesInvariants : List.Forall₂
        (Checker.Enforces (functionContext settings scopes source) .invariant captured)
        ((stated settings .invariant).ofStatements statements) invariants)
      (enforcesPosts : List.Forall₂
        (Checker.Enforces (functionContext settings scopes source) .postcondition captured)
        ((stated settings .postcondition).ofStatements statements) posts)
      (assigns : Assigns helper 0 invariants)
      (distinct : ((invariants ++ posts).map Checker.name).Nodup)
      (fresh : ∀ checker ∈ invariants ++ posts, checker.name ∉ "Error" :: names)
      (routes : List.Forall₂ (RoutesThrough settings helper invariants posts)
        (readSourceAll settings 0 statements).returns (readOutputAll names final).returns)
      (besides : (unwrapped (· ∈ "Error" :: names)).UnderAll omitted final)
      (inner : List.Forall₂ (RoutesReturns settings names)
        ((survivors settings (.function source.name) names).ofStatements statements)
        ((functions names).ofStatements final)) :
      RoutesReturns settings names source target
  | result {source target : Function} {expression final : Expression}
      (shape : source.body = .result expression)
      (finished : target = { source with body := .result final })
      (besides : final.Refers (· ∈ names))
      (inner : List.Forall₂ (RoutesReturns settings names)
        (functionsOf (expression.nodes false)) (functionsOf (final.nodes false))) :
      RoutesReturns settings names source target

section

variable {settings : Settings} {names : List String}

/-- A name that was handed out is neither known nor the name of the constructor of errors. -/
theorem HandedOut.fresh
    {earlier later : Work} {name : String} (out : HandedOut earlier later name)
    (known : earlier.Sound (· ∈ names)) : name ∉ "Error" :: names := by
  intro member
  rcases List.mem_cons.mp member with rfl | inNames
  · obtain ⟨rest, equal⟩ := out.offered.coined
    have letters := congrArg String.toList equal
    simp at letters
  · exact out.free (known.known inNames).1

/-- Known names stay known if there are more of them. -/
theorem Bounded.consError
    {size : Nat} {nodes : List Node} (bounded : Bounded size (· ∈ names) nodes) :
    Bounded size (· ∈ "Error" :: names) nodes :=
  ⟨bounded.size, fun node member name among =>
    List.mem_cons_of_mem _ (bounded.names node member name among)⟩

section

variable {fuel : Nat} {scopes : ScopeStack} {source : Function} {work earliest latest : Work}
  {pass : Pass} {statements walked rest : List Statement}
  (bounded : Bounded fuel (· ∈ names) (nodesOfStatements true statements))
  (walks : Walks (functionContext settings scopes source) (.list [] statements) work.start walked
    pass)

include bounded walks

/-- A walk wraps nothing but returned values, and its constants refer to known names. -/
theorem unwrapped_of_walks :
    (unwrapped (· ∈ "Error" :: names)).UnderAll omitted walked ∧
      pass.InitsRefer (· ∈ "Error" :: names) := by
  have refers := referring_of_bounded (Bounded.consError bounded)
  exact walks.unwrapped List.mem_cons_self (.inr absorbs_omitted)
    ⟨List.forall_mem_nil _, fun statement member =>
      .inl (Parts.OnStatements.omitting statements refers statement member)⟩
    (List.forall_mem_nil _)

/-- A finished function wraps nothing but returned values. -/
theorem unwrapped_of_finish
    {transform : Function → Transforming Function}
    (nested : (nestedExchange transform earliest latest).OnStatements walked rest)
    (parameter : String) :
    (unwrapped (· ∈ "Error" :: names)).UnderAll omitted (finish parameter pass rest) := by
  obtain ⟨besides, inits⟩ := unwrapped_of_walks bounded walks
  have only := onlyFunctions_nestedExchange transform earliest latest
  have related := onStatements_mapReturns only omitted (fun _ => .none) nested
  have after := Parts.underAll_iff.mpr (Parts.onStatements_of_exchange (carried_unwrapped only)
    related (Parts.underAll_iff.mp besides))
  rw [finish, Parts.underAll_append]
  exact ⟨unwrapped_prologue inits parameter,
    unwrapped_applyPostconditions pass.postconditions after⟩

/-- A finished function routes its returns if the functions nested in it do. -/
theorem routesReturns_of_finish
    {target : Function} (keeps : settings.stripsContracts = false)
    (shape : source.body = .block statements) (sound : work.Sound (· ∈ names))
    (passSound : pass.Sound)
    (nested : (nestedExchange (transformFunction settings fuel (scopes.push source.scope)) earliest
      latest).OnStatements walked rest)
    (finished :
      target = { source with body := .block (finish settings.tokens.result pass rest) })
    (inner : List.Forall₂ (RoutesReturns settings names)
      ((survivors settings (.function source.name) names).ofStatements statements)
      ((functions names).ofStatements (finish settings.tokens.result pass rest))) :
    RoutesReturns settings names source target := by
  have startSound : work.start.Sound := @Pass.sound_start work.entering sound.helpers
  have startKnown : work.start.work.Sound (· ∈ names) := sound.later work.precedes_start
  have place : (functionContext settings scopes source).place ≠ .topLevel := by
    simp [functionContext]
  have out : ∀ checker ∈ pass.postconditions,
      HandedOut work.start.work pass.work checker.name := by
    intro checker member
    rcases walks.precedes.checking checker member with absurd | out
    · cases absurd
    · exact out
  obtain ⟨made, helpers, routes⟩ := walks.governs place keeps startSound startKnown
    (.refl pass) (avoiding_of_unknown (fun _ member absurd => absurd member) bounded) trivial
  obtain ⟨helper, assigns⟩ := exists_assigns made
  have agrees := routes 0 helper assigns
  simp only [Stretch.output, Stretch.front, Stretch.reading, readOutputAll,
    Reading.withArguments_empty, Reading.empty_follow] at agrees
  have parts := walks.parts (@unfinished_admits settings _ _ _ pass) startSound (.refl pass)
    (Bounded.onStatements statements bounded)
  have exchanged := readOutputAll_of_exchange (onlyFunctions_nestedExchange _ _ _)
    leavesHelpers_unfinished nested parts
  have enforces := walks.enforced_postconditions place keeps rfl
  refine .block shape finished helpers.enforces enforces assigns ?_ ?_ ?_
    (unwrapped_of_finish bounded walks nested _) inner
  · rw [List.map_append]
    refine helpers.distinct.append passSound.distinct ?_
    intro name first second
    obtain ⟨one, inMade, rfl⟩ := List.mem_map.mp first
    obtain ⟨two, inPosts, equal⟩ := List.mem_map.mp second
    exact (helpers.wired one inMade).apart two inPosts equal
  · intro checker member
    rcases List.mem_append.mp member with inMade | inPosts
    · exact (helpers.out checker inMade).fresh startKnown
    · exact (out checker inPosts).fresh startKnown
  · exact routesThrough_of_readings passSound
      (fun checker member => List.not_mem_of_not_mem_cons ((out checker member).fresh startKnown))
      helpers.enforces.length_eq assigns agrees exchanged

end

/-- What a transformation makes of a function routes its returns. -/
theorem routesReturns_of_transformFunction (keeps : settings.stripsContracts = false) :
    ∀ (fuel : Nat) (scopes : ScopeStack) {source target : Function} {work after : Work},
      BoundedFunction fuel (· ∈ names) source → work.Sound (· ∈ names) →
        transformFunction settings fuel scopes source work = .ok (target, after) →
          RoutesReturns settings names source target := by
  intro fuel
  induction fuel with
  | zero =>
      intro scopes source target work after bounded
      have small := bounded.size
      rw [Function.nodes_true, functionsOf_cons_function, List.length_cons] at small
      omega
  | succ fuel induction =>
      intro scopes source target work after bounded sound outcome
      have body := bounded.body
      cases shape : source.body with
      | block statements =>
          rw [shape, FunctionBody.nodes] at body
          obtain ⟨walked, pass, rest, earliest, walks, passSound, known, later, nested, finished⟩ :=
            exists_rest_of_transformFunction shape sound outcome
          refine routesReturns_of_finish body walks keeps shape sound passSound nested finished ?_
          rw [finish, Collection.ofStatements_append, functions_prologue passSound known,
            functions_applyPostconditions, List.nil_append]
          have survive := walks.functions (sound.later work.precedes_start) trivial
          exact related_of_nested (induction _) later body survive nested
      | result expression =>
          rw [shape, FunctionBody.nodes] at body
          obtain ⟨final, transformed, rfl⟩ := (transformFunction_result shape).mp outcome
          obtain ⟨_, related⟩ :=
            nestedFunctions_onExpression (transformFunction_advances settings fuel _) transformed
          exact .result shape rfl
            (related.refers (fun _ _ absurd => absurd)
              (refers_of_bounded body expression.nodes_sublist))
            (related_of_nestedExpression (induction _) sound body related)

/--
The returns of every function of a program that survives a transformation
which keeps contracts are routed through the helpers of what governs them, at
every depth, and statements outside functions do not refer to helpers at all.
-/
theorem returns_routed
    {program output : Program} {summary : Summary} (keeps : settings.stripsContracts = false)
    (outcome : program.transform settings = .ok (output, summary)) :
    List.Forall₂ (RoutesReturns settings program.allNames)
        ((survivors settings .topLevel program.allNames).ofStatements program.statements)
        ((functions program.allNames).ofStatements output.statements) ∧
      (unwrapped (· ∈ "Error" :: program.allNames)).OnStatements output.statements := by
  obtain ⟨work, transformed, _⟩ := transform_eq_ok.mp outcome
  obtain ⟨walked, pass, walks, transformed⟩ := transformStatements_eq_ok.mp transformed
  have sound := Work.sound_ofProgram program
  have bounded := bounded_ofProgram program
  obtain ⟨_, nested⟩ :=
    nestedFunctions_onStatements (transformFunction_advances settings _ _) transformed
  constructor
  · exact related_of_nested (routesReturns_of_transformFunction keeps _ _)
      (sound.later walks.precedes.work) bounded (walks.functions sound trivial) nested
  · have source := Parts.underAll_id.mpr (referring_of_bounded (Bounded.consError bounded))
    obtain ⟨besides, _⟩ :
        (unwrapped (· ∈ "Error" :: program.allNames)).UnderAll id walked ∧
          pass.InitsRefer (· ∈ "Error" :: program.allNames) :=
      walks.unwrapped List.mem_cons_self (.inl rfl)
        ⟨List.forall_mem_nil _, fun statement member => .inl (source statement member)⟩
        (List.forall_mem_nil _)
    exact Parts.onStatements_of_exchange (carried_unwrapped (onlyFunctions_nestedExchange _ _ _))
      nested (Parts.underAll_id.mp besides)

/-- A function with an invariant around one of its returns and a postcondition for both. -/
def nestedReturns : Program :=
  ⟨[.declare
    ⟨some "pick", ["x"],
      .block
        [.labeled "post" (.evaluate (.identifier "it")),
          .branch (.identifier "x")
            (.block
              [.labeled "invariant" (.evaluate (.identifier "x")),
                .giveBack (some (.identifier "x"))])
            none,
          .giveBack none],
      false, false, false⟩]⟩

theorem returns_routed_of_nestedReturns :
    (Options.usual.resolve "test").stripsContracts = false ∧
      ∃ output summary,
        nestedReturns.transform (Options.usual.resolve "test") = .ok (output, summary) ∧
          List.Forall₂ (RoutesReturns (Options.usual.resolve "test") nestedReturns.allNames)
              ((survivors (Options.usual.resolve "test") .topLevel
                nestedReturns.allNames).ofStatements nestedReturns.statements)
              ((functions nestedReturns.allNames).ofStatements output.statements) ∧
            (unwrapped (· ∈ "Error" :: nestedReturns.allNames)).OnStatements
              output.statements := by
  refine ⟨rfl, ?_⟩
  cases outcome : nestedReturns.transform (Options.usual.resolve "test") with
  | error reason =>
      have accepted :
          (nestedReturns.transform (Options.usual.resolve "test")).toBool = true := by
        decide +kernel
      rw [outcome] at accepted
      cases accepted
  | ok done => exact ⟨done.1, done.2, rfl, returns_routed rfl outcome⟩

end

end Covenant.Contract
