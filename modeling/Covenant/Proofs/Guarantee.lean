import Mathlib
import Covenant.Proofs.Enforcement
import Covenant.Proofs.Ground
import Covenant.Proofs.Idempotence
import Covenant.Proofs.Session
import Covenant.Proofs.Survival

/-!
# Postconditions are guaranteed

Whenever a call of a transformed function has a result, the statements of the
function have been run without its postconditions, and if they ended with a
value, in whichever way, then every condition of every postcondition has been
found true of that value, in the order of the source, and the value is the
result.

The functions of a transformed program correspond one by one to those of the
program that survive, at every depth, and this holds of each of them.
-/

namespace Covenant.Contract

open Machine

/-! ## Names that stay free -/

section

variable {settings : Settings} {names : List String}

/-- Guards declare nothing. -/
theorem avoiding_guard {avoided : String → Prop} {guard : Statement}
    (plain : IsPlainGuard true guard) : (avoiding avoided).OnStatement guard := by
  obtain ⟨test, message, rfl, _, _⟩ := plain
  simp [guardClause, Parts.OnStatement, Parts.OnStatements, Parts.OnAlternate, avoiding]

/-- A walk declares no names but those of the checkers that it wires in. -/
theorem admits_avoiding_of_wired
    {avoided : String → Prop} (parameter : String) {last : Pass}
    (apart : ∀ checker, Wired last checker → ¬ avoided checker.name) :
    Admits (avoiding avoided) parameter last where
  guard := avoiding_guard
  routes := fun {checker} _ => avoiding_routes _ checker
  declaration := by
    intro checker wired
    rw [Checker.declaration, Parts.OnStatement]
    intro name declares
    have named : name = checker.name := by simpa [namesOfDeclarators] using declares
    rw [named]
    exact apart checker wired

/-- A walk declares no names of postconditions. -/
theorem admits_avoiding (parameter : String) (last : Pass) :
    Admits (avoiding (· ∈ last.postconditions.map Checker.name)) parameter last := by
  apply admits_avoiding_of_wired
  intro checker wired member
  rcases List.mem_map.mp member with ⟨other, among, equal⟩
  exact wired.apart other among equal

/-- A source declares no names that it does not know. -/
theorem avoiding_of_unknown
    {size : Nat} {avoided : String → Prop} (unknown : ∀ name ∈ names, ¬ avoided name)
    {statements : List Statement}
    (bounded : Bounded size (· ∈ names) (nodesOfStatements true statements)) :
    (avoiding avoided).OnStatements statements := by
  have parts : (Parts.within (Bounded size (· ∈ names)) (· ∈ names)).OnStatements statements :=
    (Bounded.inherited size (· ∈ names)).withinStatements statements bounded
  refine Parts.OnStatements.imp ⟨fun _ => trivial, ?_, ?_⟩ statements parts
  · intro function inner name named
    refine unknown name (inner.names (.function function) ?_ name ?_)
    · rw [Function.nodes_true]
      exact List.mem_cons_self
    · exact List.mem_append_left _ (Option.mem_toList.mpr named)
  · exact fun given name member => unknown name (given.2 name member)

/-- A source declares no names of postconditions, as these are not known to it. -/
theorem avoiding_of_bounded
    {size : Nat} {pass : Pass} (sound : pass.Sound) (known : pass.work.Sound (· ∈ names))
    {statements : List Statement}
    (bounded : Bounded size (· ∈ names) (nodesOfStatements true statements)) :
    (avoiding (· ∈ pass.postconditions.map Checker.name)).OnStatements statements := by
  refine avoiding_of_unknown (fun name inNames member => ?_) bounded
  obtain ⟨checker, among, rfl⟩ := List.mem_map.mp member
  exact (known.known inNames).2 (sound.checkers checker among).1

/-- Transforming functions leaves the names of what is declared. -/
theorem carried_avoiding
    {transform : Function → Transforming Function} {earliest latest : Work}
    (keepsName : ∀ {source target : Function} {work after : Work},
      transform source work = .ok (target, after) → target.name = source.name)
    (avoided : String → Prop) :
    Parts.Carried (nestedExchange transform earliest latest) (avoiding avoided)
      (avoiding avoided) where
  expression := fun _ _ => trivial
  function := by
    rintro source target ⟨state, after, _, outcome, _⟩ avoids
    intro name named
    rw [keepsName outcome] at named
    exact avoids name named
  declared := by
    intro source target related avoids name member
    rw [← related.names] at member
    exact avoids name member
  statement := fun given holds => given.1 ▸ holds

theorem name_of_transformFunction
    {fuel : Nat} {scopes : ScopeStack} {source target : Function} {work after : Work}
    (outcome : transformFunction settings fuel scopes source work = .ok (target, after)) :
    target.name = source.name := by
  cases fuel with
  | zero =>
      obtain ⟨rfl, _⟩ := step_pure_eq_ok.mp outcome
      rfl
  | succ fuel =>
      cases shape : source.body with
      | block statements =>
          obtain ⟨_, _, _, _, _, rfl⟩ := (transformFunction_block shape).mp outcome
          rfl
      | result expression =>
          obtain ⟨_, _, rfl⟩ := (transformFunction_result shape).mp outcome
          rfl

end

/-! ## One function -/

/--
Whenever a call of a function has a result, some statements have been run in
its place; the result is the value with which they ended; and then conditions
have been checked of that value.
-/
def Upholds (parameter : String) (function : Function) (ground : List Statement)
    (found : List (List Condition)) : Prop :=
  ∀ {fuel : Nat} {address : ClosureAddress} {closure : Closure} {receiver : Value}
    {arguments : List Value} {machine after : Machine} {result : Value},
    machine.store.WellScoped → machine.store.closure? address = some closure →
      closure.function = function →
        call fuel (.closure address) receiver arguments machine = .ok result after →
          ∃ less completion between final,
            executeAll less (⟨machine.store.frames.size⟩ :: closure.scope) ground
                (machine.beginCall (callFrame function receiver arguments)) =
              .ok completion between ∧
              result = completion.result ∧
                Exits
                  (fun value => CheckedInTurn parameter
                    (⟨machine.store.frames.size⟩ :: closure.scope) value (testsOf found))
                  completion between final ∧
                  after = final.endCall

/-- The helpers of postconditions are among all helpers. -/
theorem Pass.Sound.helperNames {pass : Pass} (sound : pass.Sound) :
    pass.postconditions.map Checker.name ⊆ pass.work.helperNames := by
  intro name member
  obtain ⟨checker, among, rfl⟩ := List.mem_map.mp member
  exact (sound.checkers checker among).1

/-- Captured values are declared under other names than helpers. -/
theorem Pass.Sound.avoiding_captured {pass : Pass} (sound : pass.Sound) :
    (avoiding (· ∈ pass.work.helperNames)).OnStatements pass.captured.declarations := by
  refine Parts.onStatements_iff.mpr fun statement member => ?_
  obtain ⟨binding, among, rfl⟩ := List.mem_map.mp member
  rw [Parts.OnStatement]
  intro name declares helper
  have named : name = binding.name := by simpa [namesOfDeclarators] using declares
  exact (sound.captured binding among).2.1 (named ▸ helper)

theorem declaresVariables_captured (captured : OldBindings) :
    DeclaresVariables captured.declarations := by
  intro statement member
  obtain ⟨binding, _, rfl⟩ := List.mem_map.mp member
  exact ⟨_, _, rfl⟩

/-- A finished function upholds its postconditions. -/
theorem upholds_of_finish
    {parameter : String} {pass : Pass} {function : Function} {statements : List Statement}
    {found : List (List Condition)}
    (shape : function.body = .block (finish parameter pass statements)) (sound : pass.Sound)
    (checks : List.Forall₂ Checker.Checks pass.postconditions found)
    (avoids : (avoiding (· ∈ pass.postconditions.map Checker.name)).OnStatements statements) :
    Upholds parameter function (prologue parameter pass ++ statements) found := by
  intro fuel address closure receiver arguments machine after result wellScoped known same outcome
  cases fuel with
  | zero => cases outcome
  | succ fuel =>
      rw [call_closure_of_some known, enterClosure_eq_ok, same] at outcome
      obtain ⟨_, _, final, ran, rfl⟩ := outcome
      rw [shape, runBody] at ran
      obtain ⟨completion, last, executed, ends⟩ := Action.bind_eq_ok.mp ran
      cases ends
      have constants : (avoiding (· ∈ pass.postconditions.map Checker.name)).OnStatements
          pass.captured.declarations :=
        Parts.OnStatements.imp (avoiding_within fun _ member => sound.helperNames member) _
          sound.avoiding_captured
      have entered : (machine.beginCall (callFrame function receiver arguments)).store.WellScoped :=
        scoping.addFrame _ wellScoped
      obtain ⟨between, own, exits⟩ := exits_of_executeAll checks sound.distinct
        (declaresVariables_captured pass.captured)
        (Parts.onStatements_append.mpr ⟨constants, avoids⟩) entered
        (Store.Sees.enter (wellScoped _ _ known) _) executed
      exact ⟨fuel, completion, between, _, own, rfl, exits, rfl⟩

/-! ## All functions -/

/--
A function of a transformed program upholds the postconditions of a function
of the program, and so do the functions nested in them, one by one.

A function with a block is finished with the checkers of a walk over its
statements, from what the walk leaves of them once nested functions are
transformed; and calls of it run what is under the routing, and then check the
conditions that the postconditions of the source state.
-/
inductive Upheld (settings : Settings) (names : List String) : Function → Function → Prop where
  | block {source target : Function} {statements walked rest : List Statement}
      {scopes : ScopeStack} {work earliest latest : Work} {pass : Pass}
      {transform : Function → Transforming Function} {found : List (List Condition)}
      (shape : source.body = .block statements)
      (walks : walkBlock (functionContext settings scopes source) [] statements work.start =
        .ok (walked, pass))
      (nested : (nestedExchange transform earliest latest).OnStatements walked rest)
      (finished :
        target = { source with body := .block (finish settings.tokens.result pass rest) })
      (states : List.Forall₂ (States (functionContext settings scopes source) pass.captured)
        ((postconditions settings).ofStatements statements) found)
      (upholds : Upholds settings.tokens.result target
        (prologue settings.tokens.result pass ++ rest) found)
      (inner : List.Forall₂ (Upheld settings names)
        ((survivors settings (.function source.name) names).ofStatements statements)
        ((functions names).ofStatements (finish settings.tokens.result pass rest))) :
      Upheld settings names source target
  | result {source target : Function} {expression final : Expression}
      (shape : source.body = .result expression)
      (finished : target = { source with body := .result final })
      (inner : List.Forall₂ (Upheld settings names)
        (functionsOf (expression.nodes false)) (functionsOf (final.nodes false))) :
      Upheld settings names source target

section

variable {settings : Settings} {names : List String}

/-- The functions in bounded statements are bounded. -/
theorem functions_meet (size : Nat) :
    (functions names).Meets
      (Parts.known (BoundedFunction size (· ∈ names)) (· ∈ names) fun _ => False)
      (BoundedFunction size (· ∈ names)) where
  expression holds := holds
  function holds function member := by
    rw [List.mem_singleton.mp member]
    exact holds
  declared holds function member := by
    rcases holds with introduced | absurd
    · simp only [functions] at member
      split at member
      · exact introduced.functions function member
      · cases member
    · exact absurd.elim
  labeled _ absurd := by cases absurd

/-- The functions that survive in bounded statements are bounded. -/
theorem survivors_meet (settings : Settings) (place : Place) (size : Nat) :
    (survivors settings place names).Meets
      (Parts.known (BoundedFunction size (· ∈ names)) (· ∈ names) fun _ => False)
      (BoundedFunction size (· ∈ names)) where
  expression := (functions_meet size).expression
  function := (functions_meet size).function
  declared := (functions_meet size).declared
  labeled {label body whole} holds given := by
    intro function member
    simp only [survivors] at given
    split at given
    · cases given
      split at member
      · exact Collection.forall_ofStatement (functions_meet size) body holds function member
      · cases member
    · split at given
      · cases given
        cases member
      · cases given
    · cases given

/-- Functions that survive are related one by one to what becomes of them. -/
theorem related_of_nested
    {related : Function → Function → Prop}
    {fuel : Nat} {scopes : ScopeStack} {place : Place} {earliest latest : Work}
    {statements walked rest : List Statement}
    (transforms : ∀ {source target : Function} {work after : Work},
      BoundedFunction fuel (· ∈ names) source → work.Sound (· ∈ names) →
        transformFunction settings fuel scopes source work = .ok (target, after) →
          related source target)
    (sound : earliest.Sound (· ∈ names))
    (bounded : Bounded fuel (· ∈ names) (nodesOfStatements true statements))
    (survive : (functions names).ofStatements walked =
      (survivors settings place names).ofStatements statements)
    (nested : (nestedExchange (transformFunction settings fuel scopes) earliest
      latest).OnStatements walked rest) :
    List.Forall₂ related
      ((survivors settings place names).ofStatements statements)
      ((functions names).ofStatements rest) := by
  have pairs := Collection.forall₂_ofStatements
    (functions_carried sound fun _ _ given => given) nested
  rw [survive] at pairs
  have each := Collection.forall_ofStatements (survivors_meet settings place fuel) statements
    (Bounded.onStatements statements bounded)
  refine ((List.forall₂_and_left _ _).mpr ⟨each, pairs⟩).imp ?_
  rintro source target ⟨small, state, after, early, outcome, _⟩
  exact transforms small (sound.later early) outcome

/-- Functions in an expression are related one by one to what becomes of them. -/
theorem related_of_nestedExpression
    {related : Function → Function → Prop} {fuel : Nat} {scopes : ScopeStack}
    {earliest latest : Work} {expression final : Expression}
    (transforms : ∀ {source target : Function} {work after : Work},
      BoundedFunction fuel (· ∈ names) source → work.Sound (· ∈ names) →
        transformFunction settings fuel scopes source work = .ok (target, after) →
          related source target)
    (sound : earliest.Sound (· ∈ names))
    (bounded : Bounded fuel (· ∈ names) (expression.nodes true))
    (nested : (nestedExchange (transformFunction settings fuel scopes) earliest
      latest).OnExpression expression final) :
    List.Forall₂ related (functionsOf (expression.nodes false))
      (functionsOf (final.nodes false)) := by
  have pairs := nested.functions fun _ _ absurd => absurd
  have each := bounded.function expression.contains
  refine ((List.forall₂_and_left _ _).mpr ⟨each, pairs⟩).imp ?_
  rintro source target ⟨small, state, after, early, outcome, _⟩
  exact transforms small (sound.later early) outcome

/-- What a transformation makes of a function upholds its postconditions. -/
theorem upheld_of_transformFunction (checks : settings.stripsContracts = false) :
    ∀ (fuel : Nat) (scopes : ScopeStack) {source target : Function} {work after : Work},
      BoundedFunction fuel (· ∈ names) source → work.Sound (· ∈ names) →
        transformFunction settings fuel scopes source work = .ok (target, after) →
          Upheld settings names source target := by
  intro fuel
  induction fuel with
  | zero =>
      intro scopes source target work after bounded
      have small := bounded.size
      rw [Function.nodes_true, functionsOf_cons_function, List.length_cons] at small
      omega
  | succ fuel induction =>
      intro scopes source target work after bounded sound outcome
      have body := bounded.body
      cases shape : source.body with
      | block statements =>
          rw [shape, FunctionBody.nodes] at body
          obtain ⟨walked, pass, rest, earliest, walks, passSound, known, later, nested, rfl⟩ :=
            exists_rest_of_transformFunction shape sound outcome
          obtain ⟨checkers, found, made, pairs, states⟩ :=
            (walks.postconditions (by simp [functionContext]) checks (.refl pass) trivial).made
          cases made
          have walkedAvoids := walks.parts (admits_avoiding settings.tokens.result pass)
            (@Pass.sound_start work.entering sound.helpers) (.refl pass)
            (avoiding_of_bounded passSound known body)
          have restAvoids := Parts.onStatements_of_exchange
            (carried_avoiding name_of_transformFunction _) nested walkedAvoids
          refine .block shape (walks_list_iff.mp walks) nested rfl states
            (upholds_of_finish rfl passSound pairs restAvoids) ?_
          rw [finish, Collection.ofStatements_append, functions_prologue passSound known,
            functions_applyPostconditions, List.nil_append]
          have survive := walks.functions (sound.later work.precedes_start) trivial
          exact related_of_nested (induction _) later body survive nested
      | result expression =>
          rw [shape, FunctionBody.nodes] at body
          obtain ⟨final, transformed, rfl⟩ := (transformFunction_result shape).mp outcome
          obtain ⟨_, related⟩ :=
            nestedFunctions_onExpression (transformFunction_advances settings fuel _) transformed
          exact .result shape rfl (related_of_nestedExpression (induction _) sound body related)

/--
Every function of a program that survives a transformation which keeps
contracts has its postconditions upheld, at every depth.
-/
theorem postconditions_upheld
    {program output : Program} {summary : Summary}
    (checks : settings.stripsContracts = false)
    (outcome : program.transform settings = .ok (output, summary)) :
    List.Forall₂ (Upheld settings program.allNames)
      ((survivors settings .topLevel program.allNames).ofStatements program.statements)
      ((functions program.allNames).ofStatements output.statements) := by
  obtain ⟨work, transformed, _⟩ := transform_eq_ok.mp outcome
  obtain ⟨walked, pass, walks, passed⟩ := transformStatements_eq_ok.mp transformed
  have sound := Work.sound_ofProgram program
  obtain ⟨_, nested⟩ :=
    nestedFunctions_onStatements (transformFunction_advances settings _ _) passed
  exact related_of_nested (upheld_of_transformFunction checks _ _)
    (sound.later walks.precedes.work) (bounded_ofProgram program)
    (walks.functions sound trivial) nested

theorem postconditions_upheld_of_checkedIdentity :
    (Options.usual.resolve "test").stripsContracts = false ∧
      ∃ output summary,
        checkedIdentity.transform (Options.usual.resolve "test") = .ok (output, summary) ∧
          List.Forall₂ (Upheld (Options.usual.resolve "test") checkedIdentity.allNames)
            ((survivors (Options.usual.resolve "test") .topLevel
              checkedIdentity.allNames).ofStatements checkedIdentity.statements)
            ((functions checkedIdentity.allNames).ofStatements output.statements) := by
  refine ⟨rfl, ?_⟩
  cases outcome : checkedIdentity.transform (Options.usual.resolve "test") with
  | error reason =>
      have accepted :
          (checkedIdentity.transform (Options.usual.resolve "test")).toBool = true := by
        cbv
      rw [outcome] at accepted
      cases accepted
  | ok done => exact ⟨done.1, done.2, rfl, postconditions_upheld rfl outcome⟩

end

end Covenant.Contract
