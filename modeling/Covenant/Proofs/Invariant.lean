import Covenant.Proofs.Vigil
import Covenant.Proofs.Wiring

/-!
# Invariants are checked

Whenever a list of statements is entered that an invariant stands in, the
conditions of the invariant are checked before anything else of the list is
executed.  They are checked again where control reaches the end of the list and
where it leaves the list by a return, from whatever depth.  A list that control
leaves by a jump is left without a check.

The functions of a transformed program correspond one by one to those of the
program that survive, and this holds of each of them.
-/

namespace Covenant.Contract

open Machine

/-! ## Helpers by their declarations -/

/-- A declaration tells the name of its helper. -/
theorem name_of_declaration {parameter : String} {one other : Checker}
    (equal : one.declaration parameter = other.declaration parameter) : one.name = other.name := by
  injection equal with _ declarators
  injection declarators with declarator
  injection declarator

section

variable {names : List String} {whole : List (List Checker)}

/-- Helpers of the same name stand in the same group. -/
theorem Roster.eq_of_name (roster : Roster names whole) {first second : List Checker}
    (inFirst : first ∈ whole) (inSecond : second ∈ whole) {one other : Checker}
    (member : one ∈ first) (among : other ∈ second) (same : one.name = other.name) :
    first = second := by
  have distinct := roster.distinct
  rw [List.map_flatten, List.nodup_flatten, List.pairwise_map] at distinct
  by_contra different
  have symmetric : Std.Symm fun left right : List Checker =>
      (left.map Checker.name).Disjoint (right.map Checker.name) :=
    ⟨fun _ _ apart => apart.symm⟩
  have apart := distinct.2.forall inFirst inSecond different
  exact apart (List.mem_map_of_mem member) (same ▸ List.mem_map_of_mem among)

variable {parameter : String} {base : List Watch} {address : FrameAddress} {outer : Scope}
  {own force last : List Checker} {watches : List Watch} {made : List (List Checker)}
  {before inner exits : List Statement} {machine : Machine}

/-- A list that declares a helper of a group brings the group. -/
theorem ListWatched.eq_of_declaration (roster : Roster names whole)
    (runs : ListWatched parameter names whole base address outer before own inner exits force last
      watches made machine)
    {group : List Checker} {checker : Checker} (among : group ∈ whole) (member : checker ∈ group)
    (declared : checker.declaration parameter ∈ bringing parameter before own inner exits) :
    group = own := by
  have inWhole : checker ∈ whole.flatten := List.mem_flatten_of_mem among member
  rw [bringing, List.mem_append, List.mem_append, List.mem_append] at declared
  rcases declared with early | (entry | inside) | exit
  · exact (runs.foreign checker inWhole early).elim
  · obtain ⟨other, inOwn, equal⟩ := List.mem_flatMap.mp entry
    rw [List.mem_reverse] at inOwn
    simp only [Checker.entry, List.mem_cons, List.not_mem_nil, or_false] at equal
    rcases equal with equal | equal
    · refine roster.eq_of_name among ?_ member inOwn (name_of_declaration equal)
      have brought : own ∈ grouped own := by
        cases own with
        | nil => cases inOwn
        | cons => exact List.mem_singleton_self _
      exact runs.within (List.mem_append_left _ brought)
    · cases equal
  · obtain ⟨_, _, watched⟩ := runs.each.mem _ inside
    cases watched with
    | leaf _ _ known =>
        rw [Checker.declaration, Parts.OnStatement] at known
        exact (known checker.name List.mem_cons_self (roster.unknown checker inWhole)).elim
  · rcases runs.ends with rfl | ⟨rfl, _⟩
    · obtain ⟨other, _, equal⟩ := List.mem_map.mp exit
      cases equal
    · cases exit

end

/-! ## One function -/

/--
Wherever the statements of a function run a list that declares a helper of some
group, the list brings the helpers of the group and keeps their watch.
-/
def KeepsInvariants (parameter : String) (function : Function) (made : List (List Checker)) :
    Prop :=
  ∀ ⦃fuel less : Nat⦄ ⦃address : ClosureAddress⦄ ⦃closure : Closure⦄ ⦃receiver : Value⦄
    ⦃arguments : List Value⦄ ⦃machine start : Machine⦄ ⦃scope : Scope⦄
    ⦃statements : List Statement⦄ ⦃own : List Checker⦄ ⦃checker : Checker⦄
    ⦃found : List (List Condition)⦄,
    machine.store.WellScoped → machine.store.closure? address = some closure →
      closure.function = function →
        PerformsOwn (less + 1) (.executeAll scope statements) start fuel
            (.call (.closure address) receiver arguments) machine →
          own ∈ made → checker ∈ own → checker.declaration parameter ∈ statements →
            List.Forall₂ Checker.Checks own found →
              ∃ frame outer before inner exits,
                scope = frame :: outer ∧ statements = bringing parameter before own inner exits ∧
                  DeclaresVariables before ∧
                    KeepsWatch parameter found less frame outer before own inner exits start

section

variable {parameter : String} {names : List String} {made : List (List Checker)}
  {posts : List Checker} {constants body : List Statement} {found : List (List Condition)}

/-- The statements of a function are run under watch once its postconditions are declared. -/
theorem underWatch_of_entered (checks : List.Forall₂ Checker.Checks posts found)
    (distinct : (posts.map Checker.name).Nodup) (unknown : ∀ checker ∈ posts, checker.name ∉ names)
    (declares : DeclaresVariables constants)
    (avoids : (avoiding (· ∈ posts.map Checker.name)).OnStatements constants)
    (foreign : ∀ checker ∈ made.flatten,
      checker.declaration parameter ∉ posts.map (·.declaration parameter) ++ constants)
    (watched : WatchedList parameter names posts posts made body) {address : FrameAddress}
    {outer : Scope} {machine : Machine} (wellScoped : machine.store.WellScoped)
    (sees : machine.store.Sees (address :: outer)) :
    UnderWatch parameter names made []
      (.executeAll (address :: outer) (posts.map (·.declaration parameter) ++ constants ++ body))
      machine := by
  cases watched with
  | @intro _ _ own made inner exits namesOwn apart each ends =>
      refine ⟨address, outer, posts.map (·.declaration parameter) ++ constants, own, inner, exits,
        posts, posts, watchesIn (address :: outer) found, made, rfl, rfl, ?_, foreign, namesOwn,
        apart, each, ends, List.Subset.refl _, ?_⟩
      · intro statement member
        rcases List.mem_append.mp member with declared | constant
        · obtain ⟨checker, _, rfl⟩ := List.mem_map.mp declared
          exact ⟨_, _, rfl⟩
        · exact declares statement constant
      · intro fuel hoisted ready hoists prepared
        have entered : Posted parameter names [] (address :: outer) machine.store [] [] :=
          ⟨wellScoped, sees, .nil, List.forall_mem_nil _, List.nil_subset _⟩
        have begun := entered.after (fun _ may => Regime.keeps_hoist
          (Regime.permits_all (fun name => may name List.not_mem_nil) _)) hoists
        obtain ⟨declared, first, rest⟩ := inTurn_append_eq_finished.mp prepared
        have inReach := reaches_of_declarations distinct begun.wellScoped begun.sees first
        have after := begun.after (fun regime may => Regime.keeps_inTurn _ fun statement _ =>
          (preserves regime fuel).execute _ none statement (Parts.onStatements_singleton.mp
            (Regime.permits_all (fun name => may name List.not_mem_nil) [statement]))) first
        have posted : Posted parameter names [] (address :: outer) declared.store posts
            (watchesIn (address :: outer) found) :=
          ⟨after.wellScoped, after.sees, attend_of_reaches checks inReach, unknown,
            List.nil_subset _⟩
        exact posted.after_inTurn avoids rest

/-- A function whose statements are watched keeps its invariants. -/
theorem keepsInvariants_of_watchedList {function : Function}
    (shape : function.body =
      .block (posts.map (·.declaration parameter) ++ constants ++ body))
    (roster : Roster names made) (checks : List.Forall₂ Checker.Checks posts found)
    (distinct : (posts.map Checker.name).Nodup) (unknown : ∀ checker ∈ posts, checker.name ∉ names)
    (declares : DeclaresVariables constants)
    (avoids : (avoiding (· ∈ posts.map Checker.name)).OnStatements constants)
    (foreign : ∀ checker ∈ made.flatten,
      checker.declaration parameter ∉ posts.map (·.declaration parameter) ++ constants)
    (watched : WatchedList parameter names posts posts made body) :
    KeepsInvariants parameter function made := by
  intro fuel less address closure receiver arguments machine start scope statements own checker
    conditions wellScoped known same performs among member declared checked
  cases performs with
  | part part runs performs =>
      cases part with
      | answered => cases runs
      | @entered _ found _ _ statements _ here _ _ body =>
          rw [known] at here
          cases here
          rw [same, shape] at body
          cases body
          have inOrder : (machine.beginCall
              (callFrame closure.function receiver arguments)).store.WellScoped :=
            scoping.addFrame _ wellScoped
          have entered := underWatch_of_entered checks distinct unknown declares avoids foreign
            watched inOrder (Store.Sees.enter (wellScoped _ _ known) _)
          obtain ⟨frame, outer, before, brought, inner, exits, force, last, watches, rest, rfl, rfl,
            runs⟩ := entered.performs roster performs
          obtain rfl := runs.eq_of_declaration roster among member declared
          exact ⟨frame, outer, before, inner, exits, rfl, rfl, runs.declares,
            runs.keepsWatch checked roster⟩

end

/-! ## Finished functions -/

section

variable {parameter : String} {names : List String} {made : List (List Checker)}
  {posts : List Checker} {statements : List Statement}

theorem endsInReturn_routedThrough (checkers : List Checker) : ∀ statements : List Statement,
    endsInReturn (routedThrough checkers statements) = endsInReturn statements := by
  induction checkers with
  | nil => exact fun _ => rfl
  | cons checker rest induction =>
      exact fun statements => (induction _).trans (endsInReturn_routeAll checker statements)

theorem ne_nil_of_endsInReturn (ends : endsInReturn statements = true) : statements ≠ [] := by
  rintro rfl
  cases ends

/-- A watched list is watched by postconditions, and ends in their checks, once they are applied. -/
theorem WatchedList.finished
    (apart : ∀ other ∈ made.flatten, ∀ checker ∈ posts, other.name ≠ checker.name)
    (watched : WatchedList parameter names [] [] made statements) :
    WatchedList parameter names posts posts made (posts.foldl applyPostcondition statements) := by
  cases watched with
  | @intro _ _ own made inner exits distinct fresh each ends =>
      rw [List.flatten_append, flatten_grouped, List.forall_mem_append] at apart
      have routed := each.routedThrough apart.2
      rw [List.append_nil] at routed ends
      have watched := routed.perm List.perm_append_comm
      have kept : routedThrough posts exits = exits := by
        rcases ends with rfl | ⟨rfl, _⟩
        · exact routedThrough_checksOf posts own
        · exact routedThrough_nil posts
      have foreign : ∀ checker ∈ own,
          checker.name ∉ names ∧ checker.name ∉ posts.map Checker.name := by
        intro checker member
        refine ⟨(fresh checker member).1, fun taken => ?_⟩
        obtain ⟨other, among, same⟩ := List.mem_map.mp taken
        exact apart.1 checker member other among same.symm
      rw [applyPostconditions_eq, routedThrough_append, routedThrough_append,
        routedThrough_entriesOf, kept, List.append_assoc _ exits, exitChecks]
      refine .intro distinct foreign watched ?_
      rw [endsInReturn_routedThrough]
      split
      case isFalse falls =>
        rcases ends with rfl | ⟨rfl, ends⟩
        · left
          rw [checksOf, checksOf, checksOf, List.map_append]
        · rw [List.append_nil, endsInReturn_append _ (ne_nil_of_endsInReturn ends)] at falls
          exact (falls ends).elim
      case isTrue returns =>
        rcases ends with rfl | ⟨rfl, ends⟩
        · cases own with
          | nil => exact .inr ⟨rfl, by simpa [entriesOf, checksOf] using returns⟩
          | cons =>
              rw [endsInReturn_checksOf _ (List.cons_ne_nil _ _)] at returns
              cases returns
        · exact .inr ⟨rfl, ends⟩

end

/-- A condition is plain if its clause is a plain guard. -/
theorem Condition.isPlain_of_clause {condition : Condition} {site : Site}
    (plain : IsPlainGuard true (condition.clause site)) : condition.isPlain none true = true := by
  obtain ⟨test, message, equal, testPlain, messagePlain⟩ := plain
  have written : guardClause condition.test (condition.message site) = guardClause test message :=
    equal
  simp only [guardClause, Statement.branch.injEq, Expression.unary.injEq, true_and,
    Statement.block.injEq, List.cons.injEq, Statement.raise.injEq, Expression.construct.injEq,
    and_true] at written
  obtain ⟨rfl, rfl⟩ := written
  rw [Condition.isPlain, testPlain, Bool.true_and]
  cases given : condition.message? with
  | none => rfl
  | some own =>
      rw [Condition.message, given] at messagePlain
      exact messagePlain

/-- What enforces an invariant by plain guards checks conditions. -/
theorem Checker.Enforces.checks {context : Context} {kind : Kind} {captured : OldBindings}
    {body : Statement} {checker : Checker} (enforces : checker.Enforces context kind captured body)
    (plain : ∀ guard ∈ checker.guards, IsPlainGuard true guard) :
    ∃ found, checker.Checks found := by
  obtain ⟨_, found, _, _, guards⟩ := enforces
  refine ⟨found, ⟨_, guards⟩, fun condition member => ?_⟩
  exact Condition.isPlain_of_clause (plain _ (guards ▸ List.mem_map_of_mem member))

/-- The helpers that a walk makes for invariants can be told from each other and from a source. -/
theorem MadeInGroups.roster {context : Context} {names : List String} {last pass after : Pass}
    {bodies : List (List Statement)} {made : List (List Checker)}
    (makes : MadeInGroups context last pass after bodies made)
    (known : pass.work.Sound (· ∈ names)) : Roster names made where
  unknown checker member inNames := (makes.out checker member).free (known.known inNames).1
  distinct := makes.distinct
  checks checker member := by
    obtain ⟨group, among, inGroup⟩ := List.mem_flatten.mp member
    obtain ⟨_, _, enforces⟩ := exists_mem_of_forall₂ makes.enforces group among
    obtain ⟨_, _, enforces⟩ := exists_mem_of_forall₂ enforces checker inGroup
    exact enforces.checks (makes.wired checker member).plain

/-! ## All functions -/

/--
A function of a transformed program keeps the invariants of a function of the
program, and so do the functions nested in them, one by one.

The helpers of a function with a block are those of the invariants of the
source, in groups for the lists that these stand in.  The statements behind the
prologue bring them, list by list, and calls of the function run every such
list under the watch of its own group.
-/
inductive Guarded (settings : Settings) (names : List String) : Function → Function → Prop where
  | block {source target : Function} {statements rest : List Statement} {scopes : ScopeStack}
      {pass : Pass} {made : List (List Checker)}
      (shape : source.body = .block statements)
      (finished :
        target = { source with body := .block (finish settings.tokens.result pass rest) })
      (enforces : List.Forall₂
        (List.Forall₂
          (Checker.Enforces (functionContext settings scopes source) .invariant pass.captured))
        (grouped (standingInAll settings statements) ++ groupsInAll settings statements) made)
      (wired : WatchedList settings.tokens.result names pass.postconditions pass.postconditions
        made (pass.postconditions.foldl applyPostcondition rest))
      (keeps : KeepsInvariants settings.tokens.result target made)
      (inner : List.Forall₂ (Guarded settings names)
        ((survivors settings (.function source.name) names).ofStatements statements)
        ((functions names).ofStatements (finish settings.tokens.result pass rest))) :
      Guarded settings names source target
  | result {source target : Function} {expression final : Expression}
      (shape : source.body = .result expression)
      (finished : target = { source with body := .result final })
      (inner : List.Forall₂ (Guarded settings names)
        (functionsOf (expression.nodes false)) (functionsOf (final.nodes false))) :
      Guarded settings names source target

section

variable {settings : Settings} {names : List String}

section

variable {fuel : Nat} {scopes : ScopeStack} {source : Function} {work earliest latest : Work}
  {pass : Pass} {statements walked rest : List Statement}
  (bounded : Bounded fuel (· ∈ names) (nodesOfStatements true statements))
  (keeps : settings.stripsContracts = false) (sound : work.Sound (· ∈ names))
  (walks : Walks (functionContext settings scopes source) (.list [] statements) work.start walked
    pass)

include bounded keeps sound walks

/-- The statements of a finished function are watched, by helpers that a walk has made. -/
theorem exists_wired_of_walks
    (nested : (nestedExchange (transformFunction settings fuel (scopes.push source.scope)) earliest
      latest).OnStatements walked rest) :
    ∃ made,
      MadeInGroups (functionContext settings scopes source) pass work.start pass
          (grouped (standingInAll settings statements) ++ groupsInAll settings statements) made ∧
        WatchedList settings.tokens.result names pass.postconditions pass.postconditions made
          (pass.postconditions.foldl applyPostcondition rest) := by
  have startSound : work.start.Sound := @Pass.sound_start work.entering sound.helpers
  have startKnown : work.start.work.Sound (· ∈ names) := sound.later work.precedes_start
  have place : (functionContext settings scopes source).place ≠ .topLevel := by
    simp [functionContext]
  have nothing : Taken work.start [] := List.forall_mem_nil _
  have known : (avoiding (· ∉ names)).OnStatements statements :=
    avoiding_of_unknown (fun _ member absurd => absurd member) bounded
  obtain ⟨own, made, inner, wired⟩ := walks.wires place keeps startSound startKnown (.refl pass)
    (append_checksOf_nil statements) nothing (watchedAll_of_avoiding statements known)
  have parts := walks.parts (@unfinished_admits settings _ _ _ pass) startSound (.refl pass)
    (Bounded.onStatements statements bounded)
  have exchanged := (wired.watchedList nothing startKnown).exchanged
    (onlyFunctions_nestedExchange _ _ _) leavesHelpers_unfinished
    (carried_avoiding name_of_transformFunction (· ∉ names)) parts nested
  refine ⟨_, wired.madeInGroups, exchanged.finished fun other among checker member same => ?_⟩
  exact (wired.madeInGroups.wired other among).apart checker member same.symm

/-- A function that is finished from a walk keeps the invariants that the walk met. -/
theorem guarded_of_finish {target : Function} (shape : source.body = .block statements)
    (passSound : pass.Sound)
    (nested : (nestedExchange (transformFunction settings fuel (scopes.push source.scope)) earliest
      latest).OnStatements walked rest)
    (finished :
      target = { source with body := .block (finish settings.tokens.result pass rest) })
    (inner : List.Forall₂ (Guarded settings names)
      ((survivors settings (.function source.name) names).ofStatements statements)
      ((functions names).ofStatements (finish settings.tokens.result pass rest))) :
    Guarded settings names source target := by
  obtain ⟨made, makes, wired⟩ := exists_wired_of_walks bounded keeps sound walks nested
  have startKnown : work.start.work.Sound (· ∈ names) := sound.later work.precedes_start
  refine .block shape finished makes.enforces wired ?_ inner
  obtain ⟨checkers, found, same, checks, _⟩ :=
    (walks.postconditions (by simp [functionContext]) keeps (.refl pass) trivial).made
  cases same
  have ends : target.body = .block
      (pass.postconditions.map (·.declaration settings.tokens.result) ++
        pass.captured.declarations ++ pass.postconditions.foldl applyPostcondition rest) := by
    rw [finished]
    rfl
  have known : pass.work.Sound (· ∈ names) := startKnown.later walks.precedes.work
  refine keepsInvariants_of_watchedList ends (makes.roster startKnown) checks passSound.distinct
    (fun checker member inNames => (known.known inNames).2 (passSound.checkers checker member).1)
    (declaresVariables_captured pass.captured)
    (Parts.OnStatements.imp (avoiding_within fun _ member => passSound.helperNames member) _
      passSound.avoiding_captured)
    (fun checker member declared => ?_) wired
  have wiredIn := makes.wired checker member
  rcases List.mem_append.mp declared with post | constant
  · obtain ⟨other, among, equal⟩ := List.mem_map.mp post
    exact wiredIn.apart other among (name_of_declaration equal)
  · have avoids := Parts.onStatements_iff.mp passSound.avoiding_captured _ constant
    rw [Checker.declaration, Parts.OnStatement] at avoids
    exact avoids checker.name List.mem_cons_self wiredIn.named

end

/-- What a transformation makes of a function keeps its invariants. -/
theorem guarded_of_transformFunction (keeps : settings.stripsContracts = false) :
    ∀ (fuel : Nat) (scopes : ScopeStack) {source target : Function} {work after : Work},
      BoundedFunction fuel (· ∈ names) source → work.Sound (· ∈ names) →
        transformFunction settings fuel scopes source work = .ok (target, after) →
          Guarded settings names source target := by
  intro fuel
  induction fuel with
  | zero =>
      intro scopes source target work after bounded
      have small := bounded.size
      rw [Function.nodes_true, functionsOf_cons_function, List.length_cons] at small
      omega
  | succ fuel induction =>
      intro scopes source target work after bounded sound outcome
      have body := bounded.body
      cases shape : source.body with
      | block statements =>
          rw [shape, FunctionBody.nodes] at body
          obtain ⟨walked, pass, rest, earliest, walks, passSound, known, later, nested, finished⟩ :=
            exists_rest_of_transformFunction shape sound outcome
          refine guarded_of_finish body keeps sound walks shape passSound nested finished ?_
          rw [finish, Collection.ofStatements_append, functions_prologue passSound known,
            functions_applyPostconditions, List.nil_append]
          have survive := walks.functions (sound.later work.precedes_start) trivial
          exact related_of_nested (induction _) later body survive nested
      | result expression =>
          rw [shape, FunctionBody.nodes] at body
          obtain ⟨final, transformed, rfl⟩ := (transformFunction_result shape).mp outcome
          obtain ⟨_, related⟩ :=
            nestedFunctions_onExpression (transformFunction_advances settings fuel _) transformed
          exact .result shape rfl (related_of_nestedExpression (induction _) sound body related)

/--
Every function of a program that survives a transformation which keeps
contracts has its invariants checked on entry to their lists, at the end of the
lists and behind the returns in them, at every depth.
-/
theorem invariants_kept
    {program output : Program} {summary : Summary} (keeps : settings.stripsContracts = false)
    (outcome : program.transform settings = .ok (output, summary)) :
    List.Forall₂ (Guarded settings program.allNames)
      ((survivors settings .topLevel program.allNames).ofStatements program.statements)
      ((functions program.allNames).ofStatements output.statements) := by
  obtain ⟨work, transformed, _⟩ := transform_eq_ok.mp outcome
  obtain ⟨walked, pass, walks, passed⟩ := transformStatements_eq_ok.mp transformed
  have sound := Work.sound_ofProgram program
  obtain ⟨_, nested⟩ :=
    nestedFunctions_onStatements (transformFunction_advances settings _ _) passed
  exact related_of_nested (guarded_of_transformFunction keeps _ _)
    (sound.later walks.precedes.work) (bounded_ofProgram program)
    (walks.functions sound trivial) nested

/-- A function with an invariant in a loop that is left by a jump. -/
def leavingByBreak : Program :=
  ⟨[.declare
    ⟨some "drop", ["x"],
      .block
        [.whileLoop (.literal (.bool true))
          (.block
            [.labeled "invariant" (.evaluate (.identifier "x")),
              .evaluate (.assign .assign (.identifier "x") (.literal (.bool false))),
              .breakOut none]),
          .giveBack (some (.identifier "x"))],
      false, false, false⟩]⟩

-- The invariant no longer holds where the jump leaves the loop, and nothing checks it there.
example :
    (match leavingByBreak.transform (Options.usual.resolve "test") with
      | .ok (output, _) =>
        match output.run 30 "drop" [.bool true] (fresh 10) with
        | .ok value _ => some value
        | .error _ _ => none
      | .error _ => none) = some (.primitive (.bool false)) := by
  decide +kernel

end

end Covenant.Contract
