import Covenant.Proofs.Checking
import Covenant.Proofs.Gathering
import Covenant.Proofs.Nested

/-!
# What becomes of postconditions

The postconditions of a function, in source order, are those of its labeled
statements that survive: outside nested functions, and not in code for another
environment.  A walk makes a checker of each of them, in this order.
-/

namespace Covenant.Contract

/-- The bodies of the postconditions that survive in statements. -/
def postconditions (settings : Settings) : Collection Statement where
  expression _ := []
  function _ := []
  declared _ := []
  labeled label body :=
    match settings.roleOf label with
    | .contract .postcondition => some [body]
    | .contract _ => some []
    | .environment => if settings.actionFor label = .remove then some [] else none
    | .other => none

/-- What a contract gives if it is a postcondition: its body. -/
def postconditionBody : Kind → Statement → List Statement
  | .postcondition, body => [body]
  | _, _ => []

/-- The postconditions are gathered from the contracts. -/
theorem postconditions_eq_gathered (settings : Settings) :
    postconditions settings = gathered settings postconditionBody := by
  unfold postconditions gathered
  congr
  funext label body
  cases settings.roleOf label with
  | contract kind => cases kind <;> rfl
  | environment | other => rfl

/-- A body states conditions, in which values on entry are replaced by constants. -/
def States (context : Context) (captured : OldBindings) (body : Statement)
    (found : List Condition) : Prop :=
  ∃ given,
    conditions ⟨.postcondition, context.owner⟩ body = .ok given ∧
      List.Forall₂ (Condition.CapturedAs captured context.marker?)
        (given.map (Condition.withMessage ⟨.postcondition, context.owner⟩)) found

mutual

/-- A routed body only states conditions if the body itself does. -/
theorem conditions_of_route
    {site : Site} {checker : Checker} : (body : Statement) → {given : List Condition} →
      conditions site (checker.route body) = .ok given → conditions site body = .ok given
  | .evaluate _, _, outcome | .empty, _, outcome => by
      rw [Checker.route] at outcome
      · exact outcome
      all_goals intros; contradiction
  | .block statements, _, outcome => by
      rw [Checker.route, conditions] at outcome
      rw [conditions]
      exact conditionsOfStatements_of_routeAll statements outcome
  | .labeled _ _, _, outcome | .giveBack _, _, outcome | .branch _ _ _, _, outcome
  | .whileLoop _ _, _, outcome | .doWhileLoop _ _, _, outcome
  | .forLoop _ _ _ _, _, outcome => by
      rw [Checker.route, conditions] at outcome
      · cases outcome
      all_goals intros; contradiction
  | .bindings _ _, _, outcome | .declare _, _, outcome | .raise _, _, outcome
  | .breakOut _, _, outcome | .continueLoop _, _, outcome => by
      rw [Checker.route, conditions] at outcome
      · cases outcome
      all_goals intros; contradiction

/-- Routed statements only state conditions if the statements themselves do. -/
theorem conditionsOfStatements_of_routeAll
    {site : Site} {checker : Checker} : (statements : List Statement) →
      {given : List Condition} →
        conditionsOfStatements site (checker.routeAll statements) = .ok given →
          conditionsOfStatements site statements = .ok given
  | [], _, outcome => by
      rw [Checker.routeAll] at outcome
      exact outcome
  | statement :: rest, _, outcome => by
      rw [Checker.routeAll, conditionsOfStatements] at outcome
      rw [conditionsOfStatements]
      cases first : conditions site (checker.route statement) with
      | error reason =>
          rw [first] at outcome
          cases outcome
      | ok found =>
          cases others : conditionsOfStatements site (checker.routeAll rest) with
          | error reason =>
              rw [first, others] at outcome
              cases outcome
          | ok otherFound =>
              rw [first, others] at outcome
              rw [conditions_of_route statement first,
                conditionsOfStatements_of_routeAll rest others]
              exact outcome

end

/-- Constants that are captured earlier are captured later. -/
theorem Condition.CapturedAs.mono
    {earlier later : OldBindings} {marker : Option String} {source target : Condition}
    (captured : Condition.CapturedAs earlier marker source target)
    (grows : earlier.bindings ⊆ later.bindings) :
    Condition.CapturedAs later marker source target := by
  have within : (earlier.exchange marker).Within (later.exchange marker) :=
    ⟨id, id, fun ⟨name, equal, argument, marked, binding, member, init, target⟩ =>
      ⟨name, equal, argument, marked, binding, grows member, init, target⟩, id⟩
  exact ⟨captured.test.mono within, captured.message.mono within⟩

/-- What a walk makes of the postconditions of a stretch. -/
structure Postconditions (context : Context) (bodies : List Statement) (last : Pass)
    (pass after : Pass) : Prop where
  made : ∃ checkers found,
    after.postconditions = pass.postconditions ++ checkers ∧
      List.Forall₂ Checker.Checks checkers found ∧
        List.Forall₂ (States context last.captured) bodies found

namespace Postconditions

variable {context : Context} {last : Pass}

theorem none {pass after : Pass} (same : after.postconditions = pass.postconditions) :
    Postconditions context [] last pass after :=
  ⟨[], [], by rw [same, List.append_nil], .nil, .nil⟩

theorem append
    {bodies others : List Statement} {pass between after : Pass}
    (first : Postconditions context bodies last pass between)
    (second : Postconditions context others last between after) :
    Postconditions context (bodies ++ others) last pass after := by
  obtain ⟨checkers, found, made, checks, states⟩ := first.made
  obtain ⟨moreCheckers, moreFound, moreMade, moreChecks, moreStates⟩ := second.made
  refine ⟨checkers ++ moreCheckers, found ++ moreFound, ?_,
    List.rel_append checks moreChecks, List.rel_append states moreStates⟩
  rw [moreMade, made, List.append_assoc]

/-- Bodies that were routed may be replaced by the bodies themselves. -/
theorem of_routed
    {bodies : List Statement} {checker : Checker} {pass after : Pass}
    (made : Postconditions context (bodies.map checker.route) last pass after) :
    Postconditions context bodies last pass after := by
  obtain ⟨checkers, found, equal, checks, states⟩ := made.made
  refine ⟨checkers, found, equal, checks, ?_⟩
  refine (List.forall₂_map_left_iff.mp states).imp fun body conditions => ?_
  rintro ⟨given, outcome, captured⟩
  exact ⟨given, conditions_of_route body outcome, captured⟩

end Postconditions

/-- Guards of a checker state what their body states. -/
theorem states_of_checkedGuards
    {context : Context} {body : Statement} {guards : List Statement} {pass after last : Pass}
    (outcome : checkedGuards context ⟨.postcondition, context.owner⟩ body pass =
      .ok (guards, after))
    (late : after.captured.bindings ⊆ last.captured.bindings) :
    ∃ found,
      States context last.captured body found ∧
        guards = found.map (Condition.clause ⟨.postcondition, context.owner⟩) ∧
          (∀ condition ∈ found, condition.isPlain none true = true) ∧
            after.postconditions = pass.postconditions := by
  obtain ⟨given, found, capture, states, clean, captured, rfl, rfl, _, plain⟩ :=
    checkedGuards_eq_ok outcome
  refine ⟨found, ⟨given, states, captured.imp fun _ _ inner => inner.mono late⟩, rfl, ?_, rfl⟩
  exact (plain true fun condition member => (clean condition member).isPlain context.marker?).1

/-- Step by step, a walk makes a checker of the postcondition that it meets. -/
theorem gathers_postconditions (context : Context) (last : Pass) :
    Gathers context postconditionBody fun bodies pass after =>
      pass.Precedes after ∧
        (after.Precedes last → Postconditions context bodies last pass after) where
  counted pass change := ⟨Pass.precedes_counted pass change, fun _ => .none rfl⟩
  append first second :=
    ⟨first.1.trans second.1, fun late => (first.2 (second.1.trans late)).append (second.2 late)⟩
  inPlace _ place := by
    rcases place with rfl | rfl <;> rfl
  postcondition assembles names := by
    rcases makeChecker_eq_ok names with ⟨same, free, rfl⟩
    constructor
    · exact (precedes_of_checkedGuards assembles).trans (Pass.precedes_withPostcondition free)
    · intro late
      have grows := ((Pass.precedes_withPostcondition free).trans late).captured
      rcases states_of_checkedGuards assembles grows with ⟨found, states, equal, plain, kept⟩
      refine ⟨[_], [found], ?_, .cons ⟨⟨_, same.trans equal⟩, plain⟩ .nil, .cons states .nil⟩
      rw [← kept]
      rfl
  invariant assembles names := by
    rcases makeChecker_eq_ok names with ⟨_, free, rfl⟩
    constructor
    · exact (precedes_of_checkedGuards assembles).trans (Pass.precedes_naming free)
    · rcases checkedGuards_eq_ok assembles with ⟨_, _, _, _, _, _, _, rfl, _, _⟩
      exact fun _ => .none rfl
  routed checker := by
    refine ⟨checker.route, fun kind body => ?_, fun related => ⟨related.1, fun late => ?_⟩⟩
    · cases kind <;> rfl
    · exact (related.2 late).of_routed

/-- A walk makes a checker of every postcondition that it meets. -/
theorem Walks.postconditions
    {context : Context} {stretch : Stretch} {pass after last : Pass} {result : List Statement}
    (place : context.place ≠ .topLevel) (keeps : context.settings.stripsContracts = false)
    (walks : Walks context stretch pass result after) :
    after.Precedes last → stretch.IsOpen context →
      Postconditions context (stretch.collected (Contract.postconditions context.settings)) last
        pass after := by
  intro late isOpen
  rw [postconditions_eq_gathered]
  exact ((gathers_postconditions context last).walks place keeps walks isOpen).2 late

end Covenant.Contract
