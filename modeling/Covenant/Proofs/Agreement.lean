import Covenant.Proofs.Lockstep
import Covenant.Proofs.Progress

/-!
# Steps from passes that agree

What a walk generates depends on little of what it carries along: on the
constants that it has captured, and on which names of the form of fresh names
are taken.  From passes that agree on these the same guards, the same constants,
and checkers of the same names are made, and the passes agree afterwards.
-/

namespace Covenant.Contract

/-! ## Fresh names -/

/-- The same names are taken, among those that could be handed out. -/
def NameSupply.Agree (supply supply' : NameSupply) : Prop :=
  ∀ name, Coined name → (name ∈ supply.taken ↔ name ∈ supply'.taken)

/-- Two searches that end at free names end at the same name if the same names are taken. -/
theorem firstFree_of_agree {supply supply' : NameSupply} (agree : supply.Agree supply')
    (stem : String) :
    ∀ fuel fuel' place, firstFree supply.taken stem fuel place ∉ supply.taken →
      firstFree supply'.taken stem fuel' place ∉ supply'.taken →
        firstFree supply'.taken stem fuel' place = firstFree supply.taken stem fuel place := by
  have same (place : Nat) := agree _ (coined_candidateName stem place)
  intro fuel
  induction fuel with
  | zero =>
      rintro (_ | fuel') place free free'
      · rfl
      · rw [firstFree] at free ⊢
        rw [firstFree, if_neg (by simpa [← same] using free)]
  | succ fuel induction =>
      rintro (_ | fuel') place free free'
      · rw [firstFree] at free' ⊢
        rw [firstFree, if_neg (by simpa [same] using free')]
      · rw [firstFree] at free free' ⊢
        rw [firstFree]
        by_cases taken : candidateName stem place ∈ supply.taken
        · have taken' := (same place).mp taken
          simp only [List.contains_eq_mem, taken, taken', decide_true, if_true] at free free' ⊢
          exact induction fuel' (place + 1) free free'
        · have free := mt (same place).mpr taken
          simp [taken, free]

namespace NameSupply.Agree

variable {supply supply' : NameSupply}

/-- A name is taken from both supplies. -/
theorem take (agree : supply.Agree supply') (name : String) :
    NameSupply.Agree ⟨name :: supply.taken⟩ ⟨name :: supply'.taken⟩ := by
  intro other coined
  rw [List.mem_cons, List.mem_cons, agree other coined]

/-- Supplies that agree hand out the same name. -/
theorem generate (agree : supply.Agree supply') (text : String) :
    (supply'.generate text).1 = (supply.generate text).1 ∧
      (supply.generate text).2.Agree (supply'.generate text).2 := by
  have same : (supply'.generate text).1 = (supply.generate text).1 :=
    firstFree_of_agree agree _ _ _ _ (supply.generate_fresh text).free
      (supply'.generate_fresh text).free
  refine ⟨same, ?_⟩
  have taken := agree.take (supply.generate text).1
  intro name coined
  rw [supply'.generate_taken, same]
  exact taken name coined

end NameSupply.Agree

/-! ## Values on entry -/

namespace Capture

/-- The same constants have been captured, and the same names could be handed out. -/
structure Agree (capture capture' : Capture) : Prop where
  captured : capture'.captured = capture.captured
  supply : capture.supply.Agree capture'.supply

/-- Captures do the same if they give the same from states that agree. -/
def pace : Replacer.Pace (StateM Capture) where
  same step step' :=
    ∀ capture capture' : Capture, capture.Agree capture' →
      (step' capture').1 = (step capture).1 ∧ (step capture).2.Agree (step' capture').2
  pure _ _ _ agree := ⟨rfl, agree⟩
  bind {_ _ first first' next next'} head rest capture capture' agree := by
    obtain ⟨same, between⟩ := head capture capture' agree
    change (next' (first' capture').1 (first' capture').2).1 =
        (next (first capture).1 (first capture).2).1 ∧
      (next (first capture).1 (first capture).2).2.Agree
        (next' (first' capture').1 (first' capture').2).2
    rw [same]
    exact rest _ _ _ between

theorem same_bind (expression : Expression) :
    pace.same (Capture.bind expression) (Capture.bind expression) := by
  intro capture capture' agree
  have found : capture'.captured.find? expression = capture.captured.find? expression := by
    rw [agree.captured]
  cases there : capture.captured.find? expression with
  | some binding =>
      rw [bind_of_found there, bind_of_found (found.trans there)]
      exact ⟨rfl, agree⟩
  | none =>
      rw [bind_of_missing there, bind_of_missing (found.trans there)]
      obtain ⟨same, supply⟩ := agree.supply.generate (stemText expression)
      refine ⟨same, ?_, supply⟩
      change capture'.captured.push ⟨(capture'.supply.generate (stemText expression)).1, _⟩ = _
      rw [agree.captured, same]
      rfl

/-- Marker calls in the same expression are replaced alike. -/
theorem lockstep_replacer (marker : String) :
    Replacer.Lockstep pace ⟨fun _ => True, (· = ·), fun _ _ => False, fun _ _ => False⟩
      (Parts.all fun _ => True) (Parts.all fun _ => True) (replacer marker) (replacer marker) where
  covers := ⟨id, fun _ => id⟩
  covers' := ⟨id, fun _ => id⟩
  expression {source _} related := by
    rw [related.unchanged Eq.symm False.elim]
    cases marked : argument? marker source with
    | none =>
        rw [expression_of_unmarked marked]
        exact pace.pure none
    | some argument =>
        intro capture capture' agree
        rw [expression_of_marked marked, expression_of_marked marked]
        obtain ⟨same, between⟩ := same_bind argument capture capture' agree
        exact ⟨by rw [same], between.captured, between.supply⟩
  exchanged given := given.elim
  function {source _} same _ _ := by
    cases same
    obtain ⟨name, parameters, body, isArrow, isAsync, isGenerator⟩ := source
    rw [Replacer.onFunction]
    exact pace.pure _
  statement _ _ _ := pace.pure none
  swapped given := given.elim

/-- Marker calls in the same condition are replaced alike. -/
theorem same_replaceInCondition (marker : String) (condition : Condition) :
    pace.same (replaceInCondition marker condition) (replaceInCondition marker condition) := by
  have lockstep := lockstep_replacer marker
  have free {nodes : List Node} : AllFunctions (fun _ => True) nodes := fun _ _ => trivial
  refine pace.bind ?_ fun test => pace.bind ?_ fun message? => pace.pure _
  · exact Replacer.same_onExpression lockstep (.refl (fun _ => trivial) (fun _ => rfl) _) free free
  · exact Replacer.same_onOptional lockstep (.refl (fun _ => trivial) (fun _ => rfl) _) free free

theorem same_mapM (marker : String) (found : List Condition) :
    pace.same (found.mapM (replaceInCondition marker)) (found.mapM (replaceInCondition marker)) := by
  induction found with
  | nil => exact pace.pure []
  | cons condition rest induction =>
      rw [List.mapM_cons]
      refine pace.bind (same_replaceInCondition marker condition) fun first => ?_
      exact pace.bind induction fun others => pace.pure _

end Capture

/-! ## Passes -/

/-- The same guards, checkers, constants, and labels have been counted. -/
structure Summary.Alike (summary summary' : Summary) : Prop where
  guards : summary'.guards = summary.guards
  helpers : summary'.helpers = summary.helpers
  oldBindings : summary'.oldBindings = summary.oldBindings
  stripped : summary'.stripped = summary.stripped
  inlined : summary'.inlined = summary.inlined

/-- The same names could be handed out, and the same has been counted. -/
structure Work.Alike (work work' : Work) : Prop where
  supply : work.supply.Agree work'.supply
  helperNames : work'.helperNames = work.helperNames
  summary : work.summary.Alike work'.summary

/-- The same is remembered for a function. -/
structure Pass.Alike (pass pass' : Pass) : Prop where
  work : pass.work.Alike pass'.work
  captured : pass'.captured = pass.captured
  postconditions : pass'.postconditions = pass.postconditions

namespace Summary.Alike

variable {summary summary' : Summary} (alike : summary.Alike summary')

include alike

theorem addStripped : summary.addStripped.Alike summary'.addStripped :=
  ⟨alike.guards, alike.helpers, alike.oldBindings, congrArg (· + 1) alike.stripped, alike.inlined⟩

theorem addInlined : summary.addInlined.Alike summary'.addInlined :=
  ⟨alike.guards, alike.helpers, alike.oldBindings, alike.stripped, congrArg (· + 1) alike.inlined⟩

theorem addGuards (guards : Nat) : (summary.addGuards guards).Alike (summary'.addGuards guards) :=
  ⟨congrArg (· + guards) alike.guards, alike.helpers, alike.oldBindings, alike.stripped,
    alike.inlined⟩

/-- Returns do not count. -/
theorem addRouted (returns returns' : Nat) :
    (summary.addRouted returns).Alike (summary'.addRouted returns') :=
  ⟨alike.guards, alike.helpers, alike.oldBindings, alike.stripped, alike.inlined⟩

end Summary.Alike

namespace Pass.Alike

variable {pass pass' : Pass}

theorem counted (alike : pass.Alike pass') {change change' : Summary → Summary}
    (counts : (change pass.work.summary).Alike (change' pass'.work.summary)) :
    (pass.counted change).Alike (pass'.counted change') :=
  ⟨⟨alike.work.supply, alike.work.helperNames, counts⟩, alike.captured, alike.postconditions⟩

theorem withPostcondition (alike : pass.Alike pass') (checker : Checker) :
    (pass.withPostcondition checker).Alike (pass'.withPostcondition checker) :=
  ⟨alike.work, alike.captured, congrArg (· ++ [checker]) alike.postconditions⟩

end Pass.Alike

section

variable {pass pass' after : Pass} (alike : pass.Alike pass')

include alike

/-- The guards that replace a contract do not depend on the pass. -/
theorem placeGuards_of_alike {site : Site} {body : Statement} {guards : List Statement}
    (outcome : placeGuards site body pass = .ok (guards, after)) :
    ∃ after', placeGuards site body pass' = .ok (guards, after') ∧ after.Alike after' := by
  obtain ⟨clauses, between, assembles, outcome⟩ := step_bind_eq_ok.mp outcome
  obtain ⟨assembled, rfl⟩ := step_lift_eq_ok.mp assembles
  rw [step_bind_of_ok (count_apply _ pass)] at outcome
  obtain ⟨rfl, rfl⟩ := step_pure_eq_ok.mp outcome
  have again : (liftM (assemble site body) : Walking (List Statement)) pass' =
      .ok (clauses, pass') := step_lift_eq_ok.mpr ⟨assembled, rfl⟩
  refine ⟨pass'.counted (.addGuards clauses.length), ?_,
    alike.counted (alike.work.summary.addGuards _)⟩
  rw [placeGuards, step_bind_of_ok again, step_bind_of_ok (count_apply _ pass')]
  rfl

/-- Values on entry are captured alike wherever the marker is bound in both places or in neither. -/
theorem captureOldValues_of_alike {context : Context} {scopes : ScopeStack}
    (captures : Context.captures { context with scopes := scopes } = context.captures)
    {found captured : List Condition}
    (outcome : captureOldValues context found pass = .ok (captured, after)) :
    ∃ after',
      captureOldValues { context with scopes := scopes } found pass' = .ok (captured, after') ∧
        after.Alike after' := by
  cases marked : context.captures with
  | false =>
      rw [captureOldValues_of_not_captures marked] at outcome
      cases outcome
      exact ⟨pass', captureOldValues_of_not_captures (captures.trans marked) found pass', alike⟩
  | true =>
      rw [captureOldValues_of_captures marked] at outcome
      cases outcome
      have agree : pass.capture.Agree pass'.capture := ⟨alike.captured, alike.work.supply⟩
      obtain ⟨same, between⟩ := Capture.same_mapM context.settings.tokens.old found _ _ agree
      refine ⟨pass'.capturing (found.mapM (Capture.replaceInCondition _) pass'.capture).2, ?_,
        ⟨between.supply, alike.work.helperNames, alike.work.summary⟩, between.captured,
        alike.postconditions⟩
      rw [captureOldValues_of_captures (captures.trans marked), same]

/-- The guards of a checker are made alike. -/
theorem checkedGuards_of_alike {context : Context} {scopes : ScopeStack}
    (captures : Context.captures { context with scopes := scopes } = context.captures)
    {site : Site} {body : Statement} {clauses : List Statement}
    (outcome : checkedGuards context site body pass = .ok (clauses, after)) :
    ∃ after',
      checkedGuards { context with scopes := scopes } site body pass' = .ok (clauses, after') ∧
        after.Alike after' := by
  obtain ⟨prepared, _, prepares, outcome⟩ := step_bind_eq_ok.mp outcome
  obtain ⟨preparation, rfl⟩ := step_lift_eq_ok.mp prepares
  obtain ⟨captured, between, capturing, outcome⟩ := step_bind_eq_ok.mp outcome
  obtain ⟨made, _, makes, outcome⟩ := step_bind_eq_ok.mp outcome
  obtain ⟨making, rfl⟩ := step_lift_eq_ok.mp makes
  rw [step_bind_of_ok (count_apply _ between)] at outcome
  obtain ⟨rfl, rfl⟩ := step_pure_eq_ok.mp outcome
  obtain ⟨between', capturing', alike'⟩ := captureOldValues_of_alike alike captures capturing
  have prepares' : (liftM (prepare site body) : Walking (List Condition)) pass' =
      .ok (prepared, pass') := step_lift_eq_ok.mpr ⟨preparation, rfl⟩
  have makes' : (liftM (guards site captured) : Walking (List Statement)) between' =
      .ok (made, between') := step_lift_eq_ok.mpr ⟨making, rfl⟩
  refine ⟨between'.counted (.addGuards made.length), ?_,
    alike'.counted (alike'.work.summary.addGuards _)⟩
  rw [checkedGuards, step_bind_of_ok prepares', step_bind_of_ok capturing', step_bind_of_ok makes',
    step_bind_of_ok (count_apply _ between')]
  rfl

/-- A checker gets the same name. -/
theorem makeChecker_of_alike {site : Site} {role : String} {guards : List Statement}
    {checker : Checker} (outcome : makeChecker site role guards pass = .ok (checker, after)) :
    ∃ after', makeChecker site role guards pass' = .ok (checker, after') ∧ after.Alike after' := by
  have made (pass : Pass) : makeChecker site role guards pass =
      .ok (⟨(pass.work.supply.generate (site.owner.getD "check" ++ role)).1, guards⟩,
        pass.naming (pass.work.supply.generate (site.owner.getD "check" ++ role)).1) := rfl
  rw [made] at outcome
  cases outcome
  have same := (alike.work.supply.generate (site.owner.getD "check" ++ role)).1
  have counted := alike.work.summary
  refine ⟨pass'.naming (pass.work.supply.generate (site.owner.getD "check" ++ role)).1, ?_,
    ⟨alike.work.supply.take _, congrArg (_ :: ·) alike.work.helperNames, counted.guards,
      congrArg (· + 1) counted.helpers, counted.oldBindings, counted.stripped, counted.inlined⟩,
    alike.captured, alike.postconditions⟩
  rw [made, same]

end

end Covenant.Contract
