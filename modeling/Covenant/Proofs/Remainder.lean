import Covenant.Proofs.Marked

/-!
# What capturing leaves of the marker

In a condition whose values on entry have been captured nothing calls the
marker any more: a call that is met is replaced, and no constant is named like
the marker, so no replacement makes a new call of it.  A call survives only
inside the argument of another one, which is the initial value of a constant
just as it is written.
-/

namespace Covenant.Contract

namespace Capture

variable {marker : String}

/-- The marker is taken, but not by a constant. -/
structure Reserves (marker : String) (state : Capture) : Prop where
  taken : marker ∈ state.supply.taken
  apart : ∀ binding ∈ state.captured.bindings, binding.name ≠ marker

/-- A constant that is captured leaves the marker reserved. -/
theorem Reserves.bind {state : Capture} (reserves : state.Reserves marker)
    (argument : Expression) : (Capture.bind argument state).2.Reserves marker := by
  cases found : state.captured.find? argument with
  | some binding =>
      rw [bind_of_found found]
      exact reserves
  | none =>
      rw [bind_of_missing found]
      constructor
      · exact List.mem_cons_of_mem _ reserves.taken
      · intro binding member
        rcases List.mem_append.mp member with old | new
        · exact reserves.apart binding old
        · rw [List.mem_singleton.mp new]
          rintro rfl
          exact (NameSupply.generate_fresh state.supply (stemText argument)).free reserves.taken

/-- No constant is referred to by the name of the marker. -/
theorem Reserves.bind_ne {state : Capture} (reserves : state.Reserves marker)
    (argument : Expression) : (Capture.bind argument state).1 ≠ marker := by
  rcases exists_binding_of_bind argument state with ⟨binding, member, name, _⟩
  rw [← name]
  exact (reserves.bind argument).apart binding member

/-- The course of states in which the marker stays reserved. -/
def reservedCourse (marker : String) : Replacer.Course Capture where
  precedes earlier later := earlier.Reserves marker → later.Reserves marker
  refl _ := id
  trans before after reserves := after (before reserves)

/-- While the marker is reserved, what an action of a capture gives has a property. -/
abbrev Clears {α : Type} (marker : String) (action : StateM Capture α) (isClear : α → Prop) :
    Prop :=
  Replacer.Yields (.ofStates Capture) (reservedCourse marker) action fun span result =>
    span.earliest.Reserves marker → isClear result

/-- An expression without marker calls, which is no name of the marker unless its source is. -/
structure Cleared (marker : String) (source target : Expression) : Prop where
  marked : target.marked marker = []
  named : target = .identifier marker → source = .identifier marker

/-- As many expressions as their sources, and without marker calls. -/
structure ClearedAll (marker : String) (source target : List Expression) : Prop where
  marked : markedInAll marker target = []
  length : target.length = source.length

/-- Cleared parts of a call only make a call of the marker if they come from one. -/
theorem argument?_of_cleared
    {callee callee' : Expression} {arguments arguments' : List Expression}
    (unmarked : argument? marker (.call callee arguments) = none)
    (called : Cleared marker callee callee') (passed : ClearedAll marker arguments arguments') :
    argument? marker (.call callee' arguments') = none := by
  cases found : argument? marker (.call callee' arguments') with
  | none => rfl
  | some argument =>
      rcases call_of_argument? found with ⟨rfl, rfl⟩
      rcases List.length_eq_one_iff.mp passed.length.symm with ⟨only, rfl⟩
      rw [called.named rfl, argument?, if_pos rfl] at unmarked
      cases unmarked

theorem clears_of_marked {source argument : Expression}
    {next : Option Expression → StateM Capture Expression}
    (taken : ∀ replacement, next (some replacement) = pure replacement)
    (marked : argument? marker source = some argument) :
    Clears marker ((replacer marker).expression source >>= next) (Cleared marker source) := by
  intro state result after gives
  have equal : ((replacer marker).expression source >>= next) state =
      (.identifier (Capture.bind argument state).1, state.note argument) := by
    change next ((replacer marker).expression source state).1
      ((replacer marker).expression source state).2 = _
    rw [expression_of_marked marked, taken]
    rfl
  cases equal.symm.trans gives
  constructor
  · exact fun reserves => ⟨(reserves.bind argument).taken, (reserves.bind argument).apart⟩
  · intro span early _ reserves
    constructor
    · rw [Expression.marked]
    · intro named
      cases (early reserves).bind_ne argument (Expression.identifier.inj named)

theorem clears_of_unmarked {source : Expression}
    {next : Option Expression → StateM Capture Expression} {isClear : Expression → Prop}
    (unmarked : argument? marker source = none) (inside : Clears marker (next none) isClear) :
    Clears marker ((replacer marker).expression source >>= next) isClear := by
  rw [expression_of_unmarked unmarked, pure_bind]
  exact inside

open Replacer in
mutual

/-- Replacing inside an expression leaves no marker calls. -/
theorem clears_onExpression : (source : Expression) →
    Clears marker ((replacer marker).onExpression source) (Cleared marker source)
  | .literal _ | .receiver => by
      rw [onExpression]
      apply clears_of_unmarked rfl
      exact .pure fun _ _ => ⟨by rw [Expression.marked], nofun⟩
  | .identifier _ => by
      rw [onExpression]
      apply clears_of_unmarked rfl
      exact .pure fun _ _ => ⟨by rw [Expression.marked], id⟩
  | .lambda ⟨_, _, _, _, _, _⟩ => by
      rw [onExpression]
      apply clears_of_unmarked rfl
      rw [onFunction]
      exact .pure fun _ _ => ⟨by rw [Expression.marked], nofun⟩
  | .array elements | .sequence elements => by
      rw [onExpression]
      apply clears_of_unmarked rfl
      apply (clears_onExpressions elements).bind
      intro _
      exact .pure fun _ inner reserves =>
        ⟨by rw [Expression.marked, (inner reserves).marked], nofun⟩
  | .record properties => by
      rw [onExpression]
      apply clears_of_unmarked rfl
      apply (clears_onProperties properties).bind
      intro _
      exact .pure fun _ inner reserves => ⟨by rw [Expression.marked, inner reserves], nofun⟩
  | .unary _ argument | .update _ _ argument | .await argument | .member argument _ => by
      rw [onExpression]
      apply clears_of_unmarked rfl
      apply (clears_onExpression argument).bind
      intro _
      exact .pure fun _ inner reserves =>
        ⟨by rw [Expression.marked, (inner reserves).marked], nofun⟩
  | .binary _ left right | .logical _ left right | .assign _ left right | .index left right => by
      rw [onExpression]
      apply clears_of_unmarked rfl
      apply (clears_onExpression left).bind
      intro _
      apply (clears_onExpression right).bind
      intro _
      exact .pure fun _ second first reserves =>
        ⟨by rw [Expression.marked, (first reserves).marked, (second reserves).marked]; rfl, nofun⟩
  | .conditional test consequent alternate => by
      rw [onExpression]
      apply clears_of_unmarked rfl
      apply (clears_onExpression test).bind
      intro _
      apply (clears_onExpression consequent).bind
      intro _
      apply (clears_onExpression alternate).bind
      intro _
      exact .pure fun _ third second first reserves =>
        ⟨by rw [Expression.marked, (first reserves).marked, (second reserves).marked,
          (third reserves).marked]; rfl, nofun⟩
  | .call callee arguments => by
      rw [onExpression]
      cases found : argument? marker (.call callee arguments) with
      | some argument => exact clears_of_marked (fun _ => rfl) found
      | none =>
          apply clears_of_unmarked found
          apply (clears_onExpression callee).bind
          intro _
          apply (clears_onExpressions arguments).bind
          intro _
          -- The callee may have become the name of a constant, but never that of the marker.
          refine .pure fun _ passed called reserves => ⟨?_, nofun⟩
          rw [Expression.marked, argument?_of_cleared found (called reserves) (passed reserves)]
          dsimp only
          rw [(called reserves).marked, (passed reserves).marked]
          rfl
  | .construct callee arguments => by
      rw [onExpression]
      apply clears_of_unmarked rfl
      apply (clears_onExpression callee).bind
      intro _
      apply (clears_onExpressions arguments).bind
      intro _
      exact .pure fun _ passed called reserves =>
        ⟨by rw [Expression.marked, (called reserves).marked, (passed reserves).marked]; rfl, nofun⟩
  | .yield argument _ => by
      rw [onExpression]
      apply clears_of_unmarked rfl
      apply (clears_onOptional argument).bind
      intro _
      exact .pure fun _ inner reserves => ⟨by rw [Expression.marked, inner reserves], nofun⟩

theorem clears_onExpressions : (source : List Expression) →
    Clears marker ((replacer marker).onExpressions source) (ClearedAll marker source)
  | [] => by
      rw [onExpressions]
      exact .pure fun _ _ => ⟨by rw [markedInAll], rfl⟩
  | expression :: rest => by
      rw [onExpressions]
      apply (clears_onExpression expression).bind
      intro _
      apply (clears_onExpressions rest).bind
      intro _
      exact .pure fun _ second first reserves =>
        ⟨by rw [markedInAll, (first reserves).marked, (second reserves).marked]; rfl,
          congrArg (· + 1) (second reserves).length⟩

theorem clears_onProperties : (source : List Property) →
    Clears marker ((replacer marker).onProperties source)
      (fun target => markedInProperties marker target = [])
  | [] => by
      rw [onProperties]
      exact .pure fun _ _ => by simp only [markedInProperties]
  | ⟨_, value⟩ :: rest => by
      rw [onProperties]
      apply (clears_onExpression value).bind
      intro _
      apply (clears_onProperties rest).bind
      intro _
      exact .pure fun _ second first reserves => by
        simp only [markedInProperties, (first reserves).marked, second reserves, List.append_nil]

theorem clears_onOptional : (source : Option Expression) →
    Clears marker ((replacer marker).onOptional source)
      (fun target => markedIfAny marker target = [])
  | none => by
      rw [onOptional]
      exact .pure fun _ _ => by simp only [markedIfAny]
  | some expression => by
      rw [onOptional]
      apply (clears_onExpression expression).bind
      intro _
      exact .pure fun _ inner reserves => by simp only [markedIfAny, (inner reserves).marked]

end

/-- Replacing inside a condition leaves no marker calls, neither in its test nor in its message. -/
theorem clears_replaceInCondition (condition : Condition) :
    Clears marker (replaceInCondition marker condition)
      (fun target => target.marked marker = []) := by
  apply (clears_onExpression condition.test).bind
  intro _
  apply (clears_onOptional condition.message?).bind
  intro _
  exact .pure fun _ second first reserves => by
    simp only [Condition.marked, (first reserves).marked, second reserves, List.append_nil]

/-- Replacing inside conditions leaves no marker calls in any of them. -/
theorem clears_mapM (found : List Condition) :
    Clears marker (found.mapM (replaceInCondition marker))
      (fun targets => ∀ target ∈ targets, target.marked marker = []) := by
  induction found with
  | nil => exact .pure fun _ _ => List.forall_mem_nil _
  | cons condition rest induction =>
      rw [List.mapM_cons]
      apply (clears_replaceInCondition condition).bind
      intro _
      apply induction.bind
      intro _
      exact .pure fun _ others first reserves =>
        List.forall_mem_cons.mpr ⟨first reserves, others reserves⟩

end Capture

/-! ## Guards -/

/-- A guard clause whose test and message call the marker nowhere. -/
def IsClearGuard (marker : String) (guard : Statement) : Prop :=
  ∃ test message,
    guard = guardClause test message ∧
      test.marked marker = [] ∧ markedIfAny marker (some message) = []

/-- The clause of a condition without marker calls has none. -/
theorem Condition.isClearGuard_clause
    {condition : Condition} {marker : String} (clear : condition.marked marker = [])
    (site : Site) : IsClearGuard marker (condition.clause site) := by
  rw [← Condition.marked_withMessage, Condition.marked] at clear
  rcases List.append_eq_nil_iff.mp clear with ⟨test, message⟩
  exact ⟨condition.test, condition.message site, rfl, test, message⟩

/-- Progress of a walk leaves the marker reserved. -/
theorem Capture.Reserves.later
    {marker : String} {pass after : Pass} (reserves : pass.capture.Reserves marker)
    (precedes : pass.Precedes after) : after.capture.Reserves marker where
  taken := precedes.work.taken reserves.taken
  apart binding member := by
    rcases precedes.capturing binding member with earlier | out
    · exact reserves.apart binding earlier
    · rintro rfl
      exact out.free reserves.taken

/-- No guard of a postcondition or an invariant calls the marker, in its test or in its message. -/
theorem clear_of_checkedGuards
    {context : Context} {site : Site} {body : Statement} {guards : List Statement}
    {marker : String} {pass after : Pass}
    (captures : context.marker? = some marker) (reserves : pass.capture.Reserves marker)
    (outcome : checkedGuards context site body pass = .ok (guards, after)) :
    ∀ guard ∈ guards, IsClearGuard marker guard := by
  have capturing : context.captures = true := by
    rw [Context.marker?] at captures
    split at captures
    · assumption
    · cases captures
  rw [Context.marker?, if_pos capturing] at captures
  cases captures
  rcases steps_of_checkedGuards outcome with ⟨prepared, captured, between, _, replaces, rfl, rfl⟩
  rw [captureOldValues_of_captures capturing] at replaces
  cases replaces
  intro guard member
  rcases List.mem_map.mp member with ⟨condition, among, rfl⟩
  apply Condition.isClearGuard_clause
  have clears := @Capture.clears_mapM context.settings.tokens.old prepared
    pass.capture _ _ rfl
  exact clears.2 ⟨pass.capture, _⟩ id id reserves condition among

/-! ## Walks -/

/-- The guards of all postconditions of a pass are clear. -/
def Pass.PostconditionsAreClear (marker : String) (pass : Pass) : Prop :=
  ∀ checker ∈ pass.postconditions, ∀ guard ∈ checker.guards, IsClearGuard marker guard

/-- Step by step, a walk that reserves the marker adds postconditions with clear guards. -/
theorem gathers_clear {context : Context} {marker : String}
    (captures : context.marker? = some marker) :
    Gathers context (fun _ _ => ([] : List Empty)) fun _ pass after =>
      pass.Precedes after ∧
        (pass.capture.Reserves marker → pass.PostconditionsAreClear marker →
          after.PostconditionsAreClear marker) where
  counted pass change := ⟨Pass.precedes_counted pass change, fun _ => id⟩
  append first second :=
    ⟨first.1.trans second.1, fun reserves clear =>
      second.2 (reserves.later first.1) (first.2 reserves clear)⟩
  inPlace _ _ := rfl
  postcondition assembles names := by
    rcases makeChecker_eq_ok names with ⟨same, free, rfl⟩
    constructor
    · exact (precedes_of_checkedGuards assembles).trans (Pass.precedes_withPostcondition free)
    · intro reserves clear checker member
      rcases checkedGuards_eq_ok assembles with ⟨_, _, _, _, _, _, _, rfl, _, _⟩
      rcases List.mem_append.mp member with old | new
      · exact clear checker old
      · rw [List.mem_singleton.mp new, same]
        exact clear_of_checkedGuards captures reserves assembles
  invariant assembles names := by
    rcases makeChecker_eq_ok names with ⟨_, free, rfl⟩
    constructor
    · exact (precedes_of_checkedGuards assembles).trans (Pass.precedes_naming free)
    · rcases checkedGuards_eq_ok assembles with ⟨_, _, _, _, _, _, _, rfl, _, _⟩
      exact fun _ => id
  routed _ := ⟨id, fun _ _ => rfl, id⟩

/--
A walk over a function in which the marker is taken leaves it reserved, and no
guard of a postcondition calls it.
-/
theorem Walks.clears
    {context : Context} {statements result : List Statement} {marker : String}
    {pass after : Pass}
    (place : context.place ≠ .topLevel) (keeps : context.settings.stripsContracts = false)
    (captures : context.marker? = some marker) (taken : marker ∈ pass.work.supply.taken)
    (starts : pass.captured = .empty) (begins : pass.postconditions = [])
    (walks : Walks context (.list [] statements) pass result after) :
    after.capture.Reserves marker ∧ after.PostconditionsAreClear marker := by
  have reserves : pass.capture.Reserves marker := by
    constructor
    · exact taken
    · rw [Pass.capture, starts]
      exact List.forall_mem_nil _
  constructor
  · exact reserves.later walks.precedes
  · apply ((gathers_clear captures).walks place keeps walks trivial).2 reserves
    rw [Pass.PostconditionsAreClear, begins]
    exact List.forall_mem_nil _

end Covenant.Contract
