import Covenant.Proofs.Plain

/-!
# Capturing values on entry

Replacing marker calls in an expression only adds constants, each under a
fresh name.  The result is the expression with references to constants in the
place of marker calls, where the constant was captured for an argument of the
same source text.

Whatever is plain apart from marker calls is plain altogether afterwards, and
so are the initial values of the constants.
-/

namespace Covenant.Contract

namespace Capture

/-- How the states of a capture follow each other: constants are added under fresh names. -/
structure Precedes (earlier later : Capture) : Prop where
  taken : earlier.supply.taken ⊆ later.supply.taken
  captured : ∃ added,
    later.captured.bindings = earlier.captured.bindings ++ added ∧
      ∀ binding ∈ added,
        earlier.supply.Offers binding.name ∧ binding.name ∈ later.supply.taken

theorem Precedes.refl (state : Capture) : state.Precedes state :=
  ⟨List.Subset.refl _, [], by simp⟩

theorem Precedes.trans
    {first second third : Capture}
    (before : first.Precedes second) (after : second.Precedes third) :
    first.Precedes third := by
  obtain ⟨early, earlyEqual, earlyFresh⟩ := before.captured
  obtain ⟨late, lateEqual, lateFresh⟩ := after.captured
  refine ⟨List.Subset.trans before.taken after.taken, early ++ late, ?_, ?_⟩
  · rw [lateEqual, earlyEqual, List.append_assoc]
  · intro binding member
    rcases List.mem_append.mp member with inEarly | inLate
    · exact ⟨(earlyFresh binding inEarly).1, after.taken (earlyFresh binding inEarly).2⟩
    · obtain ⟨offered, taken⟩ := lateFresh binding inLate
      exact ⟨⟨fun early => offered.free (before.taken early), offered.coined⟩, taken⟩

/-- The constants of a state are still there later. -/
theorem Precedes.binding_mem
    {earlier later : Capture} {binding : OldBinding}
    (precedes : earlier.Precedes later) (member : binding ∈ earlier.captured.bindings) :
    binding ∈ later.captured.bindings := by
  obtain ⟨added, equal, _⟩ := precedes.captured
  rw [equal]
  exact List.mem_append_left added member

/-- The course of the states of a capture. -/
def course : Replacer.Course Capture :=
  ⟨Precedes, Precedes.refl, Precedes.trans⟩

/-- A state with a new constant for an expression. -/
def adding (state : Capture) (expression : Expression) : Capture :=
  { state with
    captured := state.captured.push ⟨(state.supply.generateFor expression).1, expression⟩
    supply := (state.supply.generateFor expression).2 }

theorem bind_apply (expression : Expression) (state : Capture) :
    Capture.bind expression state =
      (match state.captured.find? expression with
        | some binding => pure binding.name
        | none => do
          set (state.adding expression)
          pure (state.supply.generateFor expression).1 : StateM Capture String) state :=
  rfl

/-- A constant that is already there is taken as it is. -/
theorem bind_of_found
    {expression : Expression} {state : Capture} {binding : OldBinding}
    (found : state.captured.find? expression = some binding) :
    Capture.bind expression state = (binding.name, state) := by
  rw [bind_apply, found]
  rfl

/-- A constant that is not yet there is added. -/
theorem bind_of_missing
    {expression : Expression} {state : Capture}
    (missing : state.captured.find? expression = none) :
    Capture.bind expression state =
      ((state.supply.generateFor expression).1, state.adding expression) := by
  rw [bind_apply, missing]
  rfl

/-- A capture adds constants under fresh names only. -/
theorem bind_precedes (expression : Expression) (state : Capture) :
    state.Precedes (Capture.bind expression state).2 := by
  cases found : state.captured.find? expression with
  | some binding =>
      rw [bind_of_found found]
      exact .refl state
  | none =>
      rw [bind_of_missing found]
      refine ⟨fun name member => List.mem_cons_of_mem _ member, [_], rfl, ?_⟩
      intro binding member
      rw [List.mem_singleton.mp member]
      exact ⟨NameSupply.generate_fresh state.supply (stemText expression), List.mem_cons_self⟩

/-- A captured expression has a constant under the name that the capture gives. -/
theorem exists_binding_of_bind (expression : Expression) (state : Capture) :
    ∃ binding ∈ (Capture.bind expression state).2.captured.bindings,
      binding.name = (Capture.bind expression state).1 ∧
        binding.init.source = expression.source := by
  cases found : state.captured.find? expression with
  | some binding =>
      rw [bind_of_found found]
      refine ⟨binding, List.mem_of_find?_eq_some found, rfl, ?_⟩
      simpa using List.find?_some found
  | none =>
      rw [bind_of_missing found]
      refine ⟨⟨_, expression⟩, List.mem_append_right _ (List.mem_singleton_self _), rfl, rfl⟩

/-- The constants of a capture are the ones there were, or that of the expression. -/
theorem binding_mem_of_bind
    {expression : Expression} {state : Capture} {binding : OldBinding}
    (member : binding ∈ (Capture.bind expression state).2.captured.bindings) :
    binding ∈ state.captured.bindings ∨ binding.init = expression := by
  cases found : state.captured.find? expression with
  | some other =>
      rw [bind_of_found found] at member
      exact .inl member
  | none =>
      rw [bind_of_missing found] at member
      rcases List.mem_append.mp member with old | new
      · exact .inl old
      · rw [List.mem_singleton.mp new]
        exact .inr rfl

/-! ## The hooks of the replacement -/

section

variable {marker : String}

/-- What is no call of the marker is left to be looked into. -/
theorem expression_of_unmarked
    {source : Expression} (unmarked : argument? marker source = none) :
    (replacer marker).expression source = pure none := by
  simp only [replacer, unmarked]

/-- A call of the marker is replaced by a reference to the constant of its argument. -/
theorem expression_of_marked
    {source argument : Expression} (marked : argument? marker source = some argument)
    (state : Capture) :
    (replacer marker).expression source state =
      (some (.identifier (Capture.bind argument state).1),
        { (Capture.bind argument state).2 with
          replaced := (Capture.bind argument state).2.replaced + 1 }) := by
  simp only [replacer, marked]
  rfl

/-- The hooks of the replacement add constants under fresh names only. -/
theorem follows (marker : String) :
    Replacer.Follows (replacer marker) (.ofStates Capture) course where
  statement := by
    intro source state after target gives
    cases gives
    exact .refl state
  expression := by
    intro source state after target gives
    cases found : argument? marker source with
    | none =>
        rw [expression_of_unmarked found] at gives
        cases gives
        exact .refl state
    | some argument =>
        have gives' := (expression_of_marked found state).symm.trans gives
        cases gives'
        exact ⟨(bind_precedes argument state).taken, (bind_precedes argument state).captured⟩
  function := by
    intro source state after target gives
    cases gives
    exact .refl state
  replaced := by
    intro source state after gives
    cases gives

end

/-! ## Plain results -/

/-- The initial values of all constants are plain. -/
def InitsArePlain (calls : Bool) (state : Capture) : Prop :=
  ∀ binding ∈ state.captured.bindings, binding.init.isPlain none calls = true

/-- The course of states in which constants with plain initial values are added. -/
def plainCourse (calls : Bool) : Replacer.Course Capture where
  precedes earlier later := earlier.InitsArePlain calls → later.InitsArePlain calls
  refl _ := id
  trans before after plain := after (before plain)

/-- An action of a capture gives a plain result and keeps initial values plain. -/
abbrev YieldsPlain
    {α : Type} (calls : Bool) (action : StateM Capture α) (isPlain : α → Bool) : Prop :=
  Replacer.Yields (.ofStates Capture) (plainCourse calls) action fun _ result =>
    isPlain result = true

theorem yieldsPlain_of_marked
    {marker : String} {calls : Bool} {source argument : Expression}
    {next : Option Expression → StateM Capture Expression}
    (taken : ∀ replacement, next (some replacement) = pure replacement)
    (marked : argument? marker source = some argument)
    (plain : argument.isPlain none calls = true) :
    YieldsPlain calls ((replacer marker).expression source >>= next)
      (Expression.isPlain none calls) := by
  intro state result after gives
  have equal : ((replacer marker).expression source >>= next) state =
      (.identifier (Capture.bind argument state).1,
        { (Capture.bind argument state).2 with
          replaced := (Capture.bind argument state).2.replaced + 1 }) := by
    change next ((replacer marker).expression source state).1
      ((replacer marker).expression source state).2 = _
    rw [expression_of_marked marked, taken]
    rfl
  have outcome := equal.symm.trans gives
  cases outcome
  refine ⟨fun initsPlain binding member => ?_, fun _ _ _ => by simp only [Expression.isPlain]⟩
  rcases binding_mem_of_bind member with old | new
  · exact initsPlain binding old
  · rw [new]
    exact plain

theorem yieldsPlain_of_unmarked
    {marker : String} {calls : Bool} {source : Expression}
    {next : Option Expression → StateM Capture Expression}
    (unmarked : argument? marker source = none)
    (inside : YieldsPlain calls (next none) (Expression.isPlain none calls)) :
    YieldsPlain calls ((replacer marker).expression source >>= next)
      (Expression.isPlain none calls) := by
  rw [expression_of_unmarked unmarked, pure_bind]
  exact inside

open Replacer in
mutual

/-- An expression that is plain apart from marker calls becomes plain. -/
theorem onExpression_plain
    {marker : String} {calls : Bool} : (source : Expression) →
      source.isPlain (some marker) calls = true →
        YieldsPlain calls ((replacer marker).onExpression source) (Expression.isPlain none calls)
  | .literal _, _ | .identifier _, _ | .receiver, _ => by
      rw [onExpression]
      refine yieldsPlain_of_unmarked rfl ?_
      exact .pure fun _ => by rw [Expression.isPlain]
  | .array elements, plain => by
      rw [Expression.isPlain] at plain
      rw [onExpression]
      refine yieldsPlain_of_unmarked rfl ?_
      refine (onExpressions_plain elements plain).bind fun _ => ?_
      exact .pure fun _ inner => by rw [Expression.isPlain, inner]
  | .record properties, plain => by
      rw [Expression.isPlain] at plain
      rw [onExpression]
      refine yieldsPlain_of_unmarked rfl ?_
      refine (onProperties_plain properties plain).bind fun _ => ?_
      exact .pure fun _ inner => by rw [Expression.isPlain, inner]
  | .unary _ argument, plain => by
      rw [Expression.isPlain] at plain
      rw [onExpression]
      refine yieldsPlain_of_unmarked rfl ?_
      refine (onExpression_plain argument plain).bind fun _ => ?_
      exact .pure fun _ inner => by rw [Expression.isPlain, inner]
  | .binary _ left right, plain | .logical _ left right, plain => by
      rw [Expression.isPlain, Bool.and_eq_true] at plain
      rw [onExpression]
      refine yieldsPlain_of_unmarked rfl ?_
      refine (onExpression_plain left plain.1).bind fun _ => ?_
      refine (onExpression_plain right plain.2).bind fun _ => ?_
      exact .pure fun _ second first => by rw [Expression.isPlain, first, second, Bool.and_self]
  | .conditional test consequent alternate, plain => by
      rw [Expression.isPlain, Bool.and_eq_true, Bool.and_eq_true] at plain
      rw [onExpression]
      refine yieldsPlain_of_unmarked rfl ?_
      refine (onExpression_plain test plain.1.1).bind fun _ => ?_
      refine (onExpression_plain consequent plain.1.2).bind fun _ => ?_
      refine (onExpression_plain alternate plain.2).bind fun _ => ?_
      exact .pure fun _ third second first => by
        rw [Expression.isPlain, first, second, third, Bool.and_self, Bool.and_self]
  | .call callee arguments, plain => by
      rw [onExpression]
      cases found : argument? marker (.call callee arguments) with
      | some argument =>
          rw [Expression.isPlain_of_marked found] at plain
          exact yieldsPlain_of_marked (fun _ => rfl) found plain
      | none =>
          rw [Expression.isPlain_of_unmarked (by simpa using found), Bool.and_eq_true,
            Bool.and_eq_true] at plain
          refine yieldsPlain_of_unmarked found ?_
          refine (onExpression_plain callee plain.1.2).bind fun _ => ?_
          refine (onExpressions_plain arguments plain.2).bind fun _ => ?_
          exact .pure fun _ second first => by
            rw [Expression.isPlain_of_unmarked (by simp), first, second, plain.1.1, Bool.and_self,
              Bool.and_self]
  | .construct callee arguments, plain => by
      rw [Expression.isPlain, Bool.and_eq_true, Bool.and_eq_true] at plain
      rw [onExpression]
      refine yieldsPlain_of_unmarked rfl ?_
      refine (onExpression_plain callee plain.1.2).bind fun _ => ?_
      refine (onExpressions_plain arguments plain.2).bind fun _ => ?_
      exact .pure fun _ second first => by
        rw [Expression.isPlain, first, second, plain.1.1, Bool.and_self, Bool.and_self]
  | .member object _, plain => by
      rw [Expression.isPlain] at plain
      rw [onExpression]
      refine yieldsPlain_of_unmarked rfl ?_
      refine (onExpression_plain object plain).bind fun _ => ?_
      exact .pure fun _ inner => by rw [Expression.isPlain, inner]
  | .index object key, plain => by
      rw [Expression.isPlain, Bool.and_eq_true] at plain
      rw [onExpression]
      refine yieldsPlain_of_unmarked rfl ?_
      refine (onExpression_plain object plain.1).bind fun _ => ?_
      refine (onExpression_plain key plain.2).bind fun _ => ?_
      exact .pure fun _ second first => by rw [Expression.isPlain, first, second, Bool.and_self]
  | .sequence expressions, plain => by
      rw [Expression.isPlain] at plain
      rw [onExpression]
      refine yieldsPlain_of_unmarked rfl ?_
      refine (onExpressions_plain expressions plain).bind fun _ => ?_
      exact .pure fun _ inner => by rw [Expression.isPlain, inner]
  | .lambda _, plain | .update _ _ _, plain | .assign _ _ _, plain | .yield _ _, plain
  | .await _, plain => by
      simp [Expression.isPlain] at plain

/-- Expressions that are plain apart from marker calls become plain. -/
theorem onExpressions_plain
    {marker : String} {calls : Bool} : (source : List Expression) →
      arePlain (some marker) calls source = true →
        YieldsPlain calls ((replacer marker).onExpressions source) (arePlain none calls)
  | [], _ => by
      rw [onExpressions]
      exact .pure fun _ => by rw [arePlain]
  | expression :: rest, plain => by
      rw [arePlain, Bool.and_eq_true] at plain
      rw [onExpressions]
      refine (onExpression_plain expression plain.1).bind fun _ => ?_
      refine (onExpressions_plain rest plain.2).bind fun _ => ?_
      exact .pure fun _ second first => by rw [arePlain, first, second, Bool.and_self]

/-- Values of properties that are plain apart from marker calls become plain. -/
theorem onProperties_plain
    {marker : String} {calls : Bool} : (source : List Property) →
      valuesArePlain (some marker) calls source = true →
        YieldsPlain calls ((replacer marker).onProperties source) (valuesArePlain none calls)
  | [], _ => by
      rw [onProperties]
      exact .pure fun _ => by rw [valuesArePlain]
  | ⟨_, value⟩ :: rest, plain => by
      rw [valuesArePlain, Bool.and_eq_true] at plain
      rw [onProperties]
      refine (onExpression_plain value plain.1).bind fun _ => ?_
      refine (onProperties_plain rest plain.2).bind fun _ => ?_
      exact .pure fun _ second first => by rw [valuesArePlain, first, second, Bool.and_self]

end

end Capture

/-! ## Conditions whose values on entry are captured -/

/--
What may stand in the place of a marker call: a reference to a constant whose
initial value has the same source text as the argument.
-/
def OldBindings.exchange (captured : OldBindings) (marker : Option String) : Exchange where
  name _ := True
  function source target := source = target
  expression source target :=
    ∃ name ∈ marker, ∃ argument, Capture.argument? name source = some argument ∧
      ∃ binding ∈ captured.bindings,
        binding.init.source = argument.source ∧ target = .identifier binding.name
  statement _ _ := False

/-- A condition whose marker calls are replaced by references to constants. -/
structure Condition.CapturedAs
    (captured : OldBindings) (marker : Option String) (source target : Condition) : Prop where
  test : (captured.exchange marker).OnExpression source.test target.test
  message : (captured.exchange marker).OnOptional source.message? target.message?

/-- A condition is plain if its test and its message are. -/
def Condition.isPlain (marker : Option String) (calls : Bool) (condition : Condition) : Bool :=
  condition.test.isPlain marker calls && isPlainIfAny marker calls condition.message?

/-- Conditions without effects are plain if calls are allowed. -/
theorem Condition.Clean.isPlain
    {condition : Condition} (clean : condition.Clean) (marker : Option String) :
    condition.isPlain marker true = true := by
  rw [Condition.isPlain, isPlain_of_effectless _ clean.test, Bool.true_and]
  have effectless := clean.message
  cases written : condition.message? with
  | none => rfl
  | some message =>
      rw [written] at effectless
      exact isPlain_of_effectless message effectless

/-- A guard clause with a plain test and a plain message. -/
def IsPlainGuard (calls : Bool) (guard : Statement) : Prop :=
  ∃ test message,
    guard = guardClause test message ∧
      test.isPlain none calls = true ∧ message.isPlain none calls = true

/-- The clause of a plain condition is a plain guard. -/
theorem Condition.isPlainGuard_clause
    {condition : Condition} {calls : Bool}
    (plain : condition.isPlain none calls = true) (site : Site) :
    IsPlainGuard calls (condition.clause site) := by
  rw [Condition.isPlain, Bool.and_eq_true] at plain
  refine ⟨condition.test, condition.message site, rfl, plain.1, ?_⟩
  have messagePlain := plain.2
  unfold Condition.message
  cases written : condition.message? with
  | none => rw [Option.getD_none, Expression.isPlain]
  | some message =>
      rw [written] at messagePlain
      exact messagePlain

/-- The clauses of plain conditions are plain guards. -/
theorem isPlainGuard_of_mem_map_clause
    {found : List Condition} {calls : Bool} {site : Site}
    (plain : ∀ condition ∈ found, condition.isPlain none calls = true) :
    ∀ guard ∈ found.map (Condition.clause site), IsPlainGuard calls guard := by
  intro guard member
  obtain ⟨condition, among, rfl⟩ := List.mem_map.mp member
  exact Condition.isPlainGuard_clause (plain condition among) site

namespace Capture

/-- Whatever a replacement did up to a state, it did with the constants of that state. -/
theorem exchange_within
    {marker : String} {earliest latest : Capture} :
    ((replacer marker).exchange (.ofStates Capture) course ⟨earliest, latest⟩).Within
      (latest.captured.exchange (some marker)) where
  name := id
  function := by
    rintro source target ⟨state, after, _, gives, _⟩
    cases gives
    rfl
  expression := by
    rintro source target ⟨state, after, _, gives, late⟩
    cases found : argument? marker source with
    | none =>
        rw [expression_of_unmarked found] at gives
        cases gives
    | some argument =>
        have outcome := (expression_of_marked found state).symm.trans gives
        cases outcome
        obtain ⟨binding, member, name, init⟩ := exists_binding_of_bind argument state
        exact ⟨marker, rfl, argument, found, binding, late.binding_mem member, init, by rw [name]⟩
  statement := by
    rintro source target ⟨state, after, _, gives, _⟩
    cases gives

/-- Replacing marker calls in a condition relates it to the result. -/
theorem replaceInCondition_yields (marker : String) (condition : Condition) :
    Replacer.Yields (.ofStates Capture) course (replaceInCondition marker condition)
      fun span result =>
        ((replacer marker).exchange (.ofStates Capture) course span).OnExpression
            condition.test result.test ∧
          ((replacer marker).exchange (.ofStates Capture) course span).OnOptional
            condition.message? result.message? := by
  refine (Replacer.onExpression_yields (follows marker) condition.test).bind fun _ => ?_
  refine (Replacer.onOptional_yields (follows marker) condition.message?).bind fun _ => ?_
  exact .pure fun _ message test => ⟨test, message⟩

/-- A condition that is plain apart from marker calls becomes plain. -/
theorem replaceInCondition_plain
    {marker : String} {calls : Bool} (condition : Condition)
    (plain : condition.isPlain (some marker) calls = true) :
    YieldsPlain calls (replaceInCondition marker condition) (Condition.isPlain none calls) := by
  rw [Condition.isPlain, Bool.and_eq_true] at plain
  refine (onExpression_plain condition.test plain.1).bind fun test => ?_
  have messages : YieldsPlain calls ((replacer marker).onOptional condition.message?)
      (isPlainIfAny none calls) := by
    cases written : condition.message? with
    | none =>
        rw [Replacer.onOptional]
        exact .pure fun _ => rfl
    | some expression =>
        rw [written] at plain
        rw [Replacer.onOptional]
        refine (onExpression_plain expression plain.2).bind fun _ => ?_
        exact .pure fun _ inner => inner
  exact messages.bind fun _ => .pure fun _ messagePlain testPlain => by
    rw [Condition.isPlain, testPlain, messagePlain, Bool.and_self]

end Capture

end Covenant.Contract
