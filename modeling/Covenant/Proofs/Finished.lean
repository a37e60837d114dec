import Covenant.Proofs.Deep
import Covenant.Proofs.Nested

/-!
# What a transformation leaves in functions

Before the functions in a finished block are transformed, some of them are as
they were written and the others are those of checkers.  Afterwards all of them
are finished.  Here this is said for requirements of any kind: what is required
of written functions, and what is then known of finished ones.
-/

namespace Covenant.Contract

/-! ## What a transformation adds -/

section

variable {parts : Parts}
  (free : ∀ expression : Expression, functionsOf (expression.nodes false) = [] →
    parts.expression expression)

include free

/-- A guard meets every requirement that expressions without functions meet. -/
theorem onStatement_of_isPlainGuard
    {guard : Statement} {calls : Bool} (plain : IsPlainGuard calls guard) :
    parts.OnStatement guard := by
  obtain ⟨test, message, rfl, testPlain, messagePlain⟩ := plain
  have noTest := test.functionsOf_plain testPlain
  have noMessage := message.functionsOf_plain messagePlain
  simp only [guardClause, Parts.OnStatement, Parts.OnStatements, Parts.OnAlternate, and_true]
  refine ⟨free _ ?_, free _ ?_⟩
  · rw [Expression.nodes, functionsOf_cons_expression, noTest]
  · simp [Expression.nodes, nodesOfExpressions, noMessage]

end

/-- The statements of a checker's function. -/
def Checker.statements (checker : Checker) (parameter : String) : List Statement :=
  checker.guards ++ [.giveBack (some (.identifier parameter))]

/-- There are no functions in the function of a checker. -/
theorem Checker.onStatements_all
    {checker : Checker} {calls : Bool} (plain : ∀ guard ∈ checker.guards, IsPlainGuard calls guard)
    (parameter : String) (property : Function → Prop) :
    (Parts.all property).OnStatements (checker.statements parameter) := by
  have free : ∀ expression : Expression, functionsOf (expression.nodes false) = [] →
      (Parts.all property).expression expression := by
    intro expression none function member
    rw [none] at member
    cases member
  rw [Checker.statements, Parts.onStatements_append]
  constructor
  · refine Parts.onStatements_iff.mpr fun guard member => ?_
    exact onStatement_of_isPlainGuard free (plain guard member)
  · rw [Parts.onStatements_singleton, Parts.OnStatement]
    intro given equal
    cases equal
    exact free _ (by rw [Expression.nodes]; rfl)

/-! ## Before the functions are transformed -/

/--
What is required before the functions in statements are transformed: written
functions have one property, and functions in other declarations another one.
-/
abbrev between (written finished : Function → Prop) (known : String → Prop) : Parts :=
  Parts.known written known fun declarators =>
    AllFunctions finished (nodesOfDeclarators false declarators)

section

variable {written finished : Function → Prop} {known : String → Prop}

theorem between_of_noFunctions
    {expression : Expression} (none : functionsOf (expression.nodes false) = []) :
    (between written finished known).expression expression := by
  intro function member
  rw [none] at member
  cases member

theorem between_routes (checker : Checker) : (between written finished known).Routes checker where
  argument := by
    intro argument holds
    have inner : AllFunctions written (argument.nodes false) := holds
    change AllFunctions written _
    simpa [Checker.call, Expression.nodes, nodesOfExpressions] using inner
  bare := between_of_noFunctions (by simp [Checker.call, Expression.nodes, nodesOfExpressions])
  check := between_of_noFunctions (by simp [Checker.call, Expression.nodes, nodesOfExpressions])

/-- The functions of checkers have the property of finished ones. -/
def OfCheckers (finished : Function → Prop) : Prop :=
  ∀ {checker : Checker}, (∀ guard ∈ checker.guards, IsPlainGuard true guard) →
    ∀ parameter, finished (checker.function parameter)

section

variable (ofCheckers : OfCheckers finished)

include ofCheckers

theorem between_declaration
    {checker : Checker} (plain : ∀ guard ∈ checker.guards, IsPlainGuard true guard)
    (parameter : String) :
    (between written finished known).OnStatement (checker.declaration parameter) := by
  rw [Checker.declaration, Parts.OnStatement]
  refine .inr ?_
  intro function member
  simp only [nodesOfDeclarators, nodesOfOptional, Expression.nodes, Function.nodes_false,
    List.append_nil, functionsOf_cons_expression, functionsOf_cons_function, functionsOf_nil,
    List.mem_singleton] at member
  rw [member]
  exact ofCheckers plain parameter

/-- Everything that a walk may add is allowed. -/
theorem between_admits (parameter : String) (last : Pass) :
    Admits (between written finished known) parameter last where
  guard := onStatement_of_isPlainGuard fun _ none => between_of_noFunctions none
  routes := fun {checker} _ => between_routes checker
  declaration := fun wired => between_declaration ofCheckers wired.plain parameter

end

/-- Routing through postconditions keeps whatever routing through each of them keeps. -/
theorem onStatements_applyPostconditions
    {parts : Parts} (routes : ∀ checker, parts.Routes checker) (checkers : List Checker) :
    ∀ statements, parts.OnStatements statements →
      parts.OnStatements (checkers.foldl applyPostcondition statements) := by
  induction checkers with
  | nil => exact fun _ holds => holds
  | cons checker rest induction =>
      intro statements holds
      rw [List.foldl_cons]
      refine induction _ ?_
      rw [applyPostcondition, Checker.appendExitCheck, Parts.onStatements_append]
      exact ⟨Parts.onStatements_routeAll (routes checker) statements holds,
        Parts.onStatements_exitCheck (routes checker) _⟩

/-- Finishing a walk adds nothing but functions of checkers. -/
theorem between_finish
    (ofCheckers : OfCheckers finished) {parameter : String} {pass : Pass}
    {statements : List Statement} (sound : pass.Sound)
    (holds : (between written finished known).OnStatements statements) :
    (between written finished known).OnStatements (finish parameter pass statements) := by
  rw [finish, prologue, Parts.onStatements_append, Parts.onStatements_append]
  refine ⟨⟨?_, ?_⟩, onStatements_applyPostconditions between_routes _ _ holds⟩
  · refine Parts.onStatements_iff.mpr fun statement member => ?_
    obtain ⟨checker, among, rfl⟩ := List.mem_map.mp member
    exact between_declaration ofCheckers (sound.checkers checker among).2 parameter
  · refine Parts.onStatements_iff.mpr fun statement member => ?_
    obtain ⟨binding, among, rfl⟩ := List.mem_map.mp member
    rw [Parts.OnStatement]
    refine .inr fun function inside => ?_
    have none := binding.init.functionsOf_plain (sound.captured binding among).2.2
    simp [nodesOfDeclarators, nodesOfOptional, none] at inside

/-! ## After the functions are transformed -/

/-- All functions are finished if a transformation finishes them and keeps finished ones so. -/
theorem between_carried
    {transform : Function → Transforming Function} {earliest latest : Work}
    (sound : earliest.Sound known)
    (finishes : ∀ {source target : Function} {state after : Work},
      written source → state.Sound known →
        transform source state = .ok (target, after) → finished target)
    (again : ∀ {source target : Function} {state after : Work},
      finished source → transform source state = .ok (target, after) → finished target) :
    Parts.Carried (nestedExchange transform earliest latest) (between written finished known)
      (Parts.all finished) := by
  have first {source target : Function}
      (related : (nestedExchange transform earliest latest).function source target)
      (holds : written source) : finished target := by
    obtain ⟨state, after, early, outcome, _⟩ := related
    exact finishes holds (sound.later early) outcome
  have second {source target : Function}
      (related : (nestedExchange transform earliest latest).function source target)
      (holds : finished source) : finished target := by
    obtain ⟨state, after, _, outcome, _⟩ := related
    exact again holds outcome
  have kept : ∀ source target,
      ¬ (nestedExchange transform earliest latest).expression source target :=
    fun _ _ => id
  refine ⟨?_, first, ?_, ?_⟩
  · intro source target related holds
    exact AllFunctions.of_pairs (related.functions kept) first holds
  · intro source target related holds
    rcases holds with own | added
    · exact AllFunctions.of_pairs (related.functions kept) first own.functions
    · exact AllFunctions.of_pairs (related.functions kept) second added
  · -- A declaration that is passed over is that of a checker: its names are not known.
    rintro source target ⟨rfl, state, early, _, declares⟩ holds
    unfold declaresHelpers at declares
    split at declares
    case h_2 => cases declares
    case h_1 kind declarators =>
      rw [Parts.OnStatement] at holds ⊢
      rcases holds with own | added
      · cases declarators with
        | nil => exact .nil
        | cons declarator rest =>
            have helper : declarator.name ∈ state.helperNames := by
              simpa using List.all_eq_true.mp declares declarator List.mem_cons_self
            have name := own.names declarator.name List.mem_cons_self
            exact (((sound.later early).known name).2 helper).elim
      · exact added

end

end Covenant.Contract
