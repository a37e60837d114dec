import Covenant.Proofs.Governed
import Covenant.Proofs.Guarantee
import Covenant.Proofs.Unwrapped

/-!
# What is read of a finished function

A walk leaves statements behind whose returns are routed through the helpers of
invariants.  Then the postconditions are applied to them, declarations are put
in front, and the functions in them are transformed.  All of this keeps the
helpers that are declared around a return; the returned values are routed
further, and the functions in them become other ones.

None of it wraps any other expression.
-/

namespace Covenant.Contract

/-! ## Transforming nested functions leaves what was read -/

/-- A return with an exchanged argument. -/
def GovernedReturn.Exchanged (exchange : Exchange) (first second : GovernedReturn Statement) :
    Prop :=
  first.governors = second.governors ∧ exchange.OnOptional first.argument second.argument

/-- A reading with exchanged arguments. -/
structure Reading.Exchanged (exchange : Exchange) (first second : Reading Statement) : Prop where
  governors : first.governors = second.governors
  returns : List.Forall₂ (GovernedReturn.Exchanged exchange) first.returns second.returns

namespace Reading

variable {exchange : Exchange} {first second third fourth : Reading Statement}

theorem Exchanged.empty : Exchanged exchange empty empty :=
  ⟨rfl, .nil⟩

theorem Exchanged.governing (governor : Statement) :
    Exchanged exchange (governing governor) (governing governor) :=
  ⟨rfl, .nil⟩

theorem Exchanged.enclosed (exchanged : Exchanged exchange first second) :
    Exchanged exchange first.enclosed second.enclosed :=
  ⟨rfl, exchanged.returns⟩

theorem Exchanged.follow
    (left : Exchanged exchange first second) (right : Exchanged exchange third fourth) :
    Exchanged exchange (first.follow third) (second.follow fourth) where
  governors := congrArg₂ (· ++ ·) left.governors right.governors
  returns := by
    refine List.rel_append ?_ ?_
    · refine List.forall₂_map_left_iff.mpr (List.forall₂_map_right_iff.mpr ?_)
      refine left.returns.imp fun one two inner => ⟨?_, inner.2⟩
      simp only [GovernedReturn.within, inner.1, right.governors]
    · refine List.forall₂_map_left_iff.mpr (List.forall₂_map_right_iff.mpr ?_)
      refine right.returns.imp fun one two inner => ⟨?_, inner.2⟩
      simp only [GovernedReturn.within, inner.1, left.governors]

end Reading

section

set_option linter.unusedSectionVars false

variable {names : List String} {exchange : Exchange} {parts : Parts}

/-- An exchange leaves the functions of helpers alone. -/
def LeavesHelpers (names : List String) (exchange : Exchange) (parts : Parts) : Prop :=
  ∀ {name : String} {function other : Function},
    parts.declared [⟨name, some (.lambda function)⟩] → name ∉ names →
      exchange.function function other → other = function

variable (only : OnlyFunctions exchange) (leaves : LeavesHelpers names exchange parts)

include only leaves

/-- Exchanged declarations are the same, or neither of them declares a helper. -/
theorem eq_or_declaresHelper_eq_false
    {kind : DeclarationKind} {source target : List Declarator}
    (holds : parts.declared source) (inner : exchange.OnDeclarators source target) :
    target = source ∨
      declaresHelper names (.bindings kind source) = false ∧
        declaresHelper names (.bindings kind target) = false := by
  cases inner with
  | nil => exact .inl rfl
  | @cons name _ _ _ _ _ init rest =>
      cases rest with
      | cons _ _ _ => exact .inr ⟨by simp [declaresHelper], by simp [declaresHelper]⟩
      | nil =>
          cases init with
          | none => exact .inl rfl
          | some given =>
              cases given with
              | exchanged absurd => exact (only.expression absurd).elim
              | lambda given =>
                  by_cases known : name ∈ names
                  · refine .inr ⟨?_, ?_⟩ <;> cases kind <;> simp [declaresHelper, known]
                  · rw [leaves holds known given]
                    exact .inl rfl
              | _ => exact .inr ⟨by simp [declaresHelper], by simp [declaresHelper]⟩

/-- Exchanged declarations declare the same helpers. -/
theorem readOutput_bindings
    {kind : DeclarationKind} {source target : List Declarator}
    (holds : parts.declared source) (inner : exchange.OnDeclarators source target) :
    Reading.Exchanged exchange (readOutput names (.bindings kind source))
      (readOutput names (.bindings kind target)) := by
  rw [readOutput, readOutput]
  rcases eq_or_declaresHelper_eq_false only leaves holds inner with rfl | ⟨neither, nor⟩
  · split
    · exact .governing _
    · exact .empty
  · rw [neither, nor]
    exact .empty

mutual

/-- What is read of exchanged statements are the same helpers and exchanged returns. -/
theorem readOutput_of_exchange {source target : Statement} :
    exchange.OnStatement source target → parts.OnStatement source →
      Reading.Exchanged exchange (readOutput names source) (readOutput names target)
  | .exchanged given, _ => by
      obtain ⟨rfl, kind, declarators, rfl⟩ := only.statement given
      rw [readOutput]
      split
      · exact .governing _
      · exact .empty
  | .block inner, holds => by
      rw [Parts.OnStatement] at holds
      rw [readOutput, readOutput]
      exact (readOutputAll_of_exchange inner holds).enclosed
  | .labeled inner, holds => by
      rw [Parts.OnStatement] at holds
      rw [readOutput, readOutput]
      exact (readOutput_of_exchange inner holds).enclosed
  | .giveBack inner, _ => by
      rw [readOutput, readOutput]
      exact ⟨rfl, .cons ⟨rfl, inner⟩ .nil⟩
  | .branch _ consequent alternate, holds => by
      rw [Parts.OnStatement] at holds
      rw [readOutput, readOutput]
      exact (readOutput_of_exchange consequent holds.2.1).enclosed.follow
        (readOutputAlternate_of_exchange alternate holds.2.2)
  | .whileLoop _ inner, holds | .doWhileLoop inner _, holds => by
      rw [Parts.OnStatement] at holds
      rw [readOutput, readOutput]
      exact (readOutput_of_exchange inner holds.2).enclosed
  | .forLoop _ _ _ inner, holds => by
      rw [Parts.OnStatement] at holds
      rw [readOutput, readOutput]
      exact (readOutput_of_exchange inner holds.2.2.2).enclosed
  | .bindings inner, holds => by
      rw [Parts.OnStatement] at holds
      exact readOutput_bindings only leaves holds inner
  | .evaluate _, _ | .declare _, _ | .raise _, _ => by
      rw [readOutput, readOutput]
      exact .empty
  | .breakOut _, _ | .continueLoop _, _ | .empty, _ => by
      rw [readOutput]
      exact .empty

theorem readOutputAlternate_of_exchange {source target : Option Statement} :
    exchange.OnAlternate source target → parts.OnAlternate source →
      Reading.Exchanged exchange (readOutputAlternate names source)
        (readOutputAlternate names target)
  | .none, _ => by
      rw [readOutputAlternate]
      exact .empty
  | .some inner, holds => by
      rw [Parts.OnAlternate] at holds
      rw [readOutputAlternate, readOutputAlternate]
      exact (readOutput_of_exchange inner holds).enclosed

/-- What is read of exchanged lists are the same helpers and exchanged returns. -/
theorem readOutputAll_of_exchange {source target : List Statement} :
    exchange.OnStatements source target → parts.OnStatements source →
      Reading.Exchanged exchange (readOutputAll names source) (readOutputAll names target)
  | .nil, _ => by
      rw [readOutputAll]
      exact .empty
  | .cons head rest, holds => by
      rw [Parts.OnStatements] at holds
      rw [readOutputAll, readOutputAll]
      exact (readOutput_of_exchange head holds.1).follow (readOutputAll_of_exchange rest holds.2)

end

end

/-! ## What transforming nested functions leaves of routed values -/

section

variable {exchange : Exchange}

/-- An exchange in a value that passes through helpers is one in the value itself. -/
theorem exists_of_passed (only : OnlyFunctions exchange) (checkers : List Checker) :
    ∀ {argument target : Option Expression},
      exchange.OnOptional (passed checkers argument) target →
        ∃ given, exchange.OnOptional argument given ∧ target = passed checkers given := by
  induction checkers with
  | nil => exact fun related => ⟨_, related, rfl⟩
  | cons checker rest induction =>
      intro argument target related
      obtain ⟨between, inner, rfl⟩ := induction related
      cases inner with
      | some called =>
          obtain ⟨other, given, rfl⟩ := exists_of_call only called
          cases argument with
          | none =>
              refine ⟨none, .none, ?_⟩
              rw [id, Option.getD_none] at given
              rw [eq_of_literal only given]
              rfl
          | some argument => exact ⟨some other, .some given, rfl⟩

end

/-! ## Postconditions and declarations -/

section

variable {names : List String}

/-- Postconditions route all returns, and nothing else is read of them. -/
theorem readOutputAll_applyPostconditions (checkers : List Checker) :
    ∀ statements,
      readOutputAll names (checkers.foldl applyPostcondition statements) =
        (readOutputAll names statements).withArguments (passed checkers) := by
  induction checkers with
  | nil =>
      intro statements
      rw [List.foldl_nil, Reading.withArguments_passed_nil]
  | cons checker rest induction =>
      intro statements
      have routed : readOutputAll names (applyPostcondition statements checker) =
          (readOutputAll names statements).withArguments (passed [checker]) := by
        rw [applyPostcondition, Checker.appendExitCheck, readOutputAll_append,
          readOutputAll_exitCheck, Reading.follow_empty, readOutputAll_routeAll]
        rfl
      rw [List.foldl_cons, induction, routed, ← Reading.withArguments_passed_append,
        List.singleton_append]

/-- Declarations of helpers are read one by one. -/
theorem readOutputAll_declarations
    {checkers : List Checker} (unknown : ∀ checker ∈ checkers, checker.name ∉ names)
    (parameter : String) :
    readOutputAll names (checkers.map (·.declaration parameter)) =
      ⟨checkers.map (·.declaration parameter), []⟩ := by
  induction checkers with
  | nil =>
      rw [List.map_nil, readOutputAll]
      rfl
  | cons checker rest induction =>
      have parts := List.forall_mem_cons.mp unknown
      rw [List.map_cons, readOutputAll, readOutput_declaration parts.1, induction parts.2]
      rfl

/-- Constants for values on entry are not declarations of helpers. -/
theorem readOutputAll_constants
    {captured : OldBindings} (plain : ∀ binding ∈ captured.bindings, binding.init.isPlain none true) :
    readOutputAll names captured.declarations = .empty := by
  refine readOutputAll_eq_empty fun statement member => ?_
  obtain ⟨binding, among, rfl⟩ := List.mem_map.mp member
  have given := plain binding among
  rw [readOutput, if_neg]
  cases init : binding.init with
  | lambda function =>
      rw [init, Expression.isPlain] at given
      cases given
  | _ => simp [declaresHelper]

/-- What is read of the front of a function are the helpers of its postconditions. -/
theorem readOutputAll_prologue
    {pass : Pass} (sound : pass.Sound)
    (unknown : ∀ checker ∈ pass.postconditions, checker.name ∉ names) (parameter : String) :
    readOutputAll names (prologue parameter pass) =
      ⟨pass.postconditions.map (·.declaration parameter), []⟩ := by
  rw [prologue, readOutputAll_append, readOutputAll_declarations unknown,
    readOutputAll_constants fun binding among => (sound.captured binding among).2.2,
    Reading.follow_empty]

end

/-! ## Nothing else is wrapped -/

section

variable {known : String → Prop} {exchange : Exchange}

section

set_option linter.unusedSectionVars false

variable (only : OnlyFunctions exchange) (change : Option Expression → Option Expression)
  (changes : ∀ {source target}, exchange.OnOptional source target →
    exchange.OnOptional (change source) (change target))

include only changes

mutual

/-- Exchanged statements are exchanged under a change of their returned values. -/
theorem onStatement_mapReturns {source target : Statement} :
    exchange.OnStatement source target →
      exchange.OnStatement (mapReturns change source) (mapReturns change target)
  | .exchanged given => by
      obtain ⟨rfl, kind, declarators, rfl⟩ := only.statement given
      simpa [mapReturns] using .exchanged given
  | .block inner => by
      rw [mapReturns, mapReturns]
      exact .block (onStatements_mapReturns inner)
  | .labeled inner => by
      rw [mapReturns, mapReturns]
      exact .labeled (onStatement_mapReturns inner)
  | .giveBack inner => by
      rw [mapReturns, mapReturns]
      exact .giveBack (changes inner)
  | .branch test consequent alternate => by
      rw [mapReturns, mapReturns]
      exact .branch test (onStatement_mapReturns consequent) (onAlternate_mapReturns alternate)
  | .whileLoop test inner => by
      rw [mapReturns, mapReturns]
      exact .whileLoop test (onStatement_mapReturns inner)
  | .doWhileLoop inner test => by
      rw [mapReturns, mapReturns]
      exact .doWhileLoop (onStatement_mapReturns inner) test
  | .forLoop init test update inner => by
      rw [mapReturns, mapReturns]
      exact .forLoop init test update (onStatement_mapReturns inner)
  | .evaluate inner => by simpa [mapReturns] using .evaluate inner
  | .bindings inner => by simpa [mapReturns] using .bindings inner
  | .declare inner => by simpa [mapReturns] using .declare inner
  | .raise inner => by simpa [mapReturns] using .raise inner
  | .breakOut label => by simpa [mapReturns] using .breakOut label
  | .continueLoop label => by simpa [mapReturns] using .continueLoop label
  | .empty => by simpa [mapReturns] using .empty

theorem onAlternate_mapReturns {source target : Option Statement} :
    exchange.OnAlternate source target →
      exchange.OnAlternate (mapReturnsOfAlternate change source)
        (mapReturnsOfAlternate change target)
  | .none => by
      rw [mapReturnsOfAlternate]
      exact .none
  | .some inner => by
      rw [mapReturnsOfAlternate, mapReturnsOfAlternate]
      exact .some (onStatement_mapReturns inner)

theorem onStatements_mapReturns {source target : List Statement} :
    exchange.OnStatements source target →
      exchange.OnStatements (mapReturnsOfAll change source) (mapReturnsOfAll change target)
  | .nil => by
      rw [mapReturnsOfAll]
      exact .nil
  | .cons head rest => by
      rw [mapReturnsOfAll, mapReturnsOfAll]
      exact .cons (onStatement_mapReturns head) (onStatements_mapReturns rest)

end

end

/-- Transforming nested functions leaves what is unwrapped. -/
theorem carried_unwrapped (only : OnlyFunctions exchange) :
    Parts.Carried exchange (unwrapped known) (unwrapped known) where
  expression := by
    rintro source target related (refers | ⟨name, rfl⟩)
    · exact .inl (related.refers (fun _ _ => only.expression) refers)
    · refine .inr ⟨name, ?_⟩
      cases related with
      | exchanged given => exact (only.expression given).elim
      | call callee arguments =>
          cases arguments
          cases callee with
          | exchanged given => exact (only.expression given).elim
          | identifier _ => rfl
  function _ _ := trivial
  declared related refers := related.refers (fun _ _ => only.expression) refers
  statement := by
    intro source target given holds
    obtain ⟨rfl, _⟩ := only.statement given
    exact holds

/-- Bounded nodes refer to known names only. -/
theorem refers_of_bounded
    {size : Nat} {shallow deep : List Node} (bounded : Bounded size known deep)
    (sublist : shallow.Sublist deep) :
    ∀ name ∈ references shallow, known name := by
  intro name member
  obtain ⟨node, among, equal⟩ := List.mem_filterMap.mp member
  refine bounded.names node (sublist.subset among) name ?_
  unfold Node.reference? at equal
  split at equal
  · cases equal
    exact List.mem_singleton_self _
  · cases equal

/-- A source refers to known names only. -/
theorem referring_of_bounded
    {size : Nat} {statements : List Statement}
    (bounded : Bounded size known (nodesOfStatements true statements)) :
    (referring known).OnStatements statements := by
  refine Parts.OnStatements.imp ⟨?_, fun _ => trivial, ?_⟩ statements
    ((Bounded.inherited size known).withinStatements statements bounded)
  · exact fun {expression} given => refers_of_bounded given expression.nodes_sublist
  · exact fun given => refers_of_bounded given.1 (nodesOfDeclarators_sublist _)

/-- Postconditions route returned values and wrap nothing else. -/
theorem unwrapped_applyPostconditions (checkers : List Checker) :
    ∀ {statements},
      (unwrapped known).UnderAll omitted statements →
        (unwrapped known).UnderAll omitted (checkers.foldl applyPostcondition statements) := by
  induction checkers with
  | nil => exact id
  | cons checker rest induction =>
      intro statements holds
      rw [List.foldl_cons]
      refine induction ?_
      rw [applyPostcondition, Checker.appendExitCheck, Parts.underAll_append,
        Parts.underAll_routeAll absorbs_omitted]
      exact ⟨holds, unwrapped_exitCheck checker _⟩

/-- What stands in front of a function wraps nothing. -/
theorem unwrapped_prologue
    {pass : Pass} (inits : pass.InitsRefer known) (parameter : String) :
    (unwrapped known).UnderAll omitted (prologue parameter pass) := by
  rw [prologue, Parts.underAll_append]
  constructor
  · intro statement member
    obtain ⟨checker, _, rfl⟩ := List.mem_map.mp member
    exact unwrapped_declaration checker parameter
  · intro statement member
    obtain ⟨binding, among, rfl⟩ := List.mem_map.mp member
    rw [Parts.Under, mapReturns, Parts.OnStatement]
    · change ∀ name ∈ references _, known name
      rw [nodesOfDeclarators, nodesOfDeclarators, nodesOfOptional, List.append_nil]
      exact inits binding among
    all_goals intros; contradiction

end

end Covenant.Contract
