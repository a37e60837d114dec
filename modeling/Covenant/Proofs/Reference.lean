import Covenant.Proofs.Idempotence

/-!
# Which names are referred to

The names that an expression refers to outside functions.  Conditions refer to
what their body refers to, the constants for values on entry to what the
arguments of markers refer to, and transforming the functions in an expression
leaves its references as they are.
-/

namespace Covenant

/-- The name that a node refers to. -/
def Node.reference? : Node → Option String
  | .expression (.identifier name) => some name
  | _ => none

/-- The names that nodes refer to. -/
def references (nodes : List Node) : List String :=
  nodes.filterMap Node.reference?

@[simp]
theorem references_nil : references [] = [] :=
  rfl

@[simp]
theorem references_cons_identifier (name : String) (nodes : List Node) :
    references (.expression (.identifier name) :: nodes) = name :: references nodes :=
  rfl

@[simp]
theorem references_append (first second : List Node) :
    references (first ++ second) = references first ++ references second :=
  List.filterMap_append

theorem references_append_congr
    {first second first' second' : List Node} (left : references first = references first')
    (right : references second = references second') :
    references (first ++ second) = references (first' ++ second') := by
  rw [references_append, references_append, left, right]

theorem forall_references_append {known : String → Prop} {first second : List Node} :
    (∀ name ∈ references (first ++ second), known name) ↔
      (∀ name ∈ references first, known name) ∧ ∀ name ∈ references second, known name := by
  rw [references_append, List.forall_mem_append]

/-- An expression refers to known names only, functions not entered. -/
def Expression.Refers (known : String → Prop) (expression : Expression) : Prop :=
  ∀ name ∈ references (expression.nodes false), known name

/-! ## Nodes outside functions -/

theorem Function.nodes_sublist (function : Function) :
    (function.nodes false).Sublist (function.nodes true) := by
  rw [Function.nodes_false, Function.nodes_true]
  exact (List.nil_sublist _).cons_cons _

mutual

/-- The nodes of an expression outside functions are among all of its nodes. -/
theorem Expression.nodes_sublist : (expression : Expression) →
    (expression.nodes false).Sublist (expression.nodes true)
  | .literal _ | .identifier _ | .receiver => by
      rw [Expression.nodes, Expression.nodes]
  | .array elements => by
      rw [Expression.nodes, Expression.nodes]
      exact (nodesOfExpressions_sublist elements).cons_cons _
  | .record properties => by
      rw [Expression.nodes, Expression.nodes]
      exact (nodesOfProperties_sublist properties).cons_cons _
  | .lambda function => by
      rw [Expression.nodes, Expression.nodes]
      exact function.nodes_sublist.cons_cons _
  | .unary _ argument | .update _ _ argument | .await argument => by
      rw [Expression.nodes, Expression.nodes]
      exact argument.nodes_sublist.cons_cons _
  | .binary _ left right | .logical _ left right => by
      rw [Expression.nodes, Expression.nodes]
      exact (left.nodes_sublist.append right.nodes_sublist).cons_cons _
  | .assign _ target value => by
      rw [Expression.nodes, Expression.nodes]
      exact (target.nodes_sublist.append value.nodes_sublist).cons_cons _
  | .conditional test consequent alternate => by
      rw [Expression.nodes, Expression.nodes]
      exact ((test.nodes_sublist.append consequent.nodes_sublist).append
        alternate.nodes_sublist).cons_cons _
  | .call callee arguments | .construct callee arguments => by
      rw [Expression.nodes, Expression.nodes]
      exact (callee.nodes_sublist.append (nodesOfExpressions_sublist arguments)).cons_cons _
  | .member object _ => by
      rw [Expression.nodes, Expression.nodes]
      exact object.nodes_sublist.cons_cons _
  | .index object key => by
      rw [Expression.nodes, Expression.nodes]
      exact (object.nodes_sublist.append key.nodes_sublist).cons_cons _
  | .sequence expressions => by
      rw [Expression.nodes, Expression.nodes]
      exact (nodesOfExpressions_sublist expressions).cons_cons _
  | .yield argument _ => by
      rw [Expression.nodes, Expression.nodes]
      exact (nodesOfOptional_sublist argument).cons_cons _

theorem nodesOfExpressions_sublist : (expressions : List Expression) →
    (nodesOfExpressions false expressions).Sublist (nodesOfExpressions true expressions)
  | [] => by
      rw [nodesOfExpressions, nodesOfExpressions]
  | expression :: rest => by
      rw [nodesOfExpressions, nodesOfExpressions]
      exact expression.nodes_sublist.append (nodesOfExpressions_sublist rest)

theorem nodesOfProperties_sublist : (properties : List Property) →
    (nodesOfProperties false properties).Sublist (nodesOfProperties true properties)
  | [] => by
      rw [nodesOfProperties, nodesOfProperties]
  | ⟨_, value⟩ :: rest => by
      rw [nodesOfProperties, nodesOfProperties]
      exact value.nodes_sublist.append (nodesOfProperties_sublist rest)

theorem nodesOfOptional_sublist : (expression : Option Expression) →
    (nodesOfOptional false expression).Sublist (nodesOfOptional true expression)
  | none => by
      rw [nodesOfOptional, nodesOfOptional]
  | some expression => by
      rw [nodesOfOptional, nodesOfOptional]
      exact expression.nodes_sublist

end

theorem nodesOfDeclarators_sublist : (declarators : List Declarator) →
    (nodesOfDeclarators false declarators).Sublist (nodesOfDeclarators true declarators)
  | [] => by
      rw [nodesOfDeclarators, nodesOfDeclarators]
  | ⟨_, init⟩ :: rest => by
      rw [nodesOfDeclarators, nodesOfDeclarators]
      exact (nodesOfOptional_sublist init).append (nodesOfDeclarators_sublist rest)

/-! ## References of related expressions -/

namespace Exchange

section

set_option linter.unusedSectionVars false

variable {exchange : Exchange}
  (kept : ∀ source target, ¬ exchange.expression source target)

include kept

mutual

/-- Expressions that differ in their functions only refer to the same names. -/
theorem OnExpression.references {source target : Expression} :
    OnExpression exchange source target →
      references (source.nodes false) = Covenant.references (target.nodes false)
  | .exchanged given => (kept _ _ given).elim
  | .literal _ | .identifier _ | .receiver => rfl
  | .array inner => inner.references
  | .record inner => inner.references
  | .lambda _ => by
      rw [Expression.nodes, Expression.nodes, Function.nodes_false, Function.nodes_false]
      rfl
  | .unary inner | .update inner | .await inner | .member inner => inner.references
  | .binary left right | .logical left right | .assign left right | .index left right => by
      rw [Expression.nodes, Expression.nodes]
      exact references_append_congr left.references right.references
  | .conditional test consequent alternate => by
      rw [Expression.nodes, Expression.nodes]
      exact references_append_congr
        (references_append_congr test.references consequent.references) alternate.references
  | .call callee arguments | .construct callee arguments => by
      rw [Expression.nodes, Expression.nodes]
      exact references_append_congr callee.references arguments.references
  | .sequence inner => inner.references
  | .yield inner => inner.references

theorem OnExpressions.references {source target : List Expression} :
    OnExpressions exchange source target →
      Covenant.references (nodesOfExpressions false source) =
        Covenant.references (nodesOfExpressions false target)
  | .nil => rfl
  | .cons head rest => by
      rw [nodesOfExpressions, nodesOfExpressions]
      exact references_append_congr head.references rest.references

theorem OnProperties.references {source target : List Property} :
    OnProperties exchange source target →
      Covenant.references (nodesOfProperties false source) =
        Covenant.references (nodesOfProperties false target)
  | .nil => rfl
  | .cons head rest => by
      rw [nodesOfProperties, nodesOfProperties]
      exact references_append_congr head.references rest.references

theorem OnOptional.references {source target : Option Expression} :
    OnOptional exchange source target →
      Covenant.references (nodesOfOptional false source) =
        Covenant.references (nodesOfOptional false target)
  | .none => rfl
  | .some inner => inner.references

end

theorem OnDeclarators.references {source target : List Declarator} :
    OnDeclarators exchange source target →
      Covenant.references (nodesOfDeclarators false source) =
        Covenant.references (nodesOfDeclarators false target) := by
  intro related
  induction related with
  | nil => rfl
  | cons _ init _ induction =>
      rw [nodesOfDeclarators, nodesOfDeclarators]
      exact references_append_congr (init.references kept) induction

/-- An expression with other functions in it refers to what the expression refers to. -/
theorem OnExpression.refers
    {known : String → Prop} {source target : Expression}
    (related : exchange.OnExpression source target) (refers : source.Refers known) :
    target.Refers known := by
  rw [Expression.Refers, ← related.references kept]
  exact refers

theorem OnDeclarators.refers
    {known : String → Prop} {source target : List Declarator}
    (related : exchange.OnDeclarators source target)
    (refers : ∀ name ∈ Covenant.references (nodesOfDeclarators false source), known name) :
    ∀ name ∈ Covenant.references (nodesOfDeclarators false target), known name := by
  rw [← related.references kept]
  exact refers

end

end Exchange

namespace Contract

/-! ## References of constants for values on entry -/

namespace Capture

/-- The initial values of all constants refer to known names. -/
def InitsRefer (known : String → Prop) (state : Capture) : Prop :=
  ∀ binding ∈ state.captured.bindings, binding.init.Refers known

/-- An action of a capture adds constants only whose initial values refer to known names. -/
def KeepsReferring {α : Type} (known : String → Prop) (action : StateM Capture α) : Prop :=
  ∀ state : Capture, state.InitsRefer known → (action state).2.InitsRefer known

section

variable {known : String → Prop} {marker : String}

theorem KeepsReferring.pure {α : Type} (value : α) :
    KeepsReferring known (Pure.pure value : StateM Capture α) :=
  fun _ refers => refers

theorem KeepsReferring.bind {α β : Type} {first : StateM Capture α} {next : α → StateM Capture β}
    (firstKeeps : KeepsReferring known first)
    (nextKeeps : ∀ value, KeepsReferring known (next value)) :
    KeepsReferring known (first >>= next) :=
  fun state refers => nextKeeps _ _ (firstKeeps state refers)

theorem KeepsReferring.mapM {α β : Type} {action : α → StateM Capture β} : (values : List α) →
    (∀ value ∈ values, KeepsReferring known (action value)) →
      KeepsReferring known (values.mapM action)
  | [], _ => by
      rw [List.mapM_nil]
      exact .pure _
  | value :: rest, each => by
      rw [List.mapM_cons]
      refine (each value List.mem_cons_self).bind fun _ => ?_
      refine (mapM rest fun other member => each other (List.mem_cons_of_mem _ member)).bind
        fun _ => ?_
      exact .pure _

/-- The hook adds a constant for the argument of a marker. -/
theorem keepsReferring_hook
    {source : Expression} {next : Option Expression → StateM Capture Expression}
    (refers : ∀ argument ∈ argument? marker source, argument.Refers known)
    (taken : ∀ replacement, next (some replacement) = Pure.pure replacement)
    (inside : KeepsReferring known (next none)) :
    KeepsReferring known ((replacer marker).expression source >>= next) := by
  cases found : argument? marker source with
  | none =>
      rw [expression_of_unmarked found, pure_bind]
      exact inside
  | some argument =>
      intro state initsRefer binding member
      change binding ∈ (next ((replacer marker).expression source state).1
        ((replacer marker).expression source state).2).2.captured.bindings at member
      rw [expression_of_marked found, taken] at member
      rcases binding_mem_of_bind member with old | new
      · exact initsRefer binding old
      · rw [new]
        exact refers argument found

theorem argument_refers
    {callee : Expression} {arguments : List Expression}
    (refers : ∀ name ∈ references (nodesOfExpressions false arguments), known name) :
    ∀ argument ∈ argument? marker (.call callee arguments), argument.Refers known := by
  intro argument member
  unfold argument? at member
  split at member
  case h_1 name only same =>
    cases same
    rw [nodesOfExpressions, forall_references_append] at refers
    split at member
    case isTrue =>
      cases member
      exact refers.1
    case isFalse => cases member
  case h_2 => cases member

open Replacer in
theorem onFunction_refers (function : Function) :
    KeepsReferring known ((replacer marker).onFunction function) := by
  obtain ⟨name, parameters, body, isArrow, isAsync, isGenerator⟩ := function
  rw [onFunction]
  exact .pure _

open Replacer in
mutual

/-- Replacing markers in an expression adds constants that refer to what the expression does. -/
theorem onExpression_refers : (source : Expression) → source.Refers known →
    KeepsReferring known ((replacer marker).onExpression source)
  | .literal _, _ | .identifier _, _ | .receiver, _ => by
      rw [onExpression]
      exact keepsReferring_hook nofun (fun _ => rfl) (.pure _)
  | .array elements, refers => by
      rw [Expression.Refers, Expression.nodes] at refers
      rw [onExpression]
      refine keepsReferring_hook nofun (fun _ => rfl) ?_
      exact (onExpressions_refers elements refers).bind fun _ => .pure _
  | .record properties, refers => by
      rw [Expression.Refers, Expression.nodes] at refers
      rw [onExpression]
      refine keepsReferring_hook nofun (fun _ => rfl) ?_
      exact (onProperties_refers properties refers).bind fun _ => .pure _
  | .lambda function, _ => by
      rw [onExpression]
      refine keepsReferring_hook nofun (fun _ => rfl) ?_
      exact (onFunction_refers function).bind fun _ => .pure _
  | .unary _ argument, refers | .update _ _ argument, refers | .await argument, refers
  | .member argument _, refers => by
      rw [Expression.Refers, Expression.nodes] at refers
      rw [onExpression]
      refine keepsReferring_hook nofun (fun _ => rfl) ?_
      exact (onExpression_refers argument refers).bind fun _ => .pure _
  | .binary _ left right, refers | .logical _ left right, refers | .assign _ left right, refers
  | .index left right, refers => by
      rw [Expression.Refers, Expression.nodes] at refers
      have parts := forall_references_append.mp refers
      rw [onExpression]
      refine keepsReferring_hook nofun (fun _ => rfl) ?_
      refine (onExpression_refers left parts.1).bind fun _ => ?_
      exact (onExpression_refers right parts.2).bind fun _ => .pure _
  | .conditional test consequent alternate, refers => by
      rw [Expression.Refers, Expression.nodes] at refers
      have parts := forall_references_append.mp refers
      have others := forall_references_append.mp parts.1
      rw [onExpression]
      refine keepsReferring_hook nofun (fun _ => rfl) ?_
      refine (onExpression_refers test others.1).bind fun _ => ?_
      refine (onExpression_refers consequent others.2).bind fun _ => ?_
      exact (onExpression_refers alternate parts.2).bind fun _ => .pure _
  | .call callee arguments, refers => by
      rw [Expression.Refers, Expression.nodes] at refers
      have parts := forall_references_append.mp refers
      rw [onExpression]
      refine keepsReferring_hook (argument_refers parts.2) (fun _ => rfl) ?_
      refine (onExpression_refers callee parts.1).bind fun _ => ?_
      exact (onExpressions_refers arguments parts.2).bind fun _ => .pure _
  | .construct callee arguments, refers => by
      rw [Expression.Refers, Expression.nodes] at refers
      have parts := forall_references_append.mp refers
      rw [onExpression]
      refine keepsReferring_hook nofun (fun _ => rfl) ?_
      refine (onExpression_refers callee parts.1).bind fun _ => ?_
      exact (onExpressions_refers arguments parts.2).bind fun _ => .pure _
  | .sequence expressions, refers => by
      rw [Expression.Refers, Expression.nodes] at refers
      rw [onExpression]
      refine keepsReferring_hook nofun (fun _ => rfl) ?_
      exact (onExpressions_refers expressions refers).bind fun _ => .pure _
  | .yield argument _, refers => by
      rw [Expression.Refers, Expression.nodes] at refers
      rw [onExpression]
      refine keepsReferring_hook nofun (fun _ => rfl) ?_
      exact (onOptional_refers argument refers).bind fun _ => .pure _

theorem onExpressions_refers : (source : List Expression) →
    (∀ name ∈ references (nodesOfExpressions false source), known name) →
      KeepsReferring known ((replacer marker).onExpressions source)
  | [], _ => by
      rw [onExpressions]
      exact .pure _
  | expression :: rest, refers => by
      rw [nodesOfExpressions, forall_references_append] at refers
      rw [onExpressions]
      refine (onExpression_refers expression refers.1).bind fun _ => ?_
      exact (onExpressions_refers rest refers.2).bind fun _ => .pure _

theorem onProperties_refers : (source : List Property) →
    (∀ name ∈ references (nodesOfProperties false source), known name) →
      KeepsReferring known ((replacer marker).onProperties source)
  | [], _ => by
      rw [onProperties]
      exact .pure _
  | ⟨_, value⟩ :: rest, refers => by
      rw [nodesOfProperties, forall_references_append] at refers
      rw [onProperties]
      refine (onExpression_refers value refers.1).bind fun _ => ?_
      exact (onProperties_refers rest refers.2).bind fun _ => .pure _

theorem onOptional_refers : (source : Option Expression) →
    (∀ name ∈ references (nodesOfOptional false source), known name) →
      KeepsReferring known ((replacer marker).onOptional source)
  | none, _ => by
      rw [onOptional]
      exact .pure _
  | some expression, refers => by
      rw [onOptional]
      exact (onExpression_refers expression refers).bind fun _ => .pure _

end

end

end Capture

/-! ## References of conditions -/

/-- A condition refers to known names only. -/
structure Condition.Refers (known : String → Prop) (condition : Condition) : Prop where
  test : condition.test.Refers known
  message : ∀ name ∈ references (nodesOfOptional false condition.message?), known name

section

variable {known : String → Prop}

/-- A condition refers to what the expression does that states it. -/
theorem Condition.refers_ofExpression
    {expression : Expression} (refers : expression.Refers known) :
    (Condition.ofExpression expression).Refers known := by
  unfold Condition.ofExpression
  split
  · rw [Expression.Refers, Expression.nodes] at refers
    have parts := forall_references_append.mp refers
    rw [nodesOfExpressions, nodesOfExpressions, List.append_nil] at parts
    exact ⟨parts.1, parts.2⟩
  · exact ⟨refers, List.forall_mem_nil _⟩

theorem Condition.Refers.withMessage
    {condition : Condition} (refers : condition.Refers known) (site : Site) :
    (condition.withMessage site).Refers known := by
  refine ⟨refers.test, ?_⟩
  rw [Condition.withMessage, Condition.message]
  have given := refers.message
  cases written : condition.message? with
  | none => exact List.forall_mem_nil _
  | some message =>
      rw [written] at given
      exact given

end

end Contract

end Covenant
