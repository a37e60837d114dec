import Covenant.Proofs.Acceptance

/-!
# What can be assembled

The body of a contract is searched for effects, taken apart into conditions,
and its conditions are folded.  Together the three passes accept one language:
lists of expressions, in blocks nested at will, in which nothing is assigned,
updated, or awaited, no function and no `yield` stands, and no condition is a
constant that does not hold.

A body that is accepted becomes one guard for each of its expressions, in the
order in which they are written.
-/

namespace Covenant

/-! ## Expressions in expressions -/

namespace Expression

/-- The expressions that stand directly in an expression. -/
def operands : Expression → List Expression
  | literal _ | identifier _ | receiver | lambda _ => []
  | array elements | sequence elements => elements
  | record properties => properties.map (·.value)
  | unary _ argument | update _ _ argument | await argument | member argument _ => [argument]
  | binary _ left right | logical _ left right | assign _ left right | index left right =>
    [left, right]
  | conditional test consequent alternate => [test, consequent, alternate]
  | call callee arguments | construct callee arguments => callee :: arguments
  | yield argument _ => argument.toList

/-- One expression stands in another one, at any depth; functions are not entered. -/
inductive Encloses : Expression → Expression → Prop where
  | itself {expression : Expression} : Encloses expression expression
  | operand {expression operand inner : Expression} :
      operand ∈ expression.operands → Encloses operand inner → Encloses expression inner

/-- Whether an expression is an assignment, an update, a function, a `yield`, or an `await`. -/
def acts : Expression → Bool
  | assign _ _ _ | update _ _ _ | lambda _ | yield _ _ | await _ => true
  | _ => false

/-- The node of the function that an expression is. -/
def ownFunction : Expression → List Node
  | lambda function => [.function function]
  | _ => []

end Expression

theorem nodesOfExpressions_eq (enter : Bool) (expressions : List Expression) :
    nodesOfExpressions enter expressions = expressions.flatMap (·.nodes enter) := by
  induction expressions with
  | nil => rfl
  | cons expression rest induction =>
      rw [nodesOfExpressions, induction, List.flatMap_cons]

theorem nodesOfProperties_eq (enter : Bool) (properties : List Property) :
    nodesOfProperties enter properties =
      (properties.map (·.value)).flatMap (·.nodes enter) := by
  induction properties with
  | nil => rfl
  | cons property rest induction =>
      obtain ⟨key, value⟩ := property
      rw [nodesOfProperties, induction, List.map_cons, List.flatMap_cons]

namespace Expression

/-- A listing goes through the expressions that stand directly in an expression. -/
theorem nodes_eq (expression : Expression) :
    expression.nodes false =
      .expression expression ::
        (expression.ownFunction ++ expression.operands.flatMap (·.nodes false)) := by
  cases expression with
  | lambda function => rw [nodes, Function.nodes_false]; rfl
  | yield argument _ => cases argument <;> simp [nodes, nodesOfOptional, operands, ownFunction]
  | _ => simp [nodes, nodesOfExpressions_eq, nodesOfProperties_eq, operands, ownFunction]

theorem length_nodes_of_mem_operands {expression operand : Expression}
    (member : operand ∈ expression.operands) :
    (operand.nodes false).length < (expression.nodes false).length := by
  have part : (operand.nodes false).Sublist (expression.operands.flatMap (·.nodes false)) :=
    List.sublist_flatten_of_mem (List.mem_map_of_mem member)
  have shorter := part.length_le
  rw [nodes_eq expression, List.length_cons, List.length_append]
  omega

/-- What is listed for an expression is an expression that it encloses, or such a function. -/
theorem encloses_of_mem_nodes {expression : Expression} {node : Node}
    (listed : node ∈ expression.nodes false) :
    ∃ inner, expression.Encloses inner ∧
      (node = .expression inner ∨ ∃ function, inner = .lambda function ∧ node = .function function) := by
  rw [nodes_eq, List.mem_cons, List.mem_append, List.mem_flatMap] at listed
  rcases listed with rfl | own | ⟨operand, member, among⟩
  · exact ⟨expression, .itself, .inl rfl⟩
  · cases expression with
    | lambda function => exact ⟨_, .itself, .inr ⟨function, rfl, List.mem_singleton.mp own⟩⟩
    | _ => cases own
  · -- The recursion is on the listing: nested trees have no simpler common measure here.
    obtain ⟨inner, encloses, is⟩ := encloses_of_mem_nodes among
    exact ⟨inner, .operand member encloses, is⟩
termination_by (expression.nodes false).length
decreasing_by exact length_nodes_of_mem_operands member

/-- An expression lists whatever it encloses. -/
theorem Encloses.nodes_subset {expression inner : Expression} (encloses : expression.Encloses inner) :
    inner.nodes false ⊆ expression.nodes false := by
  induction encloses with
  | itself => exact fun _ => id
  | operand member _ induction =>
      intro node listed
      rw [nodes_eq, List.mem_cons, List.mem_append, List.mem_flatMap]
      exact .inr (.inr ⟨_, member, induction listed⟩)

end Expression

namespace Contract

open Expression

/-- The search for effects finds none just if no expression is of a kind that has one. -/
theorem effectless_nodes_iff {expression : Expression} :
    Effectless (expression.nodes false) ↔
      ∀ inner, expression.Encloses inner → inner.acts = false := by
  constructor
  · intro effectless inner encloses
    have free : Effectless (inner.nodes false) := fun node listed =>
      effectless node (encloses.nodes_subset listed)
    rw [nodes_eq, effectless_cons, effectless_append] at free
    -- A function is found by the node behind its own; the expression that it is has no effect.
    cases inner with
    | lambda function => exact absurd free.2.1 (by simp [ownFunction, effect?])
    | assign | update | yield | await => cases free.1
    | _ => rfl
  · intro free node listed
    obtain ⟨inner, encloses, rfl | ⟨function, rfl, rfl⟩⟩ := encloses_of_mem_nodes listed
    · have quiet := free inner encloses
      cases inner with
      | assign | update | yield | await => cases quiet
      | _ => rfl
    · cases free _ encloses

/-! ## Bodies -/

mutual

/--
A body is built from blocks, empty statements, and expression statements, and
some expressions are those of its statements, from left to right.
-/
inductive Lists : Statement → List Expression → Prop where
  | evaluate {expression : Expression} : Lists (.evaluate expression) [expression]
  | empty : Lists .empty []
  | block {statements : List Statement} {expressions : List Expression} :
      ListsInTurn statements expressions → Lists (.block statements) expressions

/-- Some expressions are those of several such statements, from left to right. -/
inductive ListsInTurn : List Statement → List Expression → Prop where
  | nil : ListsInTurn [] []
  | cons {statement : Statement} {rest : List Statement} {first others : List Expression} :
      Lists statement first → ListsInTurn rest others →
        ListsInTurn (statement :: rest) (first ++ others)

end

mutual

/-- The search for effects goes through the expressions of a body. -/
theorem Lists.effectless_iff {body : Statement} {expressions : List Expression} :
    Lists body expressions →
      (Effectless (body.nodes false) ↔
        ∀ expression ∈ expressions, Effectless (expression.nodes false))
  | .evaluate => by simp [Statement.nodes, effect?]
  | .empty => by simp [Statement.nodes, effect?]
  | .block lists => by
      rw [Statement.nodes, effectless_cons, lists.effectless_iff]
      exact and_iff_right rfl

theorem ListsInTurn.effectless_iff {statements : List Statement} {expressions : List Expression} :
    ListsInTurn statements expressions →
      (Effectless (nodesOfStatements false statements) ↔
        ∀ expression ∈ expressions, Effectless (expression.nodes false))
  | .nil => by simp [nodesOfStatements]
  | .cons first others => by
      rw [nodesOfStatements, effectless_append, first.effectless_iff, others.effectless_iff,
        List.forall_mem_append]

end

mutual

/-- A body is taken apart into the conditions that its expressions are. -/
theorem Lists.conditions_eq {site : Site} {body : Statement} {expressions : List Expression} :
    Lists body expressions →
      conditions site body = .ok (expressions.map Condition.ofExpression)
  | .evaluate | .empty => rfl
  | .block lists => by rw [conditions, lists.conditions_eq]

theorem ListsInTurn.conditions_eq {site : Site} {statements : List Statement}
    {expressions : List Expression} :
    ListsInTurn statements expressions →
      conditionsOfStatements site statements = .ok (expressions.map Condition.ofExpression)
  | .nil => rfl
  | .cons first others => by
      rw [conditionsOfStatements, first.conditions_eq, others.conditions_eq, List.map_append]
      rfl

end

mutual

/-- Only a body of such statements can be taken apart. -/
theorem exists_lists {site : Site} : (body : Statement) → ∀ {found : List Condition},
    conditions site body = .ok found → ∃ expressions, Lists body expressions
  | .evaluate expression, _, _ => ⟨[expression], .evaluate⟩
  | .empty, _, _ => ⟨[], .empty⟩
  | .block statements, _, outcome => by
      rw [conditions] at outcome
      obtain ⟨expressions, lists⟩ := exists_listsInTurn statements outcome
      exact ⟨expressions, .block lists⟩
  | .labeled _ _, _, outcome | .giveBack _, _, outcome | .branch _ _ _, _, outcome
  | .whileLoop _ _, _, outcome | .doWhileLoop _ _, _, outcome
  | .forLoop _ _ _ _, _, outcome | .bindings _ _, _, outcome | .declare _, _, outcome
  | .raise _, _, outcome | .breakOut _, _, outcome | .continueLoop _, _, outcome => by
      cases outcome

theorem exists_listsInTurn {site : Site} : (statements : List Statement) →
    ∀ {found : List Condition}, conditionsOfStatements site statements = .ok found →
      ∃ expressions, ListsInTurn statements expressions
  | [], _, _ => ⟨[], .nil⟩
  | statement :: rest, found, outcome => by
      rw [conditionsOfStatements] at outcome
      cases taken : conditions site statement with
      | error reason =>
          rw [taken] at outcome
          cases outcome
      | ok first =>
          cases others : conditionsOfStatements site rest with
          | error reason =>
              rw [taken, others] at outcome
              cases outcome
          | ok otherFound =>
              obtain ⟨_, lists⟩ := exists_lists statement taken
              obtain ⟨_, listsRest⟩ := exists_listsInTurn rest others
              exact ⟨_, .cons lists listsRest⟩

end

theorem checkEffects_eq_ok_iff {site : Site} {body : Statement} :
    checkEffects site body = .ok () ↔ Effectless (body.nodes false) := by
  refine ⟨effectless_of_checkEffects, fun effectless => ?_⟩
  have nothing : firstEffect? body = none := List.findSome?_eq_none_iff.mpr effectless
  rw [checkEffects, nothing]

/-- A body can be prepared just if it states expressions without effects. -/
theorem prepare_eq_ok_iff {site : Site} {body : Statement} {prepared : List Condition} :
    prepare site body = .ok prepared ↔
      ∃ expressions, Lists body expressions ∧
        (∀ expression ∈ expressions, Effectless (expression.nodes false)) ∧
          prepared =
            (expressions.map Condition.ofExpression).map (Condition.withMessage site) := by
  constructor
  · intro outcome
    have accepted : checkEffects site body = .ok () := by
      unfold prepare at outcome
      cases searched : checkEffects site body with
      | ok _ => rfl
      | error reason =>
          rw [searched] at outcome
          cases outcome
    obtain ⟨found, taken, rfl, _⟩ := prepare_eq_ok outcome
    obtain ⟨expressions, lists⟩ := exists_lists body taken
    cases lists.conditions_eq.symm.trans taken
    exact ⟨expressions, lists, lists.effectless_iff.mp (checkEffects_eq_ok_iff.mp accepted), rfl⟩
  · rintro ⟨expressions, lists, free, rfl⟩
    have accepted : checkEffects site body = .ok () :=
      checkEffects_eq_ok_iff.mpr (lists.effectless_iff.mpr free)
    unfold prepare
    rw [accepted, lists.conditions_eq]
    rfl

/-! ## Guards -/

/--
An expression is read as a condition with a message: a sequence of two as the
two of them, and any other expression as a condition that its message quotes.
-/
inductive ReadsAs (site : Site) : Expression → Expression → Expression → Prop where
  | own {test message : Expression} : ReadsAs site (.sequence [test, message]) test message
  | quoting {test : Expression} :
      (∀ first second, test ≠ .sequence [first, second]) →
        ReadsAs site test test (.literal (.string (Condition.defaultMessage site test)))

theorem readsAs_iff {site : Site} {expression test message : Expression} :
    ReadsAs site expression test message ↔
      (Condition.ofExpression expression).test = test ∧
        (Condition.ofExpression expression).message site = message := by
  by_cases pair : ∃ first second, expression = .sequence [first, second]
  · obtain ⟨first, second, rfl⟩ := pair
    constructor
    · rintro (_ | single)
      · exact ⟨rfl, rfl⟩
      · exact absurd rfl (single first second)
    · rintro ⟨rfl, rfl⟩
      exact .own
  · have single : Condition.ofExpression expression = ⟨expression, none⟩ := by
      unfold Condition.ofExpression
      split
      · exact absurd ⟨_, _, rfl⟩ pair
      · rfl
    rw [single]
    constructor
    · rintro (_ | _)
      · exact absurd ⟨_, _, rfl⟩ pair
      · exact ⟨rfl, rfl⟩
    · rintro ⟨rfl, rfl⟩
      exact .quoting fun first second equal => pair ⟨first, second, equal⟩

/-- An expression that a contract may state as a condition. -/
structure Admissible (site : Site) (expression : Expression) : Prop where
  /-- It contains no assignment, update, function, `yield`, or `await`. -/
  quiet (inner : Expression) : expression.Encloses inner → inner.acts = false
  /-- Its condition is not a constant that does not hold. -/
  possible (test message : Expression) (value : Literal) :
    ReadsAs site expression test message → fold? test = some value → value.isTruthy = true

/-- The guard of an expression: unless its condition holds, an error with its message is thrown. -/
def GuardedBy (site : Site) (expression : Expression) (guard : Statement) : Prop :=
  ∃ test message, ReadsAs site expression test message ∧
    guard = .branch (.unary .not test)
      (.block [.raise (.construct (.identifier "Error") [message])]) none

theorem verdict_eq_fails_iff {test : Expression} {value : Literal} :
    verdict test = .fails value ↔ fold? test = some value ∧ value.isTruthy = false := by
  unfold verdict
  cases fold? test with
  | none => simp
  | some folded =>
      cases truthy : folded.isTruthy with
      | true =>
          simp only [truthy, if_true, Option.some.injEq, reduceCtorEq, false_iff, not_and]
          rintro rfl
          simp [truthy]
      | false =>
          simp only [truthy, Bool.false_eq_true, if_false, Option.some.injEq, Verdict.fails.injEq]
          refine ⟨?_, And.left⟩
          rintro rfl
          exact ⟨rfl, truthy⟩

theorem admissible_iff {site : Site} {expression : Expression} :
    Admissible site expression ↔
      Effectless (expression.nodes false) ∧
        ∀ value, verdict (Condition.ofExpression expression).test ≠ .fails value := by
  constructor
  · intro admissible
    refine ⟨effectless_nodes_iff.mpr admissible.quiet, fun value fails => ?_⟩
    obtain ⟨folds, falsy⟩ := verdict_eq_fails_iff.mp fails
    cases (admissible.possible _ _ value (readsAs_iff.mpr ⟨rfl, rfl⟩) folds).symm.trans falsy
  · rintro ⟨effectless, holds⟩
    refine ⟨effectless_nodes_iff.mp effectless, fun test message value reads folds => ?_⟩
    obtain ⟨rfl, _⟩ := readsAs_iff.mp reads
    by_contra falsy
    exact holds value (verdict_eq_fails_iff.mpr ⟨folds, Bool.eq_false_iff.mpr falsy⟩)

/-- The clause of the condition that an expression is guards the expression, and nothing else does. -/
theorem guardedBy_iff {site : Site} {expression : Expression} {guard : Statement} :
    GuardedBy site expression guard ↔
      guard = ((Condition.ofExpression expression).withMessage site).clause site := by
  constructor
  · rintro ⟨test, message, reads, rfl⟩
    obtain ⟨rfl, rfl⟩ := readsAs_iff.mp reads
    rfl
  · rintro rfl
    exact ⟨_, _, readsAs_iff.mpr ⟨rfl, rfl⟩, rfl⟩

theorem forall₂_guardedBy_iff {site : Site} {expressions : List Expression}
    {clauses : List Statement} :
    List.Forall₂ (GuardedBy site) expressions clauses ↔
      clauses = ((expressions.map Condition.ofExpression).map (Condition.withMessage site)).map
        (Condition.clause site) := by
  induction expressions generalizing clauses with
  | nil => simp
  | cons expression rest induction =>
      rw [List.forall₂_cons_left_iff]
      simp only [guardedBy_iff, induction, List.map_cons]
      constructor
      · rintro ⟨_, _, rfl, rfl, rfl⟩
        rfl
      · rintro rfl
        exact ⟨_, _, rfl, rfl, rfl⟩

/-- Conditions have guards, and which ones, unless one of them is known to fail. -/
theorem guards_eq_ok_iff {site : Site} {found : List Condition} {clauses : List Statement} :
    guards site found = .ok clauses ↔
      (∀ condition ∈ found, ∀ value, verdict condition.test ≠ .fails value) ∧
        clauses = found.map (Condition.clause site) := by
  constructor
  · intro outcome
    exact ⟨exists_guards_iff.mp ⟨clauses, outcome⟩, guards_eq_ok outcome⟩
  · rintro ⟨holds, rfl⟩
    obtain ⟨clauses, outcome⟩ := (@exists_guards_iff site found).mpr holds
    rw [outcome, guards_eq_ok outcome]

/-- A body is assembled just if it states admissible expressions, and then into their guards. -/
theorem assemble_eq_ok_iff {site : Site} {body : Statement} {clauses : List Statement} :
    assemble site body = .ok clauses ↔
      ∃ expressions, Lists body expressions ∧
        (∀ expression ∈ expressions, Admissible site expression) ∧
          List.Forall₂ (GuardedBy site) expressions clauses := by
  have step : assemble site body = .ok clauses ↔
      ∃ prepared, prepare site body = .ok prepared ∧ guards site prepared = .ok clauses := by
    unfold assemble
    cases prepare site body with
    | error reason => exact ⟨nofun, by rintro ⟨_, ⟨⟩, _⟩⟩
    | ok prepared =>
        refine ⟨fun outcome => ⟨prepared, rfl, outcome⟩, ?_⟩
        rintro ⟨_, ⟨⟩, outcome⟩
        exact outcome
  rw [step]
  constructor
  · rintro ⟨prepared, prepares, outcome⟩
    obtain ⟨expressions, lists, free, rfl⟩ := prepare_eq_ok_iff.mp prepares
    obtain ⟨holds, rfl⟩ := guards_eq_ok_iff.mp outcome
    refine ⟨expressions, lists, fun expression member => ?_, forall₂_guardedBy_iff.mpr rfl⟩
    refine admissible_iff.mpr ⟨free expression member, ?_⟩
    exact holds ((Condition.ofExpression expression).withMessage site)
      (List.mem_map_of_mem (List.mem_map_of_mem member))
  · rintro ⟨expressions, lists, admissible, guarded⟩
    refine ⟨_, prepare_eq_ok_iff.mpr ⟨expressions, lists, fun expression member =>
      (admissible_iff.mp (admissible expression member)).1, rfl⟩, guards_eq_ok_iff.mpr ⟨?_, ?_⟩⟩
    · intro condition member
      obtain ⟨_, among, rfl⟩ := List.mem_map.mp member
      obtain ⟨expression, stated, rfl⟩ := List.mem_map.mp among
      exact (admissible_iff.mp (admissible expression stated)).2
    · exact forall₂_guardedBy_iff.mp guarded

end Contract

end Covenant
