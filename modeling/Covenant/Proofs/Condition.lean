import Covenant.Contract.Transform
import Covenant.Proofs.Freshness
import Covenant.Proofs.Replacement

/-!
# What guards are made of

A body that is accepted for a contract has no effects, so neither have the
conditions that are found in it: they declare nothing, assign nothing, and
contain no functions.  Capturing values on entry puts references in the place
of marker calls and keeps it that way.

The guards of a contract are the guard clauses of its conditions in order.
-/

namespace Covenant.Contract

/-! ## Conditions without effects -/

/-- No node has an effect by itself. -/
def Effectless (nodes : List Node) : Prop :=
  ∀ node ∈ nodes, effect? node = none

@[simp]
theorem effectless_nil : Effectless [] := by
  simp [Effectless]

@[simp]
theorem effectless_cons {node : Node} {nodes : List Node} :
    Effectless (node :: nodes) ↔ effect? node = none ∧ Effectless nodes := by
  simp [Effectless]

@[simp]
theorem effectless_append {first second : List Node} :
    Effectless (first ++ second) ↔ Effectless first ∧ Effectless second := by
  simp [Effectless, or_imp, forall_and]

/-- A condition whose test and message have no effects. -/
structure Condition.Clean (condition : Condition) : Prop where
  test : Effectless (condition.test.nodes false)
  message : Effectless (nodesOfOptional false condition.message?)

/-- A body that is accepted has no effects. -/
theorem effectless_of_checkEffects
    {site : Site} {body : Statement}
    (accepted : checkEffects site body = .ok ()) :
    Effectless (body.nodes false) := by
  intro node member
  unfold checkEffects firstEffect? at accepted
  cases first : (body.nodes false).findSome? effect? with
  | none => exact List.findSome?_eq_none_iff.mp first node member
  | some construct => simp [first] at accepted

/-- Splitting off a message keeps a condition without effects. -/
theorem Condition.clean_ofExpression
    {expression : Expression} (effectless : Effectless (expression.nodes false)) :
    (Condition.ofExpression expression).Clean := by
  unfold Condition.ofExpression
  split
  case h_1 test message =>
    simp only [Expression.nodes, nodesOfExpressions, List.append_nil, effectless_cons,
      effectless_append] at effectless
    exact ⟨effectless.2.1, effectless.2.2⟩
  case h_2 => exact ⟨effectless, by simp [nodesOfOptional]⟩

mutual

/-- The conditions of a body without effects have none. -/
theorem clean_of_mem_conditions
    {site : Site} : (body : Statement) → {found : List Condition} →
      conditions site body = .ok found → Effectless (body.nodes false) →
        ∀ condition ∈ found, condition.Clean
  | .evaluate expression, found, outcome, effectless => by
      cases outcome
      intro condition member
      rw [List.mem_singleton.mp member]
      rw [Statement.nodes, effectless_cons] at effectless
      exact Condition.clean_ofExpression effectless.2
  | .block statements, found, outcome, effectless => by
      rw [conditions] at outcome
      rw [Statement.nodes, effectless_cons] at effectless
      exact clean_of_mem_conditionsOfStatements statements outcome effectless.2
  | .empty, found, outcome, _ => by
      cases outcome
      intro condition member
      cases member
  | .labeled _ _, _, outcome, _ | .giveBack _, _, outcome, _ | .branch _ _ _, _, outcome, _
  | .whileLoop _ _, _, outcome, _ | .doWhileLoop _ _, _, outcome, _
  | .forLoop _ _ _ _, _, outcome, _ | .bindings _ _, _, outcome, _ | .declare _, _, outcome, _
  | .raise _, _, outcome, _ | .breakOut _, _, outcome, _ | .continueLoop _, _, outcome, _ => by
      cases outcome

/-- The conditions of statements without effects have none. -/
theorem clean_of_mem_conditionsOfStatements
    {site : Site} : (statements : List Statement) → {found : List Condition} →
      conditionsOfStatements site statements = .ok found →
        Effectless (nodesOfStatements false statements) →
          ∀ condition ∈ found, condition.Clean
  | [], found, outcome, _ => by
      cases outcome
      intro condition member
      cases member
  | statement :: rest, found, outcome, effectless => by
      rw [conditionsOfStatements] at outcome
      rw [nodesOfStatements, effectless_append] at effectless
      cases first : conditions site statement with
      | error reason =>
          rw [first] at outcome
          cases outcome
      | ok firstFound =>
          cases others : conditionsOfStatements site rest with
          | error reason =>
              rw [first, others] at outcome
              cases outcome
          | ok otherFound =>
              rw [first, others] at outcome
              cases outcome
              intro condition member
              rcases List.mem_append.mp member with inFirst | inOthers
              · exact clean_of_mem_conditions statement first effectless.1 condition inFirst
              · exact clean_of_mem_conditionsOfStatements rest others effectless.2 condition
                  inOthers

end

/-- Filling in a message keeps a condition without effects. -/
theorem Condition.Clean.withMessage
    {condition : Condition} (clean : condition.Clean) (site : Site) :
    (condition.withMessage site).Clean := by
  refine ⟨clean.test, ?_⟩
  have message := clean.message
  unfold Condition.withMessage Condition.message
  cases written : condition.message? with
  | none => simp [nodesOfOptional, Expression.nodes, effect?]
  | some expression => simpa [written] using message

/-- What is prepared are the conditions of the body, with messages and without effects. -/
theorem prepare_eq_ok
    {site : Site} {body : Statement} {prepared : List Condition}
    (outcome : prepare site body = .ok prepared) :
    ∃ found,
      conditions site body = .ok found ∧ prepared = found.map (Condition.withMessage site) ∧
        ∀ condition ∈ prepared, condition.Clean := by
  unfold prepare at outcome
  cases accepted : checkEffects site body with
  | error reason =>
      rw [accepted] at outcome
      cases outcome
  | ok _ =>
      cases first : conditions site body with
      | error reason =>
          rw [accepted, first] at outcome
          cases outcome
      | ok found =>
          rw [accepted, first] at outcome
          cases outcome
          refine ⟨found, rfl, rfl, ?_⟩
          intro condition member
          obtain ⟨original, among, rfl⟩ := List.mem_map.mp member
          have effectless := effectless_of_checkEffects accepted
          exact (clean_of_mem_conditions body first effectless original among).withMessage site

/-! ## Guards -/

/-- The guard clause of a condition whose message is filled in at a site. -/
def Condition.clause (site : Site) (condition : Condition) : Statement :=
  guardClause condition.test (condition.message site)

theorem Condition.guard_eq_ok
    {site : Site} {condition : Condition} {guard : Statement}
    (outcome : condition.guard site = .ok guard) :
    guard = condition.clause site := by
  unfold Condition.guard at outcome
  split at outcome
  · cases outcome
  · cases outcome
    rfl

/-- The guards are the clauses of the conditions in order. -/
theorem guards_eq_ok
    {site : Site} : {found : List Condition} → {clauses : List Statement} →
      guards site found = .ok clauses → clauses = found.map (Condition.clause site)
  | [], clauses, outcome => by
      cases outcome
      rfl
  | condition :: rest, clauses, outcome => by
      rw [guards, List.mapM_cons] at outcome
      cases first : condition.guard site with
      | error reason =>
          rw [first] at outcome
          cases outcome
      | ok guard =>
          cases others : List.mapM (Condition.guard site) rest with
          | error reason =>
              rw [first, others] at outcome
              cases outcome
          | ok restGuards =>
              rw [first, others] at outcome
              cases outcome
              rw [Condition.guard_eq_ok first, guards_eq_ok others, List.map_cons]

/-- The guards of a contract are the clauses of the conditions of its body. -/
theorem assemble_eq_ok
    {site : Site} {body : Statement} {clauses : List Statement}
    (outcome : assemble site body = .ok clauses) :
    ∃ found,
      conditions site body = .ok found ∧
        clauses = (found.map (Condition.withMessage site)).map (Condition.clause site) ∧
          ∀ condition ∈ found.map (Condition.withMessage site), condition.Clean := by
  unfold assemble at outcome
  cases first : prepare site body with
  | error reason =>
      rw [first] at outcome
      cases outcome
  | ok prepared =>
      rw [first] at outcome
      obtain ⟨found, outcomes, rfl, clean⟩ := prepare_eq_ok first
      exact ⟨found, outcomes, guards_eq_ok outcome, clean⟩

end Covenant.Contract
