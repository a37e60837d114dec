import Covenant.Proofs.Assembly

/-!
# Which effect is found first

The search for effects looks at the body of a contract in source order, outer
constructs before those inside them, and stops at the first that has an effect:
a declaration, an assignment, an update, a function, a `yield`, an `await`, or a
`return`.  It finds one just if the body contains one at any depth outside
functions.

Variables that a loop declares in its header are passed over, since the search
looks at their initial values only.  No body with such a loop is accepted all
the same, because a contract has no loops.
-/

namespace Covenant

/-! ## Nodes in nodes -/

/-- The expressions that stand directly in the initial step of a counting loop. -/
def LoopInit.expressions : LoopInit → List Expression
  | .bindings _ declarators => declarators.filterMap (·.init)
  | .evaluate expression => [expression]

/-- The nodes that stand directly in a statement, in source order. -/
def Statement.parts : Statement → List Node
  | .evaluate expression | .raise expression => [.expression expression]
  | .block statements => statements.map .statement
  | .labeled _ body => [.statement body]
  | .giveBack argument => argument.toList.map .expression
  | .branch test consequent alternate =>
    .expression test :: .statement consequent :: alternate.toList.map .statement
  | .whileLoop test body => [.expression test, .statement body]
  | .doWhileLoop body test => [.statement body, .expression test]
  | .forLoop init test update body =>
    (init.toList.flatMap LoopInit.expressions ++ test.toList ++ update.toList).map .expression ++
      [.statement body]
  | .bindings _ declarators => (declarators.filterMap (·.init)).map .expression
  | .declare function => [.function function]
  | .breakOut _ | .continueLoop _ | .empty => []

namespace Node

/-- The nodes that stand directly in a node, in source order; functions are not entered. -/
def parts : Node → List Node
  | statement written => written.parts
  | expression written => written.ownFunction ++ written.operands.map .expression
  | function _ => []

/-- The nodes of a node, the node itself first. -/
def listing : Node → List Node
  | statement written => written.nodes false
  | expression written => written.nodes false
  | function written => written.nodes false

/-- One node stands in another one, at any depth; functions are not entered. -/
inductive Encloses : Node → Node → Prop where
  | itself {node : Node} : Encloses node node
  | part {node part inner : Node} : part ∈ node.parts → Encloses part inner → Encloses node inner

theorem flatMap_listing_expressions (expressions : List Expression) :
    (expressions.map Node.expression).flatMap listing = nodesOfExpressions false expressions := by
  rw [nodesOfExpressions_eq, List.flatMap_map]
  rfl

theorem flatMap_listing_statements (statements : List Statement) :
    (statements.map Node.statement).flatMap listing = nodesOfStatements false statements := by
  induction statements with
  | nil => rfl
  | cons first rest induction =>
      rw [nodesOfStatements, ← induction]
      rfl

theorem flatMap_listing_optional (expression : Option Expression) :
    (expression.toList.map Node.expression).flatMap listing = nodesOfOptional false expression := by
  cases expression <;> simp [nodesOfOptional, listing]

theorem flatMap_listing_declarators (declarators : List Declarator) :
    ((declarators.filterMap (·.init)).map Node.expression).flatMap listing =
      nodesOfDeclarators false declarators := by
  induction declarators with
  | nil => rfl
  | cons declarator rest induction =>
      obtain ⟨name, init⟩ := declarator
      rw [nodesOfDeclarators, ← induction]
      cases init <;> simp [nodesOfOptional, listing]

/-- A listing is the node itself and the listings of its parts in order. -/
theorem listing_eq (node : Node) : node.listing = node :: node.parts.flatMap listing := by
  cases node with
  | function written => rw [listing, Function.nodes_false]; rfl
  | expression written =>
      rw [listing, Expression.nodes_eq, parts, List.flatMap_append, flatMap_listing_expressions,
        nodesOfExpressions_eq]
      cases written with
      | lambda function => simp [Expression.ownFunction, listing, Function.nodes_false]
      | _ => rfl
  | statement written =>
      rw [listing, parts]
      cases written with
      | block statements =>
          rw [Statement.nodes, Statement.parts, flatMap_listing_statements]
      | giveBack argument => rw [Statement.nodes, Statement.parts, flatMap_listing_optional]
      | bindings kind declarators =>
          rw [Statement.nodes, Statement.parts, flatMap_listing_declarators]
      | branch test consequent alternate =>
          cases alternate <;>
            simp [Statement.nodes, Statement.parts, nodesOfAlternate, listing]
      | forLoop init test update body =>
          rw [Statement.nodes, Statement.parts, List.flatMap_append, List.map_append,
            List.map_append, List.flatMap_append, List.flatMap_append, flatMap_listing_optional,
            flatMap_listing_optional]
          have head : ((init.toList.flatMap LoopInit.expressions).map Node.expression).flatMap
              listing = nodesOfLoopInit false init := by
            rcases init with _ | ⟨kind, declarators⟩ | expression
            · rfl
            · simpa [LoopInit.expressions, nodesOfLoopInit] using
                flatMap_listing_declarators declarators
            · simp [LoopInit.expressions, nodesOfLoopInit, listing]
          rw [head]
          simp [listing]
      | _ => simp [Statement.nodes, Statement.parts, listing]

theorem length_listing_of_mem_parts {node part : Node} (among : part ∈ node.parts) :
    part.listing.length < node.listing.length := by
  have inside : part.listing.Sublist (node.parts.flatMap listing) :=
    List.sublist_flatten_of_mem (List.mem_map_of_mem among)
  have shorter := inside.length_le
  rw [listing_eq node, List.length_cons]
  omega

/-- A node lists whatever it encloses, and nothing else. -/
theorem mem_listing_iff {node inner : Node} : inner ∈ node.listing ↔ node.Encloses inner := by
  constructor
  · intro listed
    rw [listing_eq, List.mem_cons, List.mem_flatMap] at listed
    rcases listed with rfl | ⟨part, among, listed⟩
    · exact .itself
    · exact .part among (mem_listing_iff.mp listed)
  · intro encloses
    induction encloses with
    | @itself node =>
        rw [listing_eq]
        exact List.mem_cons_self
    | part among _ induction =>
        rw [listing_eq]
        exact List.mem_cons_of_mem _ (List.mem_flatMap.mpr ⟨_, among, induction⟩)
termination_by node.listing.length
decreasing_by exact length_listing_of_mem_parts among

end Node

namespace Contract

/-! ## Effects in nodes -/

/-- Neither a node nor anything that it encloses has an effect by itself. -/
def Harmless (node : Node) : Prop :=
  ∀ inner, node.Encloses inner → effect? inner = none

/--
The effect of the first construct that has one: of the node itself, or of the
first of its parts in which there is such a construct.
-/
inductive FirstEffect : Node → Effect → Prop where
  | own {node : Node} {effect : Effect} : effect? node = some effect → FirstEffect node effect
  | part {node part : Node} {before after : List Node} {effect : Effect} :
      effect? node = none → node.parts = before ++ part :: after →
        (∀ other ∈ before, Harmless other) → FirstEffect part effect → FirstEffect node effect

theorem harmless_iff {node : Node} :
    Harmless node ↔ effect? node = none ∧ ∀ part ∈ node.parts, Harmless part := by
  constructor
  · intro harmless
    exact ⟨harmless node .itself,
      fun part among inner encloses => harmless inner (.part among encloses)⟩
  · rintro ⟨own, others⟩ inner encloses
    cases encloses with
    | itself => exact own
    | part among encloses => exact others _ among inner encloses

theorem findSome?_listing_eq_none_iff {node : Node} :
    node.listing.findSome? effect? = none ↔ Harmless node := by
  rw [List.findSome?_eq_none_iff]
  simp only [Node.mem_listing_iff]
  rfl

/-- A search through the listings of several nodes goes through one after the other. -/
theorem findSome?_flatMap_listing (nodes : List Node) :
    (nodes.flatMap Node.listing).findSome? effect? =
      nodes.findSome? fun node => node.listing.findSome? effect? := by
  induction nodes with
  | nil => rfl
  | cons first rest induction =>
      rw [List.flatMap_cons, List.findSome?_append, induction, List.findSome?_cons]
      cases first.listing.findSome? effect? <;> rfl

theorem findSome?_listing_eq_some_iff {node : Node} {effect : Effect} :
    node.listing.findSome? effect? = some effect ↔ FirstEffect node effect := by
  constructor
  · intro found
    rw [Node.listing_eq, List.findSome?_cons, findSome?_flatMap_listing] at found
    cases own : effect? node with
    | some first =>
        rw [own] at found
        cases found
        exact .own own
    | none =>
        rw [own] at found
        obtain ⟨before, part, after, split, inside, none⟩ := List.findSome?_eq_some_iff.mp found
        have among : part ∈ node.parts := split ▸ List.mem_append_right _ List.mem_cons_self
        exact .part own split
          (fun other member => findSome?_listing_eq_none_iff.mp (none other member))
          (findSome?_listing_eq_some_iff.mp inside)
  · intro first
    induction first with
    | own own => rw [Node.listing_eq, List.findSome?_cons, own]
    | @part node part before after effect own split harmless _ induction =>
        rw [Node.listing_eq, List.findSome?_cons, own, findSome?_flatMap_listing]
        exact List.findSome?_eq_some_iff.mpr ⟨before, part, after, split, induction,
          fun other member => findSome?_listing_eq_none_iff.mpr (harmless other member)⟩
termination_by node.listing.length
decreasing_by exact Node.length_listing_of_mem_parts among

/--
A body is rejected for an effect just if it contains a construct with one, and
then for that of the first such construct in source order.
-/
theorem checkEffects_eq_iff (site : Site) (body : Statement) :
    (checkEffects site body = .ok () ↔ Harmless (.statement body)) ∧
      ∀ reason, checkEffects site body = .error reason ↔
        ∃ effect, FirstEffect (.statement body) effect ∧ reason = ⟨site, .sideEffect effect⟩ := by
  have search : firstEffect? body = (Node.statement body).listing.findSome? effect? := rfl
  unfold checkEffects
  rw [← findSome?_listing_eq_none_iff, search]
  simp only [← findSome?_listing_eq_some_iff]
  cases (Node.statement body).listing.findSome? effect? with
  | none => simp
  | some effect => simp [eq_comm]

/-! ## Variables in the header of a loop -/

/-- Whether a node is a loop that declares variables in its header. -/
def declaresInHeader : Node → Bool
  | .statement (.forLoop (some (.bindings _ _)) _ _ _) => true
  | _ => false

/-- A loop is searched for effects in its parts, whatever variables it declares. -/
theorem checkEffects_forLoop_eq_ok_iff {site : Site} {init : Option LoopInit}
    {test update : Option Expression} {body : Statement} :
    checkEffects site (.forLoop init test update body) = .ok () ↔
      ∀ part ∈ (Node.statement (.forLoop init test update body)).parts, Harmless part := by
  rw [(checkEffects_eq_iff site _).1, harmless_iff]
  exact and_iff_right rfl

/-- The search passes over a variable that is declared in the header of a loop. -/
example (site : Site) :
    checkEffects site
      (.forLoop (some (.bindings .block [⟨"i", none⟩])) none none .empty) = .ok () :=
  rfl

/-- No statement stands in an expression, functions aside. -/
theorem not_declaresInHeader_of_expression {expression : Expression} {inner : Node}
    (listed : inner ∈ expression.nodes false) : declaresInHeader inner = false := by
  obtain ⟨_, _, rfl | ⟨function, rfl, rfl⟩⟩ := Expression.encloses_of_mem_nodes listed <;> rfl

mutual

/-- No loop stands in a body that can be taken apart into conditions. -/
theorem Lists.not_declaresInHeader {body : Statement} {expressions : List Expression} :
    Lists body expressions → ∀ inner ∈ body.nodes false, declaresInHeader inner = false
  | .evaluate, inner, listed => by
      rw [Statement.nodes, List.mem_cons] at listed
      rcases listed with rfl | inside
      · rfl
      · exact not_declaresInHeader_of_expression inside
  | .empty, inner, listed => by
      rw [Statement.nodes, List.mem_singleton] at listed
      rw [listed]
      rfl
  | .block lists, inner, listed => by
      rw [Statement.nodes, List.mem_cons] at listed
      rcases listed with rfl | inside
      · rfl
      · exact lists.not_declaresInHeader inner inside

theorem ListsInTurn.not_declaresInHeader {statements : List Statement}
    {expressions : List Expression} : ListsInTurn statements expressions →
      ∀ inner ∈ nodesOfStatements false statements, declaresInHeader inner = false
  | .nil, _, listed => by cases listed
  | .cons first others, inner, listed => by
      rw [nodesOfStatements, List.mem_append] at listed
      rcases listed with inFirst | inOthers
      · exact first.not_declaresInHeader inner inFirst
      · exact others.not_declaresInHeader inner inOthers

end

/-- A body with variables in the header of a loop is rejected, if not for this effect. -/
theorem not_assemble_of_declaresInHeader {site : Site} {body : Statement} {inner : Node}
    (encloses : (Node.statement body).Encloses inner) (declares : declaresInHeader inner = true) :
    ¬ ∃ clauses, assemble site body = .ok clauses := by
  rintro ⟨clauses, outcome⟩
  obtain ⟨expressions, lists, _⟩ := assemble_eq_ok_iff.mp outcome
  cases declares.symm.trans
    (lists.not_declaresInHeader inner (Node.mem_listing_iff.mpr encloses))

end Contract

end Covenant
