import Covenant.Proofs.Performance
import Covenant.Syntax.Names

/-!
# Where code stands

Code stands in a function, which may be nested in others, or at the top level
of a program.  A name is bound where code stands if one of the scopes around
the code declares it, or if it is bound in every program.  What is performed in
the course of a task, other than calls, stands where the code of the task does.
-/

namespace Covenant

/-- The functions that code is nested in, the innermost first. -/
abbrev Nesting := List Function

namespace Program

/-- The nodes that stand in the innermost function, but in no function nested in it. -/
def codeOf (program : Program) : Nesting → List Node
  | [] => program.nodes false
  | function :: _ => function.body.nodes false

/-- Functions of a program that are nested in each other. -/
inductive Nests (program : Program) : Nesting → Prop where
  | topLevel : Nests program []
  | inside {function : Function} {outer : Nesting} :
      Nests program outer → .function function ∈ program.codeOf outer →
        Nests program (function :: outer)

/-- The scopes around the code of a function, its own scope included. -/
def scopesAt (program : Program) (nesting : Nesting) : ScopeStack :=
  nesting.foldr (fun function scopes => scopes.push function.scope) (.ofProgram program)

end Program

/-- The names that every program finds bound. -/
def builtinNames : List String :=
  ["undefined", "NaN", "Infinity", "Error", "console"]

/-- A name that may be bound where code stands. -/
def Program.Binds (program : Program) (nesting : Nesting) (name : String) : Prop :=
  name = "this" ∨ name ∈ builtinNames ∨ (program.scopesAt nesting).isBound name = true

/-! ## Names and scopes -/

theorem ScopeStack.isBound_push {scopes : ScopeStack} {names : List String} {name : String} :
    (scopes.push names).isBound name = true ↔ name ∈ names ∨ scopes.isBound name = true := by
  simp [isBound, push]

theorem ScopeStack.isBound_ofProgram {program : Program} {name : String} :
    (ofProgram program).isBound name = true ↔ name ∈ declaredNames program.statements := by
  simp [isBound, ofProgram]

mutual

/-- Nothing in an expression outside functions declares a name. -/
theorem Expression.declares_nothing : (expression : Expression) →
    (expression.nodes false).flatMap Node.declaredNames = []
  | .literal _ | .identifier _ | .receiver => by
      simp [Expression.nodes, Node.declaredNames]
  | .lambda function => by
      cases function
      simp [Expression.nodes, Function.nodes, Node.declaredNames]
  | .array elements | .sequence elements => by
      simp [Expression.nodes, Node.declaredNames, expressions_declare_nothing elements]
  | .record properties => by
      simp [Expression.nodes, Node.declaredNames, properties_declare_nothing properties]
  | .unary _ argument | .update _ _ argument | .await argument | .member argument _ => by
      simp [Expression.nodes, Node.declaredNames, argument.declares_nothing]
  | .binary _ left right | .logical _ left right | .assign _ left right | .index left right => by
      simp [Expression.nodes, Node.declaredNames, left.declares_nothing, right.declares_nothing]
  | .conditional test consequent alternate => by
      simp [Expression.nodes, Node.declaredNames, test.declares_nothing,
        consequent.declares_nothing, alternate.declares_nothing]
  | .call callee arguments | .construct callee arguments => by
      simp [Expression.nodes, Node.declaredNames, callee.declares_nothing,
        expressions_declare_nothing arguments]
  | .yield none _ => by
      simp [Expression.nodes, nodesOfOptional, Node.declaredNames]
  | .yield (some argument) _ => by
      simp [Expression.nodes, nodesOfOptional, Node.declaredNames, argument.declares_nothing]

theorem expressions_declare_nothing : (expressions : List Expression) →
    (nodesOfExpressions false expressions).flatMap Node.declaredNames = []
  | [] => by simp [nodesOfExpressions]
  | expression :: rest => by
      rw [nodesOfExpressions, List.flatMap_append, expression.declares_nothing,
        expressions_declare_nothing rest, List.append_nil]

theorem properties_declare_nothing : (properties : List Property) →
    (nodesOfProperties false properties).flatMap Node.declaredNames = []
  | [] => by simp [nodesOfProperties]
  | ⟨_, value⟩ :: rest => by
      rw [nodesOfProperties, List.flatMap_append, value.declares_nothing,
        properties_declare_nothing rest, List.append_nil]

end

namespace Program

variable {program : Program} {nesting outer : Nesting} {function : Function} {name : String}

theorem codeOf_inside : program.codeOf (function :: outer) = function.body.nodes false :=
  rfl

theorem scopesAt_inside :
    program.scopesAt (function :: outer) = (program.scopesAt outer).push function.scope :=
  rfl

/-- What is bound around a function is bound in it. -/
theorem Binds.inside (binds : program.Binds outer name) :
    program.Binds (function :: outer) name := by
  rcases binds with receiver | builtin | bound
  · exact .inl receiver
  · exact .inr (.inl builtin)
  · refine .inr (.inr ?_)
    rw [scopesAt_inside]
    exact ScopeStack.isBound_push.mpr (.inr bound)

theorem binds_of_mem_scope (member : name ∈ function.scope) :
    program.Binds (function :: outer) name := by
  refine .inr (.inr ?_)
  rw [scopesAt_inside]
  exact ScopeStack.isBound_push.mpr (.inl member)

theorem binds_parameter (member : name ∈ function.parameters) :
    program.Binds (function :: outer) name :=
  binds_of_mem_scope (List.mem_append_left _ (List.mem_append_left _ member))

/-- A function binds its own name. -/
theorem binds_own (named : function.name = some name) : program.Binds (function :: outer) name := by
  refine binds_of_mem_scope (List.mem_append_left _ (List.mem_append_right _ ?_))
  simp [named]

/-- The names that a statement declares are bound where the statement stands. -/
theorem binds_declared {statement : Statement}
    (member : .statement statement ∈ program.codeOf nesting)
    (declares : name ∈ statement.ownNames) : program.Binds nesting name := by
  have declared : name ∈ (program.codeOf nesting).flatMap Node.declaredNames :=
    List.mem_flatMap.mpr ⟨_, member, declares⟩
  cases nesting with
  | nil => exact .inr (.inr (ScopeStack.isBound_ofProgram.mpr declared))
  | cons function outer =>
      apply binds_of_mem_scope
      rw [codeOf_inside] at declared
      cases shape : function.body with
      | block statements =>
          rw [shape, FunctionBody.nodes] at declared
          refine List.mem_append_right _ ?_
          rw [Function.block?, shape]
          exact declared
      | result expression =>
          rw [shape, FunctionBody.nodes, expression.declares_nothing] at declared
          cases declared

end Program

end Covenant

namespace Covenant.Machine

/-! ## The code of tasks -/

namespace Task

/-- The scope that the code of a task runs in. -/
def scope? : Task → Option Scope
  | evaluate scope _ | execute scope _ _ | executeAll scope _ | rounds scope _ _ _ _ => some scope
  | construct _ _ _ | call _ _ _ => none

/-- The nodes of the code of a task, outside the functions that are nested in it. -/
def nodes : Task → List Node
  | evaluate _ expression => expression.nodes false
  | execute _ _ statement => statement.nodes false
  | executeAll _ statements => nodesOfStatements false statements
  | rounds _ _ test step body =>
    nodesOfOptional false test ++ nodesOfOptional false step ++ body.nodes false
  | construct _ _ _ | call _ _ _ => []

end Task

theorem nodes_subset_of_mem {enter : Bool} {expression : Expression} :
    {expressions : List Expression} → expression ∈ expressions →
      expression.nodes enter ⊆ nodesOfExpressions enter expressions
  | other :: rest, member => by
      rw [nodesOfExpressions]
      rcases List.mem_cons.mp member with rfl | later
      · exact List.subset_append_left _ _
      · exact List.Subset.trans (nodes_subset_of_mem later) (List.subset_append_right _ _)

theorem nodes_subset_of_mem_statements {enter : Bool} {statement : Statement} :
    {statements : List Statement} → statement ∈ statements →
      statement.nodes enter ⊆ nodesOfStatements enter statements
  | other :: rest, member => by
      rw [nodesOfStatements]
      rcases List.mem_cons.mp member with rfl | later
      · exact List.subset_append_left _ _
      · exact List.Subset.trans (nodes_subset_of_mem_statements later)
          (List.subset_append_right _ _)

theorem nodes_subset_of_mem_declarators {enter : Bool} {name : String} {init : Expression} :
    {declarators : List Declarator} → ⟨name, some init⟩ ∈ declarators →
      init.nodes enter ⊆ nodesOfDeclarators enter declarators
  | ⟨_, _⟩ :: rest, member => by
      rw [nodesOfDeclarators]
      rcases List.mem_cons.mp member with same | later
      · cases same
        rw [nodesOfOptional]
        exact List.subset_append_left _ _
      · exact List.Subset.trans (nodes_subset_of_mem_declarators later)
          (List.subset_append_right _ _)

section

variable {fuel : Nat} {scope : Scope} {machine start : Machine} {part : Expression}

theorem EvaluatedInOrder.mem {expressions : List Expression}
    (inOrder : EvaluatedInOrder fuel scope expressions machine part start) :
    part ∈ expressions := by
  induction inOrder with
  | head => exact List.mem_cons_self
  | tail _ _ induction => exact List.mem_cons_of_mem _ induction

theorem Initializes.nodes {kind : DeclarationKind} {declarators : List Declarator}
    (initializes : Initializes fuel scope kind declarators machine part start) :
    part.nodes false ⊆ nodesOfDeclarators false declarators := by
  obtain ⟨before, name, rest, rfl, _⟩ := initializes
  exact nodes_subset_of_mem_declarators (List.mem_append_right _ List.mem_cons_self)

end

theorem nodes_propertyParts {target part : Expression} (member : part ∈ propertyParts target) :
    part.nodes false ⊆ target.nodes false := by
  refine List.Subset.trans (nodes_subset_of_mem member) ?_
  cases target with
  | member object name => simp [propertyParts, nodesOfExpressions, Expression.nodes]
  | index object key => simp [propertyParts, nodesOfExpressions, Expression.nodes]
  | _ => cases member

theorem nodes_calleeParts {callee part : Expression} (member : part ∈ calleeParts callee) :
    part.nodes false ⊆ callee.nodes false := by
  cases callee with
  | member object name | index object key => exact nodes_propertyParts member
  | _ => rw [List.mem_singleton.mp member]; exact List.Subset.refl _

theorem nodes_values (properties : List Property) :
    nodesOfExpressions false (properties.map (·.value)) = nodesOfProperties false properties := by
  induction properties with
  | nil => rfl
  | cons property rest induction =>
      cases property
      rw [List.map_cons, nodesOfExpressions, nodesOfProperties, induction]

/-- The operands of an expression stand in it. -/
theorem nodes_operands {expression part : Expression} (member : part ∈ operands expression) :
    part.nodes false ⊆ expression.nodes false := by
  cases expression with
  | literal | identifier | receiver | lambda | yield | await => cases member
  | array elements | sequence elements =>
      rw [Expression.nodes]
      exact List.subset_cons_of_subset _ (nodes_subset_of_mem member)
  | record properties =>
      rw [Expression.nodes, ← nodes_values]
      exact List.subset_cons_of_subset _ (nodes_subset_of_mem member)
  | unary operator argument =>
      have same : part = argument := by
        unfold operands at member
        split at member
        all_goals simp_all
      subst same
      rw [Expression.nodes]
      exact List.subset_cons_self _ _
  | update operator leading target =>
      rw [Expression.nodes]
      exact List.subset_cons_of_subset _ (nodes_propertyParts member)
  | assign operator target value =>
      rw [Expression.nodes]
      exact List.subset_cons_of_subset _
        (List.subset_append_of_subset_left _ (nodes_propertyParts member))
  | call callee arguments =>
      rw [Expression.nodes]
      exact List.subset_cons_of_subset _
        (List.subset_append_of_subset_left _ (nodes_calleeParts member))
  | construct callee arguments =>
      rw [Expression.nodes]
      exact List.subset_cons_of_subset _ (nodes_subset_of_mem member)
  | binary operator left right | index left right =>
      rw [Expression.nodes]
      refine List.Subset.trans (nodes_subset_of_mem member) ?_
      simp [operands, nodesOfExpressions]
  | logical operator left right =>
      rw [List.mem_singleton.mp member, Expression.nodes]
      exact List.subset_cons_of_subset _ (List.subset_append_left _ _)
  | conditional test consequent alternate =>
      rw [List.mem_singleton.mp member, Expression.nodes, List.append_assoc]
      exact List.subset_cons_of_subset _ (List.subset_append_left _ _)
  | member object name =>
      rw [List.mem_singleton.mp member, Expression.nodes]
      exact List.subset_cons_self _ _

/-- Whether a task runs statements in a frame of their own. -/
def Task.isBlock : Task → Bool
  | .execute _ _ (.block _) | .execute _ _ (.forLoop _ _ _ _) => true
  | _ => false

section

variable {fuel : Nat} {task next : Task} {machine start : Machine} {scope inner : Scope}

/-- What is performed for code stands where the code does. -/
theorem Part.nodes (part : Part fuel task machine next start) (runs : task.scope? = some scope) :
    next.nodes ⊆ task.nodes := by
  cases part with
  | operand inOrder => exact nodes_operands inOrder.mem
  | right _ _ | assigned _ _ =>
      intro node member
      simp_all [Task.nodes, Expression.nodes]
  | @chosen _ test consequent alternate value _ _ _ =>
      intro node member
      rw [Task.nodes] at member
      split at member <;> simp_all [Task.nodes, Expression.nodes]
  | argument _ inOrder =>
      intro node member
      have among := nodes_subset_of_mem inOrder.mem member
      simp [Task.nodes, Expression.nodes, among]
  | called | constructed => exact List.nil_subset _
  | initialized | entered | answered => cases runs
  | @subject _ _ statement _ _ first =>
      intro node member
      cases statement with
      | evaluate expression | raise expression | branch =>
          cases first
          simp_all [Task.nodes, Statement.nodes]
      | giveBack argument =>
          cases first
          simp_all [Task.nodes, Statement.nodes, nodesOfOptional]
      | _ => cases first
  | block | labeled | firstRound | loopStart =>
      intro node member
      simp_all [Task.nodes, Statement.nodes, nodesOfLoopInit]
  | whileLoop =>
      intro node member
      simp_all [Task.nodes, Statement.nodes, nodesOfOptional]
  | doWhileLoop =>
      intro node member
      simp only [Task.nodes, nodesOfOptional, List.append_nil, List.mem_append] at member
      simp only [Task.nodes, Statement.nodes, List.mem_cons, List.mem_append]
      exact .inr member.symm
  | consequent | alternate =>
      intro node member
      simp_all [Task.nodes, Statement.nodes, nodesOfAlternate]
  | loopVariable initializes =>
      intro node member
      have among := initializes.nodes member
      simp [Task.nodes, Statement.nodes, nodesOfLoopInit, among]
  | «variable» initializes =>
      intro node member
      have among := initializes.nodes member
      simp [Task.nodes, Statement.nodes, among]
  | forLoop =>
      intro node member
      simp_all [Task.nodes, Statement.nodes]
  | statement =>
      exact nodes_subset_of_mem_statements (List.mem_append_right _ List.mem_cons_self)
  | tested | round | stepped | again =>
      intro node member
      simp_all [Task.nodes, nodesOfOptional]

/-- What is performed for code runs in the scope of the code, or in a frame of its own there. -/
theorem Part.runsIn (part : Part fuel task machine next start) (runs : task.scope? = some scope)
    (goesOn : next.scope? = some inner) :
    inner = scope ∨ task.isBlock = true ∧ inner = ⟨machine.store.frames.size⟩ :: scope := by
  cases part with
  | called | constructed => cases goesOn
  | initialized | entered | answered => cases runs
  | block | loopVariable | loopStart | forLoop =>
      cases runs
      cases goesOn
      exact .inr ⟨rfl, rfl⟩
  | _ =>
      cases runs
      cases goesOn
      exact .inl rfl

end

end Covenant.Machine
