import Mathlib.Data.List.Sublists
import Covenant.Proofs.WalkParts

/-!
# The functions in a tree

The functions that stand in a tree outside other functions.  The nodes of such
a function are among the nodes of the tree, so it is smaller and has no names
that the tree does not have.

Trees that differ in their functions only have as many functions, each related
to its counterpart.
-/

namespace Covenant

/-- The function that a node is, if it is one. -/
def Node.function? : Node → Option Function
  | .function written => some written
  | _ => none

/-- The functions among nodes. -/
def functionsOf (nodes : List Node) : List Function :=
  nodes.filterMap Node.function?

@[simp]
theorem functionsOf_nil : functionsOf [] = [] :=
  rfl

@[simp]
theorem functionsOf_cons_statement (statement : Statement) (nodes : List Node) :
    functionsOf (.statement statement :: nodes) = functionsOf nodes :=
  rfl

@[simp]
theorem functionsOf_cons_expression (expression : Expression) (nodes : List Node) :
    functionsOf (.expression expression :: nodes) = functionsOf nodes :=
  rfl

@[simp]
theorem functionsOf_cons_function (function : Function) (nodes : List Node) :
    functionsOf (.function function :: nodes) = function :: functionsOf nodes :=
  rfl

@[simp]
theorem functionsOf_append (first second : List Node) :
    functionsOf (first ++ second) = functionsOf first ++ functionsOf second :=
  List.filterMap_append

theorem Function.nodes_true (function : Function) :
    function.nodes true = .function function :: function.body.nodes true := by
  obtain ⟨_, _, _, _, _, _⟩ := function
  rw [Function.nodes]
  rfl

theorem Function.nodes_false (function : Function) :
    function.nodes false = [.function function] := by
  obtain ⟨_, _, _, _, _, _⟩ := function
  rw [Function.nodes]
  rfl

/-! ## Functions are smaller than the trees they stand in -/

/-- The nodes of every function outside other functions are among given nodes. -/
def Contains (shallow deep : List Node) : Prop :=
  ∀ function ∈ functionsOf shallow, (function.nodes true).Sublist deep

theorem Contains.nil : Contains [] [] := by
  simp [Contains]

theorem Contains.cons_statement
    {shallow deep : List Node} (contains : Contains shallow deep) (statement : Statement) :
    Contains (.statement statement :: shallow) (.statement statement :: deep) :=
  fun function member => (contains function member).cons _

theorem Contains.cons_expression
    {shallow deep : List Node} (contains : Contains shallow deep) (expression : Expression) :
    Contains (.expression expression :: shallow) (.expression expression :: deep) :=
  fun function member => (contains function member).cons _

theorem Contains.append
    {shallow deep shallow' deep' : List Node}
    (first : Contains shallow deep) (second : Contains shallow' deep') :
    Contains (shallow ++ shallow') (deep ++ deep') := by
  intro function member
  rw [functionsOf_append] at member
  rcases List.mem_append.mp member with inFirst | inSecond
  · exact (first function inFirst).trans (List.sublist_append_left _ _)
  · exact (second function inSecond).trans (List.sublist_append_right _ _)

theorem Contains.function (function : Function) :
    Contains (function.nodes false) (function.nodes true) := by
  intro inner member
  rw [Function.nodes_false] at member
  rw [List.mem_singleton.mp member]

mutual

/-- The functions in an expression are parts of it. -/
theorem Expression.contains : (expression : Expression) →
    Contains (expression.nodes false) (expression.nodes true)
  | .literal _ | .identifier _ | .receiver => by
      rw [Expression.nodes, Expression.nodes]
      exact Contains.nil.cons_expression _
  | .array elements => by
      rw [Expression.nodes, Expression.nodes]
      exact (containsOfExpressions elements).cons_expression _
  | .record properties => by
      rw [Expression.nodes, Expression.nodes]
      exact (containsOfProperties properties).cons_expression _
  | .lambda function => by
      rw [Expression.nodes, Expression.nodes]
      exact (Contains.function function).cons_expression _
  | .unary _ argument | .update _ _ argument | .await argument => by
      rw [Expression.nodes, Expression.nodes]
      exact argument.contains.cons_expression _
  | .binary _ left right | .logical _ left right => by
      rw [Expression.nodes, Expression.nodes]
      exact (left.contains.append right.contains).cons_expression _
  | .assign _ target value => by
      rw [Expression.nodes, Expression.nodes]
      exact (target.contains.append value.contains).cons_expression _
  | .conditional test consequent alternate => by
      rw [Expression.nodes, Expression.nodes]
      exact ((test.contains.append consequent.contains).append alternate.contains).cons_expression _
  | .call callee arguments | .construct callee arguments => by
      rw [Expression.nodes, Expression.nodes]
      exact (callee.contains.append (containsOfExpressions arguments)).cons_expression _
  | .member object _ => by
      rw [Expression.nodes, Expression.nodes]
      exact object.contains.cons_expression _
  | .index object key => by
      rw [Expression.nodes, Expression.nodes]
      exact (object.contains.append key.contains).cons_expression _
  | .sequence expressions => by
      rw [Expression.nodes, Expression.nodes]
      exact (containsOfExpressions expressions).cons_expression _
  | .yield argument _ => by
      rw [Expression.nodes, Expression.nodes]
      exact (containsOfOptional argument).cons_expression _

theorem containsOfExpressions : (expressions : List Expression) →
    Contains (nodesOfExpressions false expressions) (nodesOfExpressions true expressions)
  | [] => by
      rw [nodesOfExpressions, nodesOfExpressions]
      exact .nil
  | expression :: rest => by
      rw [nodesOfExpressions, nodesOfExpressions]
      exact expression.contains.append (containsOfExpressions rest)

theorem containsOfProperties : (properties : List Property) →
    Contains (nodesOfProperties false properties) (nodesOfProperties true properties)
  | [] => by
      rw [nodesOfProperties, nodesOfProperties]
      exact .nil
  | ⟨_, value⟩ :: rest => by
      rw [nodesOfProperties, nodesOfProperties]
      exact value.contains.append (containsOfProperties rest)

theorem containsOfOptional : (expression : Option Expression) →
    Contains (nodesOfOptional false expression) (nodesOfOptional true expression)
  | none => by
      rw [nodesOfOptional, nodesOfOptional]
      exact .nil
  | some expression => by
      rw [nodesOfOptional, nodesOfOptional]
      exact expression.contains

end

theorem containsOfDeclarators : (declarators : List Declarator) →
    Contains (nodesOfDeclarators false declarators) (nodesOfDeclarators true declarators)
  | [] => by
      rw [nodesOfDeclarators, nodesOfDeclarators]
      exact .nil
  | ⟨_, init⟩ :: rest => by
      rw [nodesOfDeclarators, nodesOfDeclarators]
      exact (containsOfOptional init).append (containsOfDeclarators rest)

/-! ## Functions of related trees -/

namespace Exchange

/-- The functions of one list of nodes are related to those of another one by one. -/
abbrev Pairs (exchange : Exchange) (source target : List Node) : Prop :=
  List.Forall₂ exchange.function (functionsOf source) (functionsOf target)

theorem Pairs.append
    {exchange : Exchange} {source target source' target' : List Node}
    (first : exchange.Pairs source target) (second : exchange.Pairs source' target') :
    exchange.Pairs (source ++ source') (target ++ target') := by
  rw [Pairs, functionsOf_append, functionsOf_append]
  exact List.rel_append first second

section

set_option linter.unusedSectionVars false

variable {exchange : Exchange}
  (kept : ∀ source target, ¬ exchange.expression source target)

include kept

mutual

/-- The functions of related expressions are related. -/
theorem OnExpression.functions {source target : Expression} :
    OnExpression exchange source target →
      exchange.Pairs (source.nodes false) (target.nodes false)
  | .exchanged given => (kept _ _ given).elim
  | .literal _ | .identifier _ | .receiver => .nil
  | .array inner => by
      rw [Expression.nodes, Expression.nodes]
      exact inner.functions
  | .record inner => by
      rw [Expression.nodes, Expression.nodes]
      exact inner.functions
  | .lambda inner => by
      rw [Expression.nodes, Expression.nodes, Function.nodes_false, Function.nodes_false]
      exact .cons inner .nil
  | .unary inner | .update inner | .await inner | .member inner => by
      rw [Expression.nodes, Expression.nodes]
      exact inner.functions
  | .binary left right | .logical left right | .assign left right | .index left right => by
      rw [Expression.nodes, Expression.nodes]
      exact left.functions.append right.functions
  | .conditional test consequent alternate => by
      rw [Expression.nodes, Expression.nodes]
      exact (test.functions.append consequent.functions).append alternate.functions
  | .call callee arguments | .construct callee arguments => by
      rw [Expression.nodes, Expression.nodes]
      exact callee.functions.append arguments.functions
  | .sequence inner => by
      rw [Expression.nodes, Expression.nodes]
      exact inner.functions
  | .yield inner => by
      rw [Expression.nodes, Expression.nodes]
      exact inner.functions

theorem OnExpressions.functions {source target : List Expression} :
    OnExpressions exchange source target →
      exchange.Pairs (nodesOfExpressions false source) (nodesOfExpressions false target)
  | .nil => .nil
  | .cons head rest => by
      rw [nodesOfExpressions, nodesOfExpressions]
      exact head.functions.append rest.functions

theorem OnProperties.functions {source target : List Property} :
    OnProperties exchange source target →
      exchange.Pairs (nodesOfProperties false source) (nodesOfProperties false target)
  | .nil => .nil
  | .cons head rest => by
      rw [nodesOfProperties, nodesOfProperties]
      exact head.functions.append rest.functions

theorem OnOptional.functions {source target : Option Expression} :
    OnOptional exchange source target →
      exchange.Pairs (nodesOfOptional false source) (nodesOfOptional false target)
  | .none => .nil
  | .some inner => by
      rw [nodesOfOptional, nodesOfOptional]
      exact inner.functions

end

theorem OnDeclarators.functions {source target : List Declarator} :
    OnDeclarators exchange source target →
      exchange.Pairs (nodesOfDeclarators false source) (nodesOfDeclarators false target)
  | .nil => .nil
  | .cons _ init rest => by
      rw [nodesOfDeclarators, nodesOfDeclarators]
      exact (init.functions kept).append rest.functions

end

/-- Declared variables keep their names. -/
theorem OnDeclarators.names
    {exchange : Exchange} {source target : List Declarator} :
    OnDeclarators exchange source target → namesOfDeclarators source = namesOfDeclarators target
  | .nil => rfl
  | .cons _ _ rest => congrArg (_ :: ·) rest.names

end Exchange

/-! ## Parts of related statements -/

/-- An exchange carries requirements on parts over to others. -/
structure Parts.Carried (exchange : Exchange) (first second : Parts) : Prop where
  expression {source target : Expression} :
    exchange.OnExpression source target → first.expression source → second.expression target
  function {source target : Function} :
    exchange.function source target → first.function source → second.function target
  declared {source target : List Declarator} :
    exchange.OnDeclarators source target → first.declared source → second.declared target
  statement {source target : Statement} :
    exchange.statement source target → first.OnStatement source → second.OnStatement target

namespace Parts

section

set_option linter.unusedSectionVars false

variable {exchange : Exchange} {first second : Parts} (carried : Carried exchange first second)

include carried

theorem onOptional_of_exchange {source target : Option Expression} :
    exchange.OnOptional source target → first.OnOptional source → second.OnOptional target
  | .none, _ => by
      intro given equal
      cases equal
  | .some inner, holds => by
      intro given equal
      cases equal
      exact carried.expression inner (holds _ rfl)

theorem onLoopInit_of_exchange {source target : Option LoopInit} :
    exchange.OnLoopInit source target → first.OnLoopInit source → second.OnLoopInit target
  | .none, _ => trivial
  | .bindings inner, holds => carried.declared inner holds
  | .evaluate inner, holds => carried.expression inner holds

mutual

/-- What is required of a statement is carried over to a related one. -/
theorem onStatement_of_exchange {source target : Statement} :
    exchange.OnStatement source target → first.OnStatement source → second.OnStatement target
  | .exchanged given, holds => carried.statement given holds
  | .evaluate inner, holds | .raise inner, holds => by
      rw [Parts.OnStatement] at holds ⊢
      exact carried.expression inner holds
  | .block inner, holds => by
      rw [Parts.OnStatement] at holds ⊢
      exact onStatements_of_exchange inner holds
  | .labeled inner, holds => by
      rw [Parts.OnStatement] at holds ⊢
      exact onStatement_of_exchange inner holds
  | .giveBack inner, holds => by
      rw [Parts.OnStatement] at holds ⊢
      exact onOptional_of_exchange carried inner holds
  | .branch test consequent alternate, holds => by
      rw [Parts.OnStatement] at holds ⊢
      exact ⟨carried.expression test holds.1, onStatement_of_exchange consequent holds.2.1,
        onAlternate_of_exchange alternate holds.2.2⟩
  | .whileLoop test body, holds | .doWhileLoop body test, holds => by
      rw [Parts.OnStatement] at holds ⊢
      exact ⟨carried.expression test holds.1, onStatement_of_exchange body holds.2⟩
  | .forLoop init test update body, holds => by
      rw [Parts.OnStatement] at holds ⊢
      exact ⟨onLoopInit_of_exchange carried init holds.1,
        onOptional_of_exchange carried test holds.2.1,
        onOptional_of_exchange carried update holds.2.2.1,
        onStatement_of_exchange body holds.2.2.2⟩
  | .bindings inner, holds => by
      rw [Parts.OnStatement] at holds ⊢
      exact carried.declared inner holds
  | .declare inner, holds => by
      rw [Parts.OnStatement] at holds ⊢
      exact carried.function inner holds
  | .breakOut _, _ | .continueLoop _, _ | .empty, _ => by
      rw [Parts.OnStatement]
      trivial

theorem onAlternate_of_exchange {source target : Option Statement} :
    exchange.OnAlternate source target → first.OnAlternate source → second.OnAlternate target
  | .none, _ => by
      rw [Parts.OnAlternate]
      trivial
  | .some inner, holds => by
      rw [Parts.OnAlternate] at holds ⊢
      exact onStatement_of_exchange inner holds

/-- What is required of statements is carried over to related ones. -/
theorem onStatements_of_exchange {source target : List Statement} :
    exchange.OnStatements source target → first.OnStatements source → second.OnStatements target
  | .nil, _ => by
      rw [Parts.OnStatements]
      trivial
  | .cons head rest, holds => by
      rw [Parts.OnStatements] at holds ⊢
      exact ⟨onStatement_of_exchange head holds.1, onStatements_of_exchange rest holds.2⟩

end

end

end Parts

/-! ## Parts of a source -/

/-- Nodes with few functions among them, and with known names only. -/
structure Bounded (size : Nat) (known : String → Prop) (nodes : List Node) : Prop where
  size : (functionsOf nodes).length ≤ size
  names : ∀ node ∈ nodes, ∀ name ∈ node.occurringNames, known name

namespace Bounded

variable {size : Nat} {known : String → Prop}

theorem sublist
    {nodes part : List Node} (bounded : Bounded size known nodes) (sublist : part.Sublist nodes) :
    Bounded size known part :=
  ⟨(sublist.filterMap _).length_le.trans bounded.size,
    fun node member => bounded.names node (sublist.subset member)⟩

theorem tail {node : Node} {nodes : List Node} (bounded : Bounded size known (node :: nodes)) :
    Bounded size known nodes :=
  bounded.sublist (List.sublist_cons_self _ _)

/-- The functions of a bounded tree are bounded. -/
theorem function
    {shallow deep : List Node} (bounded : Bounded size known deep) (contains : Contains shallow deep) :
    ∀ function ∈ functionsOf shallow, Bounded size known (function.nodes true) :=
  fun function member => bounded.sublist (contains function member)

/-- What is in a bounded function has a smaller bound. -/
theorem body
    {function : Function} (bounded : Bounded (size + 1) known (function.nodes true)) :
    Bounded size known (function.body.nodes true) := by
  rw [Function.nodes_true] at bounded
  refine ⟨?_, bounded.tail.names⟩
  have small := bounded.size
  rw [functionsOf_cons_function, List.length_cons] at small
  omega

end Bounded

/-- All functions of nodes have a property. -/
def AllFunctions (property : Function → Prop) (nodes : List Node) : Prop :=
  ∀ function ∈ functionsOf nodes, property function

namespace AllFunctions

variable {property : Function → Prop}

theorem nil : AllFunctions property [] := by
  intro function member
  cases member

@[simp]
theorem append {first second : List Node} :
    AllFunctions property (first ++ second) ↔
      AllFunctions property first ∧ AllFunctions property second := by
  simp [AllFunctions, or_imp, forall_and]

@[simp]
theorem cons_expression {expression : Expression} {nodes : List Node} :
    AllFunctions property (.expression expression :: nodes) ↔ AllFunctions property nodes :=
  Iff.rfl

theorem of_lambda {function : Function} :
    AllFunctions property (function.nodes false) ↔ property function := by
  simp [AllFunctions, Function.nodes_false]

/-- A property of functions that related functions take over. -/
theorem of_pairs
    {exchange : Exchange} {other : Function → Prop} {source target : List Node}
    (pairs : exchange.Pairs source target)
    (takes : ∀ {first second}, exchange.function first second → property first → other second)
    (holds : AllFunctions property source) :
    AllFunctions other target := by
  intro function member
  obtain ⟨original, among, related⟩ := exists_mem_of_forall₂ pairs function member
  exact takes related (holds original among)

end AllFunctions

/-- Declared variables are known by their names, and their functions have a property. -/
structure KnownVariables
    (property : Function → Prop) (known : String → Prop) (declarators : List Declarator) :
    Prop where
  functions : AllFunctions property (nodesOfDeclarators false declarators)
  names : ∀ name ∈ namesOfDeclarators declarators, known name

/-- Parts whose functions have a property and whose variables are known, with exceptions. -/
def Parts.known
    (property : Function → Prop) (known : String → Prop) (other : List Declarator → Prop) :
    Parts where
  expression expression := AllFunctions property (expression.nodes false)
  function := property
  declared declarators := KnownVariables property known declarators ∨ other declarators

/-- Parts all of whose functions have a property. -/
def Parts.all (property : Function → Prop) : Parts where
  expression expression := AllFunctions property (expression.nodes false)
  function := property
  declared declarators := AllFunctions property (nodesOfDeclarators false declarators)

/-- All functions have a property if they have a stronger one. -/
theorem Parts.all_implies
    {first second : Function → Prop} (implies : ∀ function, first function → second function) :
    (Parts.all first).Implies (Parts.all second) where
  expression := fun holds function member => implies function (holds function member)
  function := implies _
  declared := fun holds function member => implies function (holds function member)

mutual

/-- A plain expression contains no functions. -/
theorem Expression.functionsOf_plain
    {marker : Option String} {calls : Bool} : (expression : Expression) →
      expression.isPlain marker calls = true → functionsOf (expression.nodes false) = []
  | .literal _, _ | .identifier _, _ | .receiver, _ => by
      rw [Expression.nodes]
      rfl
  | .array elements, plain => by
      rw [Expression.isPlain] at plain
      rw [Expression.nodes, functionsOf_cons_expression, functionsOf_arePlain elements plain]
  | .record properties, plain => by
      rw [Expression.isPlain] at plain
      rw [Expression.nodes, functionsOf_cons_expression, functionsOf_valuesArePlain properties plain]
  | .unary _ argument, plain | .member argument _, plain => by
      rw [Expression.isPlain] at plain
      rw [Expression.nodes, functionsOf_cons_expression, argument.functionsOf_plain plain]
  | .binary _ left right, plain | .logical _ left right, plain | .index left right, plain => by
      rw [Expression.isPlain, Bool.and_eq_true] at plain
      rw [Expression.nodes, functionsOf_cons_expression, functionsOf_append,
        left.functionsOf_plain plain.1, right.functionsOf_plain plain.2, List.append_nil]
  | .conditional test consequent alternate, plain => by
      rw [Expression.isPlain, Bool.and_eq_true, Bool.and_eq_true] at plain
      rw [Expression.nodes, functionsOf_cons_expression, functionsOf_append, functionsOf_append,
        test.functionsOf_plain plain.1.1, consequent.functionsOf_plain plain.1.2,
        alternate.functionsOf_plain plain.2, List.append_nil, List.append_nil]
  | .call callee arguments, plain => by
      rw [Expression.nodes, functionsOf_cons_expression, functionsOf_append]
      rcases marked_or_unmarked marker (.call callee arguments) with marked | unmarked
      · obtain ⟨name, argument, rfl, found⟩ := marked
        rw [Expression.isPlain_of_marked found] at plain
        obtain ⟨rfl, equal⟩ := Contract.Capture.call_of_argument? found
        have alone : arePlain none calls arguments = true := by
          rw [equal, arePlain, plain, arePlain, Bool.and_self]
        rw [functionsOf_arePlain arguments alone, Expression.nodes]
        rfl
      · rw [Expression.isPlain_of_unmarked unmarked, Bool.and_eq_true, Bool.and_eq_true] at plain
        rw [callee.functionsOf_plain plain.1.2, functionsOf_arePlain arguments plain.2,
          List.append_nil]
  | .construct callee arguments, plain => by
      rw [Expression.isPlain, Bool.and_eq_true, Bool.and_eq_true] at plain
      rw [Expression.nodes, functionsOf_cons_expression, functionsOf_append,
        callee.functionsOf_plain plain.1.2, functionsOf_arePlain arguments plain.2, List.append_nil]
  | .sequence expressions, plain => by
      rw [Expression.isPlain] at plain
      rw [Expression.nodes, functionsOf_cons_expression, functionsOf_arePlain expressions plain]
  | .lambda _, plain | .update _ _ _, plain | .assign _ _ _, plain | .yield _ _, plain
  | .await _, plain => by
      simp [Expression.isPlain] at plain

theorem functionsOf_arePlain
    {marker : Option String} {calls : Bool} : (expressions : List Expression) →
      arePlain marker calls expressions = true →
        functionsOf (nodesOfExpressions false expressions) = []
  | [], _ => by
      rw [nodesOfExpressions]
      rfl
  | expression :: rest, plain => by
      rw [arePlain, Bool.and_eq_true] at plain
      rw [nodesOfExpressions, functionsOf_append, expression.functionsOf_plain plain.1,
        functionsOf_arePlain rest plain.2, List.append_nil]

theorem functionsOf_valuesArePlain
    {marker : Option String} {calls : Bool} : (properties : List Property) →
      valuesArePlain marker calls properties = true →
        functionsOf (nodesOfProperties false properties) = []
  | [], _ => by
      rw [nodesOfProperties]
      rfl
  | ⟨_, value⟩ :: rest, plain => by
      rw [valuesArePlain, Bool.and_eq_true] at plain
      rw [nodesOfProperties, functionsOf_append, value.functionsOf_plain plain.1,
        functionsOf_valuesArePlain rest plain.2, List.append_nil]

end

/-- A property of lists of nodes that parts of them take over and that makes names known. -/
structure Inherited (property : List Node → Prop) (known : String → Prop) : Prop where
  part {nodes part : List Node} : part.Sublist nodes → property nodes → property part
  names {nodes : List Node} :
    property nodes → ∀ node ∈ nodes, ∀ name ∈ node.occurringNames, known name

/-- Parts whose nodes have a property and whose variables are known. -/
def Parts.within (property : List Node → Prop) (known : String → Prop) : Parts where
  expression expression := property (expression.nodes true)
  function function := property (function.nodes true)
  declared declarators :=
    property (nodesOfDeclarators true declarators) ∧
      ∀ name ∈ namesOfDeclarators declarators, known name

namespace Inherited

set_option linter.unusedSectionVars false

variable {property : List Node → Prop} {known : String → Prop}
  (inherited : Inherited property known)

include inherited

theorem tail {node : Node} {nodes : List Node} (given : property (node :: nodes)) :
    property nodes :=
  inherited.part (List.sublist_cons_self _ _) given

theorem left {first second : List Node} (given : property (first ++ second)) : property first :=
  inherited.part (List.sublist_append_left _ _) given

theorem right {first second : List Node} (given : property (first ++ second)) : property second :=
  inherited.part (List.sublist_append_right _ _) given

/-- The functions of a tree take over what is known of its nodes. -/
theorem function {shallow deep : List Node} (given : property deep)
    (contains : Contains shallow deep) :
    AllFunctions (fun function => property (function.nodes true)) shallow :=
  fun function member => inherited.part (contains function member) given

omit inherited in
theorem withinOptional (expression : Option Expression)
    (given : property (nodesOfOptional true expression)) :
    (Parts.within property known).OnOptional expression := by
  intro written equal
  cases equal
  exact given

theorem withinDeclarators
    {declarators : List Declarator} {statement : Statement} {nodes : List Node}
    (listed : Node.occurringNames (.statement statement) = namesOfDeclarators declarators)
    (contained : (nodesOfDeclarators true declarators).Sublist nodes)
    (given : property (.statement statement :: nodes)) :
    (Parts.within property known).declared declarators :=
  ⟨inherited.part contained (inherited.tail given), fun name member =>
    inherited.names given _ List.mem_cons_self name (by rwa [listed])⟩

theorem withinLoopInit
    {test update : Option Expression} {body : Statement} {nodes : List Node} :
    (init : Option LoopInit) →
      property (.statement (.forLoop init test update body) :: (nodesOfLoopInit true init ++ nodes)) →
        (Parts.within property known).OnLoopInit init
  | none, _ => trivial
  | some (.bindings _ declarators), given => by
      rw [nodesOfLoopInit] at given
      exact inherited.withinDeclarators rfl (List.sublist_append_left _ _) given
  | some (.evaluate expression), given => by
      rw [nodesOfLoopInit] at given
      exact inherited.left (inherited.tail given)

mutual

/-- The parts of a statement take over what is known of its nodes, and its variables are known. -/
theorem withinStatement : (statement : Statement) → property (statement.nodes true) →
    (Parts.within property known).OnStatement statement
  | .evaluate expression, given | .raise expression, given => by
      rw [Statement.nodes] at given
      rw [Parts.OnStatement]
      exact inherited.tail given
  | .block statements, given => by
      rw [Statement.nodes] at given
      rw [Parts.OnStatement]
      exact withinStatements statements (inherited.tail given)
  | .labeled _ body, given => by
      rw [Statement.nodes] at given
      rw [Parts.OnStatement]
      exact withinStatement body (inherited.tail given)
  | .giveBack argument, given => by
      rw [Statement.nodes] at given
      rw [Parts.OnStatement]
      exact withinOptional argument (inherited.tail given)
  | .branch test consequent alternate, given => by
      rw [Statement.nodes] at given
      rw [Parts.OnStatement]
      have inner := inherited.tail given
      exact ⟨inherited.left (inherited.left inner),
        withinStatement consequent (inherited.right (inherited.left inner)),
        withinAlternate alternate (inherited.right inner)⟩
  | .whileLoop test body, given => by
      rw [Statement.nodes] at given
      rw [Parts.OnStatement]
      have inner := inherited.tail given
      exact ⟨inherited.left inner, withinStatement body (inherited.right inner)⟩
  | .doWhileLoop body test, given => by
      rw [Statement.nodes] at given
      rw [Parts.OnStatement]
      have inner := inherited.tail given
      exact ⟨inherited.right inner, withinStatement body (inherited.left inner)⟩
  | .forLoop init test update body, given => by
      rw [Statement.nodes] at given
      rw [Parts.OnStatement]
      have grouped := given
      rw [List.append_assoc, List.append_assoc] at grouped
      have inner := inherited.tail given
      exact ⟨inherited.withinLoopInit init grouped,
        withinOptional test (inherited.right (inherited.left (inherited.left inner))),
        withinOptional update (inherited.right (inherited.left inner)),
        withinStatement body (inherited.right inner)⟩
  | .bindings _ declarators, given => by
      rw [Statement.nodes] at given
      rw [Parts.OnStatement]
      exact inherited.withinDeclarators rfl (List.Sublist.refl _) given
  | .declare function, given => by
      rw [Statement.nodes] at given
      rw [Parts.OnStatement]
      exact inherited.tail given
  | .breakOut _, _ | .continueLoop _, _ | .empty, _ => by
      rw [Parts.OnStatement]
      trivial

theorem withinAlternate : (alternate : Option Statement) →
    property (nodesOfAlternate true alternate) →
      (Parts.within property known).OnAlternate alternate
  | none, _ => by
      rw [Parts.OnAlternate]
      trivial
  | some statement, given => by
      rw [nodesOfAlternate] at given
      rw [Parts.OnAlternate]
      exact withinStatement statement given

/-- The parts of statements take over what is known of their nodes. -/
theorem withinStatements : (statements : List Statement) →
    property (nodesOfStatements true statements) →
      (Parts.within property known).OnStatements statements
  | [], _ => by
      rw [Parts.OnStatements]
      trivial
  | statement :: rest, given => by
      rw [nodesOfStatements] at given
      rw [Parts.OnStatements]
      exact ⟨withinStatement statement (inherited.left given),
        withinStatements rest (inherited.right given)⟩

end

variable {other : List Declarator → Prop}

/-- Parts whose functions take over a property and whose variables are known. -/
abbrev parts (_ : Inherited property known) (other : List Declarator → Prop) : Parts :=
  Parts.known (fun function => property (function.nodes true)) known other

/-- What is known of the nodes of parts is known of the functions in them. -/
theorem within_implies : (Parts.within property known).Implies (inherited.parts other) where
  expression {expression} given := inherited.function given expression.contains
  function := id
  declared given := .inl ⟨inherited.function given.1 (containsOfDeclarators _), given.2⟩

/-- The functions in statements take over what is known of their nodes, and variables are known. -/
theorem onStatements
    (statements : List Statement) (given : property (nodesOfStatements true statements)) :
    (inherited.parts other).OnStatements statements :=
  Parts.OnStatements.imp inherited.within_implies statements
    (inherited.withinStatements statements given)

end Inherited

section

variable {size : Nat} {known : String → Prop} {other : List Declarator → Prop}

/-- The property of functions to be bounded. -/
abbrev BoundedFunction (size : Nat) (known : String → Prop) (function : Function) : Prop :=
  Bounded size known (function.nodes true)

/-- Parts of bounded nodes are bounded. -/
theorem Bounded.inherited (size : Nat) (known : String → Prop) :
    Inherited (Bounded size known) known where
  part sublist bounded := bounded.sublist sublist
  names bounded := bounded.names

/-- The functions and variables of bounded statements are bounded and known. -/
theorem Bounded.onStatements (statements : List Statement)
    (bounded : Bounded size known (nodesOfStatements true statements)) :
    (Parts.known (BoundedFunction size known) known other).OnStatements statements :=
  (Bounded.inherited size known).onStatements statements bounded

end

end Covenant
