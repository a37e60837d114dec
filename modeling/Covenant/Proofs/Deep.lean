import Covenant.Proofs.Functions

/-!
# Functions at every depth

The functions of a tree at every depth are those that stand outside other
functions, each followed by the functions inside it.  What holds of every
function that stands outside others and of all functions inside it therefore
holds at every depth.
-/

namespace Covenant

/-- A function and the functions inside it. -/
def Function.withInner (function : Function) : List Function :=
  functionsOf (function.nodes true)

theorem Function.withInner_eq (function : Function) :
    function.withInner = function :: functionsOf (function.body.nodes true) := by
  rw [Function.withInner, Function.nodes_true, functionsOf_cons_function]

/-- The functions among some nodes are those among others with the functions inside them. -/
def Unfolds (shallow deep : List Node) : Prop :=
  functionsOf deep = (functionsOf shallow).flatMap Function.withInner

namespace Unfolds

theorem nil : Unfolds [] [] :=
  rfl

theorem cons_statement
    {shallow deep : List Node} (unfolds : Unfolds shallow deep) (statement : Statement) :
    Unfolds (.statement statement :: shallow) (.statement statement :: deep) :=
  unfolds

theorem cons_expression
    {shallow deep : List Node} (unfolds : Unfolds shallow deep) (expression : Expression) :
    Unfolds (.expression expression :: shallow) (.expression expression :: deep) :=
  unfolds

theorem append
    {shallow deep shallow' deep' : List Node}
    (first : Unfolds shallow deep) (second : Unfolds shallow' deep') :
    Unfolds (shallow ++ shallow') (deep ++ deep') := by
  rw [Unfolds] at first second ⊢
  rw [functionsOf_append, functionsOf_append, List.flatMap_append, first, second]

theorem function (function : Function) :
    Unfolds (function.nodes false) (function.nodes true) := by
  rw [Unfolds, Function.nodes_false, functionsOf_cons_function, functionsOf_nil,
    List.flatMap_cons, List.flatMap_nil, List.append_nil, Function.withInner]

end Unfolds

mutual

/-- The functions in an expression unfold to those at every depth. -/
theorem Expression.unfolds : (expression : Expression) →
    Unfolds (expression.nodes false) (expression.nodes true)
  | .literal _ | .identifier _ | .receiver => by
      rw [Expression.nodes, Expression.nodes]
      exact Unfolds.nil.cons_expression _
  | .array elements => by
      rw [Expression.nodes, Expression.nodes]
      exact (unfoldsOfExpressions elements).cons_expression _
  | .record properties => by
      rw [Expression.nodes, Expression.nodes]
      exact (unfoldsOfProperties properties).cons_expression _
  | .lambda function => by
      rw [Expression.nodes, Expression.nodes]
      exact (Unfolds.function function).cons_expression _
  | .unary _ argument | .update _ _ argument | .await argument | .member argument _ => by
      rw [Expression.nodes, Expression.nodes]
      exact argument.unfolds.cons_expression _
  | .binary _ left right | .logical _ left right | .assign _ left right | .index left right => by
      rw [Expression.nodes, Expression.nodes]
      exact (left.unfolds.append right.unfolds).cons_expression _
  | .conditional test consequent alternate => by
      rw [Expression.nodes, Expression.nodes]
      exact ((test.unfolds.append consequent.unfolds).append alternate.unfolds).cons_expression _
  | .call callee arguments | .construct callee arguments => by
      rw [Expression.nodes, Expression.nodes]
      exact (callee.unfolds.append (unfoldsOfExpressions arguments)).cons_expression _
  | .sequence expressions => by
      rw [Expression.nodes, Expression.nodes]
      exact (unfoldsOfExpressions expressions).cons_expression _
  | .yield argument _ => by
      rw [Expression.nodes, Expression.nodes]
      exact (unfoldsOfOptional argument).cons_expression _

theorem unfoldsOfExpressions : (expressions : List Expression) →
    Unfolds (nodesOfExpressions false expressions) (nodesOfExpressions true expressions)
  | [] => by
      rw [nodesOfExpressions, nodesOfExpressions]
      exact .nil
  | expression :: rest => by
      rw [nodesOfExpressions, nodesOfExpressions]
      exact expression.unfolds.append (unfoldsOfExpressions rest)

theorem unfoldsOfProperties : (properties : List Property) →
    Unfolds (nodesOfProperties false properties) (nodesOfProperties true properties)
  | [] => by
      rw [nodesOfProperties, nodesOfProperties]
      exact .nil
  | ⟨_, value⟩ :: rest => by
      rw [nodesOfProperties, nodesOfProperties]
      exact value.unfolds.append (unfoldsOfProperties rest)

theorem unfoldsOfOptional : (expression : Option Expression) →
    Unfolds (nodesOfOptional false expression) (nodesOfOptional true expression)
  | none => by
      rw [nodesOfOptional, nodesOfOptional]
      exact .nil
  | some expression => by
      rw [nodesOfOptional, nodesOfOptional]
      exact expression.unfolds

end

theorem unfoldsOfDeclarators : (declarators : List Declarator) →
    Unfolds (nodesOfDeclarators false declarators) (nodesOfDeclarators true declarators)
  | [] => by
      rw [nodesOfDeclarators, nodesOfDeclarators]
      exact .nil
  | ⟨_, init⟩ :: rest => by
      rw [nodesOfDeclarators, nodesOfDeclarators]
      exact (unfoldsOfOptional init).append (unfoldsOfDeclarators rest)

theorem unfoldsOfLoopInit : (init : Option LoopInit) →
    Unfolds (nodesOfLoopInit false init) (nodesOfLoopInit true init)
  | none => by
      rw [nodesOfLoopInit, nodesOfLoopInit]
      exact .nil
  | some (.bindings _ declarators) => by
      rw [nodesOfLoopInit, nodesOfLoopInit]
      exact unfoldsOfDeclarators declarators
  | some (.evaluate expression) => by
      rw [nodesOfLoopInit, nodesOfLoopInit]
      exact expression.unfolds

mutual

/-- The functions in a statement unfold to those at every depth. -/
theorem Statement.unfolds : (statement : Statement) →
    Unfolds (statement.nodes false) (statement.nodes true)
  | .evaluate expression | .raise expression => by
      rw [Statement.nodes, Statement.nodes]
      exact expression.unfolds.cons_statement _
  | .block statements => by
      rw [Statement.nodes, Statement.nodes]
      exact (unfoldsOfStatements statements).cons_statement _
  | .labeled _ body => by
      rw [Statement.nodes, Statement.nodes]
      exact body.unfolds.cons_statement _
  | .giveBack argument => by
      rw [Statement.nodes, Statement.nodes]
      exact (unfoldsOfOptional argument).cons_statement _
  | .branch test consequent alternate => by
      rw [Statement.nodes, Statement.nodes]
      exact ((test.unfolds.append consequent.unfolds).append
        (unfoldsOfAlternate alternate)).cons_statement _
  | .whileLoop test body => by
      rw [Statement.nodes, Statement.nodes]
      exact (test.unfolds.append body.unfolds).cons_statement _
  | .doWhileLoop body test => by
      rw [Statement.nodes, Statement.nodes]
      exact (body.unfolds.append test.unfolds).cons_statement _
  | .forLoop init test update body => by
      rw [Statement.nodes, Statement.nodes]
      exact (((unfoldsOfLoopInit init).append (unfoldsOfOptional test)).append
        (unfoldsOfOptional update) |>.append body.unfolds).cons_statement _
  | .bindings _ declarators => by
      rw [Statement.nodes, Statement.nodes]
      exact (unfoldsOfDeclarators declarators).cons_statement _
  | .declare function => by
      rw [Statement.nodes, Statement.nodes]
      exact (Unfolds.function function).cons_statement _
  | .breakOut _ | .continueLoop _ | .empty => by
      rw [Statement.nodes, Statement.nodes]
      exact Unfolds.nil.cons_statement _

theorem unfoldsOfAlternate : (alternate : Option Statement) →
    Unfolds (nodesOfAlternate false alternate) (nodesOfAlternate true alternate)
  | none => by
      rw [nodesOfAlternate, nodesOfAlternate]
      exact .nil
  | some statement => by
      rw [nodesOfAlternate, nodesOfAlternate]
      exact statement.unfolds

/-- The functions in statements unfold to those at every depth. -/
theorem unfoldsOfStatements : (statements : List Statement) →
    Unfolds (nodesOfStatements false statements) (nodesOfStatements true statements)
  | [] => by
      rw [nodesOfStatements, nodesOfStatements]
      exact .nil
  | statement :: rest => by
      rw [nodesOfStatements, nodesOfStatements]
      exact statement.unfolds.append (unfoldsOfStatements rest)

end

/-- The functions in the body of a function unfold to those at every depth. -/
theorem FunctionBody.unfolds : (body : FunctionBody) →
    Unfolds (body.nodes false) (body.nodes true)
  | .block statements => by
      rw [FunctionBody.nodes, FunctionBody.nodes]
      exact unfoldsOfStatements statements
  | .result expression => by
      rw [FunctionBody.nodes, FunctionBody.nodes]
      exact expression.unfolds

/-! ## Properties at every depth -/

variable {property : Function → Prop}

/-- A function and all functions inside it have a property. -/
def Deeply (property : Function → Prop) (function : Function) : Prop :=
  ∀ inner ∈ function.withInner, property inner

/-- All functions have a property if it is one of those outside others and of those inside them. -/
theorem Unfolds.allFunctions_iff {shallow deep : List Node} (unfolds : Unfolds shallow deep) :
    AllFunctions property deep ↔ AllFunctions (Deeply property) shallow := by
  rw [AllFunctions, unfolds]
  constructor
  · intro holds function member inner among
    exact holds inner (List.mem_flatMap.mpr ⟨function, member, among⟩)
  · intro holds inner member
    obtain ⟨function, among, found⟩ := List.mem_flatMap.mp member
    exact holds function among inner found

theorem deeply_iff {function : Function} :
    Deeply property function ↔
      property function ∧ AllFunctions (Deeply property) (function.body.nodes false) := by
  rw [Deeply, Function.withInner_eq, ← function.body.unfolds.allFunctions_iff]
  exact List.forall_mem_cons

/-- A requirement on functions is one on those among the nodes of an expression that may be missing. -/
theorem Parts.onOptional_all {expression : Option Expression} :
    (Parts.all property).OnOptional expression ↔
      AllFunctions property (nodesOfOptional false expression) := by
  cases expression with
  | none => simp [Parts.OnOptional, nodesOfOptional, AllFunctions]
  | some given =>
      rw [nodesOfOptional]
      exact ⟨fun holds => holds given rfl, fun holds written equal => by
        cases equal
        exact holds⟩

theorem Parts.onLoopInit_all {init : Option LoopInit} :
    (Parts.all property).OnLoopInit init ↔ AllFunctions property (nodesOfLoopInit false init) := by
  cases init with
  | none => simp [Parts.OnLoopInit, nodesOfLoopInit, AllFunctions]
  | some init => cases init <;> rfl

theorem AllFunctions.cons_statement {statement : Statement} {nodes : List Node} :
    AllFunctions property (.statement statement :: nodes) ↔ AllFunctions property nodes :=
  Iff.rfl

mutual

/-- A requirement on the functions in a statement is one on those among its nodes. -/
theorem Parts.onStatement_all : (statement : Statement) →
    ((Parts.all property).OnStatement statement ↔ AllFunctions property (statement.nodes false))
  | .evaluate _ | .raise _ => by
      rw [Parts.OnStatement, Statement.nodes]
      exact Iff.rfl
  | .block statements => by
      rw [Parts.OnStatement, Statement.nodes, AllFunctions.cons_statement]
      exact Parts.onStatements_all statements
  | .labeled _ body => by
      rw [Parts.OnStatement, Statement.nodes, AllFunctions.cons_statement]
      exact Parts.onStatement_all body
  | .giveBack argument => by
      rw [Parts.OnStatement, Statement.nodes, AllFunctions.cons_statement]
      exact Parts.onOptional_all
  | .branch _ consequent alternate => by
      rw [Parts.OnStatement, Statement.nodes, AllFunctions.cons_statement, AllFunctions.append,
        AllFunctions.append, Parts.onStatement_all consequent, Parts.onAlternate_all alternate,
        and_assoc]
      exact Iff.rfl
  | .whileLoop _ body => by
      rw [Parts.OnStatement, Statement.nodes, AllFunctions.cons_statement, AllFunctions.append,
        Parts.onStatement_all body]
      exact Iff.rfl
  | .doWhileLoop body _ => by
      rw [Parts.OnStatement, Statement.nodes, AllFunctions.cons_statement, AllFunctions.append,
        Parts.onStatement_all body, and_comm]
      exact Iff.rfl
  | .forLoop _ _ _ body => by
      rw [Parts.OnStatement, Statement.nodes, AllFunctions.cons_statement, AllFunctions.append,
        AllFunctions.append, AllFunctions.append, Parts.onStatement_all body,
        Parts.onLoopInit_all, Parts.onOptional_all, Parts.onOptional_all, and_assoc, and_assoc]
  | .bindings _ _ => by
      rw [Parts.OnStatement, Statement.nodes]
      exact Iff.rfl
  | .declare _ => by
      rw [Parts.OnStatement, Statement.nodes, AllFunctions.cons_statement, AllFunctions.of_lambda]
      exact Iff.rfl
  | .breakOut _ | .continueLoop _ | .empty => by
      rw [Parts.OnStatement, Statement.nodes, AllFunctions.cons_statement]
      exact iff_of_true trivial AllFunctions.nil

theorem Parts.onAlternate_all : (alternate : Option Statement) →
    ((Parts.all property).OnAlternate alternate ↔
      AllFunctions property (nodesOfAlternate false alternate))
  | none => by
      rw [Parts.OnAlternate, nodesOfAlternate]
      exact iff_of_true trivial AllFunctions.nil
  | some statement => by
      rw [Parts.OnAlternate, nodesOfAlternate]
      exact Parts.onStatement_all statement

/-- A requirement on the functions in statements is one on those among their nodes. -/
theorem Parts.onStatements_all : (statements : List Statement) →
    ((Parts.all property).OnStatements statements ↔
      AllFunctions property (nodesOfStatements false statements))
  | [] => by
      rw [Parts.OnStatements, nodesOfStatements]
      exact iff_of_true trivial AllFunctions.nil
  | statement :: rest => by
      rw [Parts.OnStatements, nodesOfStatements, AllFunctions.append,
        Parts.onStatement_all statement, Parts.onStatements_all rest]

end

end Covenant
