import Covenant.Syntax.Tree

/-!
# Nodes in source order

The statements, expressions, and functions of a tree, listed in the order in
which they are written, outer nodes before the nodes inside them.  A listing
either enters functions or stops at them; a function that is not entered is
listed itself.

Analyses are questions about such listings: which names are declared, which
construct with an effect comes first, which functions there are.
-/

namespace Covenant

/-- A node of a syntax tree. -/
inductive Node where
  | statement (statement : Statement)
  | expression (expression : Expression)
  | function (function : Function)

mutual

/-- The nodes of an expression, the expression itself first. -/
def Expression.nodes (enter : Bool) (expression : Expression) : List Node :=
  .expression expression ::
    match expression with
    | .literal _ | .identifier _ | .receiver => []
    | .array elements => nodesOfExpressions enter elements
    | .record properties => nodesOfProperties enter properties
    | .lambda function => function.nodes enter
    | .unary _ argument | .update _ _ argument | .await argument => argument.nodes enter
    | .binary _ left right | .logical _ left right => left.nodes enter ++ right.nodes enter
    | .assign _ target value => target.nodes enter ++ value.nodes enter
    | .conditional test consequent alternate =>
      test.nodes enter ++ consequent.nodes enter ++ alternate.nodes enter
    | .call callee arguments | .construct callee arguments =>
      callee.nodes enter ++ nodesOfExpressions enter arguments
    | .member object _ => object.nodes enter
    | .index object key => object.nodes enter ++ key.nodes enter
    | .sequence expressions => nodesOfExpressions enter expressions
    | .yield argument _ => nodesOfOptional enter argument

/-- The nodes of expressions in turn. -/
def nodesOfExpressions (enter : Bool) : List Expression → List Node
  | [] => []
  | expression :: rest => expression.nodes enter ++ nodesOfExpressions enter rest

/-- The nodes of the values of properties in turn. -/
def nodesOfProperties (enter : Bool) : List Property → List Node
  | [] => []
  | ⟨_, value⟩ :: rest => value.nodes enter ++ nodesOfProperties enter rest

/-- The nodes of an expression that may be missing. -/
def nodesOfOptional (enter : Bool) : Option Expression → List Node
  | none => []
  | some expression => expression.nodes enter

/-- A function, and the nodes of its body if functions are entered. -/
def Function.nodes (enter : Bool) (function : Function) : List Node :=
  match function with
  | ⟨name, parameters, body, isArrow, isAsync, isGenerator⟩ =>
    .function ⟨name, parameters, body, isArrow, isAsync, isGenerator⟩ ::
      if enter then body.nodes enter else []

/-- The nodes of a function body. -/
def FunctionBody.nodes (enter : Bool) : FunctionBody → List Node
  | .block statements => nodesOfStatements enter statements
  | .result expression => expression.nodes enter

/-- The nodes of the initial values of declared variables. -/
def nodesOfDeclarators (enter : Bool) : List Declarator → List Node
  | [] => []
  | ⟨_, init⟩ :: rest => nodesOfOptional enter init ++ nodesOfDeclarators enter rest

/-- The nodes of the initial step of a counting loop. -/
def nodesOfLoopInit (enter : Bool) : Option LoopInit → List Node
  | none => []
  | some (.bindings _ declarators) => nodesOfDeclarators enter declarators
  | some (.evaluate expression) => expression.nodes enter

/-- The nodes of a statement, the statement itself first. -/
def Statement.nodes (enter : Bool) (statement : Statement) : List Node :=
  .statement statement ::
    match statement with
    | .evaluate expression | .raise expression => expression.nodes enter
    | .block statements => nodesOfStatements enter statements
    | .labeled _ body => body.nodes enter
    | .giveBack argument => nodesOfOptional enter argument
    | .branch test consequent alternate =>
      test.nodes enter ++ consequent.nodes enter ++ nodesOfAlternate enter alternate
    | .whileLoop test body => test.nodes enter ++ body.nodes enter
    | .doWhileLoop body test => body.nodes enter ++ test.nodes enter
    | .forLoop init test update body =>
      nodesOfLoopInit enter init ++ nodesOfOptional enter test ++
        nodesOfOptional enter update ++ body.nodes enter
    | .bindings _ declarators => nodesOfDeclarators enter declarators
    | .declare function => function.nodes enter
    | .breakOut _ | .continueLoop _ | .empty => []

/-- The nodes of a statement that may be missing. -/
def nodesOfAlternate (enter : Bool) : Option Statement → List Node
  | none => []
  | some statement => statement.nodes enter

/-- The nodes of statements in turn. -/
def nodesOfStatements (enter : Bool) : List Statement → List Node
  | [] => []
  | statement :: rest => statement.nodes enter ++ nodesOfStatements enter rest

end

/-- The nodes of a program. -/
def Program.nodes (enter : Bool) (program : Program) : List Node :=
  nodesOfStatements enter program.statements

/-- The name of an expression's kind, with the name itself for a reference. -/
def Expression.kindName : Expression → String
  | .literal _ => "Literal"
  | .identifier name => "Identifier " ++ name
  | .receiver => "This"
  | .array _ => "Array"
  | .record _ => "Object"
  | .lambda _ => "Function"
  | .unary _ _ => "Unary"
  | .update _ _ _ => "Update"
  | .binary _ _ _ => "Binary"
  | .logical _ _ _ => "Logical"
  | .assign _ _ _ => "Assign"
  | .conditional _ _ _ => "Conditional"
  | .call _ _ => "Call"
  | .construct _ _ => "New"
  | .member _ _ | .index _ _ => "Member"
  | .sequence _ => "Sequence"
  | .yield _ _ => "Yield"
  | .await _ => "Await"

/-- One line that describes a node. -/
def Node.describe (node : Node) : String :=
  match node with
  | .statement written => written.kindName
  | .expression written => written.kindName
  | .function written => "function " ++ written.name.getD "-"

end Covenant
