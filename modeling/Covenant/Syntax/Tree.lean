import Covenant.Literal.Operator

/-!
# Syntax trees

Programs of the script language as trees.  Statements may carry labels, and
it is through labels that a program states its contracts; the trees
themselves know nothing of contracts.

A function may stand in an expression or be declared by a statement.  Its
body is a block, or a single expression as arrow functions allow.
-/

namespace Covenant

mutual

/-- An expression. -/
inductive Expression where
  /-- A primitive value. -/
  | literal (value : Literal)
  /-- A reference to a binding. -/
  | identifier (name : String)
  /-- The receiver of the running call. -/
  | receiver
  /-- An array of the values of its elements. -/
  | array (elements : List Expression)
  /-- An object with the given properties. -/
  | record (properties : List Property)
  /-- A closure of a function. -/
  | lambda (function : Function)
  /-- A unary operation. -/
  | unary (operator : UnaryOperator) (argument : Expression)
  /-- A step by one; the new value is the result if the operator comes first. -/
  | update (operator : UpdateOperator) (leading : Bool) (argument : Expression)
  /-- A binary operation. -/
  | binary (operator : BinaryOperator) (left right : Expression)
  /-- A logical operation. -/
  | logical (operator : LogicalOperator) (left right : Expression)
  /-- An assignment. -/
  | assign (operator : AssignOperator) (target value : Expression)
  /-- A choice between two expressions. -/
  | conditional (test consequent alternate : Expression)
  /-- A call. -/
  | call (callee : Expression) (arguments : List Expression)
  /-- A construction. -/
  | construct (callee : Expression) (arguments : List Expression)
  /-- A property with a fixed name. -/
  | member (object : Expression) (name : String)
  /-- A property with a computed name. -/
  | index (object key : Expression)
  /-- Expressions evaluated in turn; the last one is the result. -/
  | sequence (expressions : List Expression)
  /-- A value handed out by a generator. -/
  | yield (argument : Option Expression) (delegate : Bool)
  /-- A value waited for by an asynchronous function. -/
  | await (argument : Expression)

/-- A property of an object expression. -/
structure Property where
  key : String
  value : Expression

/-- A function, with the flags that say which kind it is. -/
structure Function where
  name : Option String
  parameters : List String
  body : FunctionBody
  isArrow : Bool
  isAsync : Bool
  isGenerator : Bool

/-- What a function does. -/
inductive FunctionBody where
  /-- Statements. -/
  | block (statements : List Statement)
  /-- A single expression, which is the result. -/
  | result (expression : Expression)

/-- One variable of a declaration. -/
structure Declarator where
  name : String
  init : Option Expression

/-- What a counting loop does before its first round. -/
inductive LoopInit where
  /-- Declare variables. -/
  | bindings (kind : DeclarationKind) (declarators : List Declarator)
  /-- Evaluate an expression. -/
  | evaluate (expression : Expression)

/-- A statement. -/
inductive Statement where
  /-- Evaluate an expression. -/
  | evaluate (expression : Expression)
  /-- Run statements in a scope of their own. -/
  | block (statements : List Statement)
  /-- A statement with a label. -/
  | labeled (label : String) (body : Statement)
  /-- Leave the function with a value. -/
  | giveBack (argument : Option Expression)
  /-- Choose between two statements. -/
  | branch (test : Expression) (consequent : Statement) (alternate : Option Statement)
  /-- Repeat while a test holds. -/
  | whileLoop (test : Expression) (body : Statement)
  /-- Repeat while a test holds, at least once. -/
  | doWhileLoop (body : Statement) (test : Expression)
  /-- Repeat with an initial step and a step after each round. -/
  | forLoop (init : Option LoopInit) (test update : Option Expression) (body : Statement)
  /-- Declare variables. -/
  | bindings (kind : DeclarationKind) (declarators : List Declarator)
  /-- Declare a function. -/
  | declare (function : Function)
  /-- Throw a value. -/
  | raise (argument : Expression)
  /-- Leave a loop or a labeled statement. -/
  | breakOut (label : Option String)
  /-- Go on with the next round of a loop. -/
  | continueLoop (label : Option String)
  /-- Do nothing. -/
  | empty

end

/-- A program: the statements at its top level. -/
structure Program where
  statements : List Statement

/-- The statements of a function whose body is a block. -/
def Function.block? (function : Function) : Option (List Statement) :=
  match function.body with
  | .block statements => some statements
  | .result _ => none

namespace Statement

/-- The name of a statement's kind. -/
def kindName : Statement → String
  | evaluate _ => "expression statement"
  | block _ => "block"
  | labeled _ _ => "labeled statement"
  | giveBack _ => "return statement"
  | branch _ _ _ => "if statement"
  | whileLoop _ _ => "while loop"
  | doWhileLoop _ _ => "do-while loop"
  | forLoop _ _ _ _ => "for loop"
  | bindings _ _ => "variable declaration"
  | declare _ => "function declaration"
  | raise _ => "throw statement"
  | breakOut _ => "break statement"
  | continueLoop _ => "continue statement"
  | empty => "empty statement"

/-- Whether a statement leaves the function. -/
def isReturn : Statement → Bool
  | giveBack _ => true
  | _ => false

/-- The label of a labeled statement. -/
def label? : Statement → Option String
  | labeled label _ => some label
  | _ => none

/--
What a labeled statement contributes when its label is dropped: the
statements of its block, or its body itself.
-/
def unlabeled : Statement → List Statement
  | labeled _ (block statements) => statements
  | labeled _ body => [body]
  | statement => [statement]

end Statement

/-- A top-level function that cannot be found by its name. -/
structure MissingFunction where
  name : String
  deriving DecidableEq, Repr

/-- The text that reports a missing function. -/
def MissingFunction.message (missing : MissingFunction) : String :=
  "function not found: '" ++ missing.name ++ "'"

/-- The first top-level function declaration with a given name. -/
def Program.function? (program : Program) (name : String) : Option Function :=
  program.statements.findSome? fun statement =>
    match statement with
    | .declare function => if function.name = some name then some function else none
    | _ => none

/-- The first top-level function declaration with a given name, or its absence. -/
def Program.requireFunction (program : Program) (name : String) :
    Except MissingFunction Function :=
  match program.function? name with
  | some function => .ok function
  | none => .error ⟨name⟩

end Covenant
