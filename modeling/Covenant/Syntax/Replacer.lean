import Covenant.Syntax.Tree

/-!
# Replacing parts of trees in source order

A replacer looks at the statements, expressions, and functions of a tree in
the order in which they are written.  For each it either supplies a
replacement, which is taken as it stands, or leaves the node in place and
goes on inside it.  Replacers may carry a state or fail, since they work in
any monad.
-/

namespace Covenant

/-- What a replacer puts in the place of a node; without a replacement it goes on inside. -/
structure Replacer (m : Type → Type) where
  /-- A replacement for a statement. -/
  statement : Statement → m (Option Statement)
  /-- A replacement for an expression. -/
  expression : Expression → m (Option Expression)
  /-- A replacement for a function. -/
  function : Function → m (Option Function)

namespace Replacer

variable {m : Type → Type} [Monad m]

mutual

/-- Replace inside an expression. -/
def onExpression (replacer : Replacer m) (expression : Expression) : m Expression := do
  match ← replacer.expression expression with
  | some replacement => pure replacement
  | none =>
    match expression with
    | .literal value => pure (.literal value)
    | .identifier name => pure (.identifier name)
    | .receiver => pure .receiver
    | .array elements => do
      let elements ← replacer.onExpressions elements
      pure (.array elements)
    | .record properties => do
      let properties ← replacer.onProperties properties
      pure (.record properties)
    | .lambda function => do
      let function ← replacer.onFunction function
      pure (.lambda function)
    | .unary operator argument => do
      let argument ← replacer.onExpression argument
      pure (.unary operator argument)
    | .update operator leading argument => do
      let argument ← replacer.onExpression argument
      pure (.update operator leading argument)
    | .binary operator left right => do
      let left ← replacer.onExpression left
      let right ← replacer.onExpression right
      pure (.binary operator left right)
    | .logical operator left right => do
      let left ← replacer.onExpression left
      let right ← replacer.onExpression right
      pure (.logical operator left right)
    | .assign operator target value => do
      let target ← replacer.onExpression target
      let value ← replacer.onExpression value
      pure (.assign operator target value)
    | .conditional test consequent alternate => do
      let test ← replacer.onExpression test
      let consequent ← replacer.onExpression consequent
      let alternate ← replacer.onExpression alternate
      pure (.conditional test consequent alternate)
    | .call callee arguments => do
      let callee ← replacer.onExpression callee
      let arguments ← replacer.onExpressions arguments
      pure (.call callee arguments)
    | .construct callee arguments => do
      let callee ← replacer.onExpression callee
      let arguments ← replacer.onExpressions arguments
      pure (.construct callee arguments)
    | .member object name => do
      let object ← replacer.onExpression object
      pure (.member object name)
    | .index object key => do
      let object ← replacer.onExpression object
      let key ← replacer.onExpression key
      pure (.index object key)
    | .sequence expressions => do
      let expressions ← replacer.onExpressions expressions
      pure (.sequence expressions)
    | .yield argument delegate => do
      let argument ← replacer.onOptional argument
      pure (.yield argument delegate)
    | .await argument => do
      let argument ← replacer.onExpression argument
      pure (.await argument)

/-- Replace inside expressions in turn. -/
def onExpressions (replacer : Replacer m) : List Expression → m (List Expression)
  | [] => pure []
  | expression :: rest => do
    let expression ← replacer.onExpression expression
    let rest ← replacer.onExpressions rest
    pure (expression :: rest)

/-- Replace inside the values of properties in turn. -/
def onProperties (replacer : Replacer m) : List Property → m (List Property)
  | [] => pure []
  | ⟨key, value⟩ :: rest => do
    let value ← replacer.onExpression value
    let rest ← replacer.onProperties rest
    pure (⟨key, value⟩ :: rest)

/-- Replace inside an expression that may be missing. -/
def onOptional (replacer : Replacer m) : Option Expression → m (Option Expression)
  | none => pure none
  | some expression => do
    let expression ← replacer.onExpression expression
    pure (some expression)

/-- Replace inside a function. -/
def onFunction (replacer : Replacer m) (function : Function) : m Function :=
  match function with
  | ⟨name, parameters, body, isArrow, isAsync, isGenerator⟩ => do
    match ← replacer.function ⟨name, parameters, body, isArrow, isAsync, isGenerator⟩ with
    | some replacement => pure replacement
    | none => do
      let body ← replacer.onFunctionBody body
      pure ⟨name, parameters, body, isArrow, isAsync, isGenerator⟩

/-- Replace inside the body of a function. -/
def onFunctionBody (replacer : Replacer m) : FunctionBody → m FunctionBody
  | .block statements => do
    let statements ← replacer.onStatements statements
    pure (.block statements)
  | .result expression => do
    let expression ← replacer.onExpression expression
    pure (.result expression)

/-- Replace inside the initial values of declared variables in turn. -/
def onDeclarators (replacer : Replacer m) : List Declarator → m (List Declarator)
  | [] => pure []
  | ⟨name, init⟩ :: rest => do
    let init ← replacer.onOptional init
    let rest ← replacer.onDeclarators rest
    pure (⟨name, init⟩ :: rest)

/-- Replace inside the initial step of a counting loop. -/
def onLoopInit (replacer : Replacer m) : Option LoopInit → m (Option LoopInit)
  | none => pure none
  | some (.bindings kind declarators) => do
    let declarators ← replacer.onDeclarators declarators
    pure (some (.bindings kind declarators))
  | some (.evaluate expression) => do
    let expression ← replacer.onExpression expression
    pure (some (.evaluate expression))

/-- Replace inside a statement. -/
def onStatement (replacer : Replacer m) (statement : Statement) : m Statement := do
  match ← replacer.statement statement with
  | some replacement => pure replacement
  | none =>
    match statement with
    | .evaluate expression => do
      let expression ← replacer.onExpression expression
      pure (.evaluate expression)
    | .block statements => do
      let statements ← replacer.onStatements statements
      pure (.block statements)
    | .labeled label body => do
      let body ← replacer.onStatement body
      pure (.labeled label body)
    | .giveBack argument => do
      let argument ← replacer.onOptional argument
      pure (.giveBack argument)
    | .branch test consequent alternate => do
      let test ← replacer.onExpression test
      let consequent ← replacer.onStatement consequent
      let alternate ← replacer.onAlternate alternate
      pure (.branch test consequent alternate)
    | .whileLoop test body => do
      let test ← replacer.onExpression test
      let body ← replacer.onStatement body
      pure (.whileLoop test body)
    | .doWhileLoop body test => do
      let body ← replacer.onStatement body
      let test ← replacer.onExpression test
      pure (.doWhileLoop body test)
    | .forLoop init test update body => do
      let init ← replacer.onLoopInit init
      let test ← replacer.onOptional test
      let update ← replacer.onOptional update
      let body ← replacer.onStatement body
      pure (.forLoop init test update body)
    | .bindings kind declarators => do
      let declarators ← replacer.onDeclarators declarators
      pure (.bindings kind declarators)
    | .declare function => do
      let function ← replacer.onFunction function
      pure (.declare function)
    | .raise argument => do
      let argument ← replacer.onExpression argument
      pure (.raise argument)
    | .breakOut label => pure (.breakOut label)
    | .continueLoop label => pure (.continueLoop label)
    | .empty => pure .empty

/-- Replace inside a statement that may be missing. -/
def onAlternate (replacer : Replacer m) : Option Statement → m (Option Statement)
  | none => pure none
  | some statement => do
    let statement ← replacer.onStatement statement
    pure (some statement)

/-- Replace inside statements in turn. -/
def onStatements (replacer : Replacer m) : List Statement → m (List Statement)
  | [] => pure []
  | statement :: rest => do
    let statement ← replacer.onStatement statement
    let rest ← replacer.onStatements rest
    pure (statement :: rest)

end

end Replacer

/-- Number the references of a tree from the count of those already numbered. -/
def numberReferences (enter : Bool) : Replacer (StateM Nat) where
  statement _ := pure none
  expression
    | .identifier name => do
      modify (· + 1)
      let count ← get
      pure (some (.identifier (name ++ "_" ++ Nat.repr count)))
    | _ => pure none
  function function := pure (if enter then none else some function)

/-- The program with its references numbered in source order, and how many there are. -/
def Program.numbered (enter : Bool) (program : Program) : Program × Nat :=
  let (statements, count) := ((numberReferences enter).onStatements program.statements).run 0
  (⟨statements⟩, count)

end Covenant
