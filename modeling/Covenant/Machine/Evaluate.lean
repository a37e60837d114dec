import Covenant.Machine.Action
import Covenant.Syntax.Printer

/-!
# Evaluation

Expressions are evaluated to values and statements executed to completions,
which say how control leaves a statement.  Thrown values leave a run
altogether, since no construct of the language catches them.

Programs need not end, so every step takes fuel and a run that uses up its
fuel stops as exhausted, which is no fault of the program's.  Fuel bounds the
nesting of steps and the rounds of each loop; more of it never changes a
result.
-/

namespace Covenant.Machine

/-- How a statement ends. -/
inductive Completion where
  /-- Control goes on to what follows. -/
  | finished
  /-- Control leaves the function with a value. -/
  | returned (value : Value)
  /-- Control leaves a loop or a labeled statement. -/
  | broken (label : Option String)
  /-- Control goes on with the next round of a loop. -/
  | continued (label : Option String)
  deriving DecidableEq

namespace Completion

/--
How a loop with an optional label goes on after a round: with the next one,
if there is no completion, or by ending with a completion of its own.
-/
def afterRound (label : Option String) : Completion → Option Completion
  | finished | continued none => none
  | broken none => some finished
  | continued (some target) =>
    if label = some target then none else some (continued (some target))
  | broken (some target) =>
    if label = some target then some finished else some (broken (some target))
  | returned value => some (returned value)

/-- How a labeled statement ends when its body does. -/
def afterLabel (label : String) : Completion → Completion
  | broken (some target) => if target = label then finished else broken (some target)
  | completion => completion

/-- The value of a call whose body ends so. -/
def result : Completion → Value
  | returned value => value
  | _ => .undefined

end Completion

/-- Something that can be assigned to. -/
inductive Place where
  /-- A name. -/
  | binding (name : String)
  /-- A property of a value. -/
  | property (base : Value) (key : String)
  deriving DecidableEq

/-- Bind a name in the innermost frame. -/
def declare (scope : Scope) (name : String) (binding : Binding) : Action Unit :=
  .update fun store => store.declare scope name binding

/-- A scope with an empty frame of its own. -/
def enterBlock (scope : Scope) : Action Scope :=
  .allocate fun store => store.enter [] scope

/-- A closure of a function declaration. -/
def makeClosure (scope : Scope) (function : Function) : Action Value :=
  .allocate fun store => store.addClosure ⟨function, scope⟩

/--
A closure of a function expression.  Where the expression names the function,
its body sees it under that name.
-/
def makeLambda (scope : Scope) (function : Function) : Action Value :=
  match function.name, function.isArrow with
  | some name, false => do
    let inner ← enterBlock scope
    let closure ← makeClosure inner function
    declare inner name ⟨closure, false⟩
    pure closure
  | _, _ => makeClosure scope function

/-- Bind the functions that statements declare, before the statements are run. -/
def hoist (scope : Scope) (statements : List Statement) : Action Unit :=
  statements.forM fun statement =>
    match statement with
    | .declare function =>
      match function.name with
      | some name => do
        let closure ← makeClosure scope function
        declare scope name ⟨closure, true⟩
      | none => pure ()
    | _ => pure ()

/-- Run statements in turn until one does not finish. -/
def inTurn (execute : Statement → Action Completion) : List Statement → Action Completion
  | [] => pure .finished
  | statement :: rest => do
    match ← execute statement with
    | .finished => inTurn execute rest
    | completion => pure completion

/-- The last of the values of expressions that are evaluated in turn. -/
def lastValue (evaluate : Expression → Action Value) :
    (last : Value) → List Expression → Action Value
  | last, [] => pure last
  | _, expression :: rest => do
    let value ← evaluate expression
    lastValue evaluate value rest

/-- The properties of an object expression; a repeated key keeps its place. -/
def evaluateProperties
    (evaluate : Expression → Action Value)
    (properties : List Property) : Action (List (String × Value)) := do
  let entries ← properties.mapM fun property => do
    let value ← evaluate property.value
    pure (property.key, value)
  pure (Entries.ofList entries)

/-- Bind the variables of a declaration. -/
def declareVariables
    (evaluate : Expression → Action Value)
    (scope : Scope)
    (kind : DeclarationKind)
    (declarators : List Declarator) : Action Unit :=
  declarators.forM fun declarator => do
    let value ←
      match declarator.init with
      | some init => evaluate init
      | none => pure .undefined
    declare scope declarator.name ⟨value, kind != .constant⟩

/-- The value and the key of an expression that denotes a property. -/
def propertyOf?
    (evaluate : Expression → Action Value) : Expression → Option (Action (Value × String))
  | .member object name => some do
    let base ← evaluate object
    pure (base, name)
  | .index object key => some do
    let base ← evaluate object
    let value ← evaluate key
    let key ← .query fun store => value.toKey store
    pure (base, key)
  | _ => none

/-- The place that an expression denotes. -/
def placeOf (evaluate : Expression → Action Value) (target : Expression) : Action Place :=
  match target with
  | .identifier name => pure (.binding name)
  | _ =>
    match propertyOf? evaluate target with
    | some found => do
      let (base, key) ← found
      pure (.property base key)
    | none => .fail (.type (.invalidTarget target.source))

/-- The value at a place. -/
def readPlace (scope : Scope) : Place → Action Value
  | .binding name => .check fun store => store.read scope name
  | .property base key => .check fun store => store.property base key

/-- Give a new value to a place. -/
def writePlace (scope : Scope) (place : Place) (value : Value) : Action Unit :=
  match place with
  | .binding name =>
    .tryUpdate fun store => (store.assign scope name value).mapError .fault
  | .property base key => .tryUpdate fun store => store.setProperty base key value

/-- A function that is to be called with the receiver of the call. -/
def calleeOf
    (evaluate : Expression → Action Value)
    (callee : Expression) : Action (Value × Value) :=
  match propertyOf? evaluate callee with
  | some found => do
    let (base, key) ← found
    let function ← .check fun store => store.property base key
    pure (function, base)
  | none => do
    let function ← evaluate callee
    pure (function, .undefined)

/-- Whether an expression is a name without a binding. -/
def isUnboundName (scope : Scope) (expression : Expression) : Action Bool :=
  match expression with
  | .identifier name => .query fun store => (store.lookup? scope name).isNone
  | _ => pure false

/-- Why a function cannot be run, if it is of a kind that cannot. -/
def unsupportedKind? (function : Function) : Option Unsupported :=
  if function.isAsync then some .asyncFunction
  else if function.isGenerator then some .generatorFunction
  else none

/-- The frame of a call: the receiver, except in arrow functions, and the parameters. -/
def callFrame (function : Function) (receiver : Value) (arguments : List Value) : Frame :=
  let own := if function.isArrow then [] else [("this", Binding.mk receiver false)]
  let values := arguments ++ List.replicate function.parameters.length .undefined
  (function.parameters.zip values).foldl
    (fun frame parameter => Entries.put parameter.1 ⟨parameter.2, true⟩ frame) own

mutual

/-- Evaluate an expression. -/
def evaluate (fuel : Nat) (scope : Scope) (expression : Expression) : Action Value :=
  match fuel with
  | 0 => throw .exhausted
  | fuel + 1 =>
    match expression with
    | .literal literal => pure (.primitive literal)
    | .identifier name => .check fun store => store.read scope name
    | .receiver => .query fun store => (store.lookup? scope "this").getD .undefined
    | .array elements => do
      let values ← elements.mapM (evaluate fuel scope)
      .allocate fun store => store.addArray values.toArray
    | .record properties => do
      let entries ← evaluateProperties (evaluate fuel scope) properties
      .allocate fun store => store.addObject ⟨.plain, entries⟩
    | .lambda function => makeLambda scope function
    | .unary operator argument => do
      if operator = .typeOf && (← isUnboundName scope argument) then
        pure (.text "undefined")
      else
        let operand ← evaluate fuel scope argument
        .query fun store => unaryResult store operator operand
    | .update operator leading argument => do
      let place ← placeOf (evaluate fuel scope) argument
      let current ← readPlace scope place
      let old ← .query fun store => current.toNumber store
      let new := old + Float.ofInt operator.delta
      writePlace scope place (.number new)
      pure (.number (if leading then new else old))
    | .binary operator left right => do
      let left ← evaluate fuel scope left
      let right ← evaluate fuel scope right
      .check fun store => binaryResult store operator left right
    | .logical operator left right => do
      let left ← evaluate fuel scope left
      if shortCircuits operator left then pure left else evaluate fuel scope right
    | .assign operator target value => do
      let place ← placeOf (evaluate fuel scope) target
      let value ←
        match operator.binary? with
        | none => evaluate fuel scope value
        | some operator => do
          let current ← readPlace scope place
          let operand ← evaluate fuel scope value
          .check fun store => binaryResult store operator current operand
      writePlace scope place value
      pure value
    | .conditional test consequent alternate => do
      let chosen ← evaluate fuel scope test
      if chosen.isTruthy then evaluate fuel scope consequent else evaluate fuel scope alternate
    | .call callee arguments => do
      let (function, receiver) ← calleeOf (evaluate fuel scope) callee
      let values ← arguments.mapM (evaluate fuel scope)
      if function.isCallable then
        call fuel function receiver values
      else
        .fail (.type (.notFunction callee.source))
    | .construct callee arguments => do
      let constructor ← evaluate fuel scope callee
      let values ← arguments.mapM (evaluate fuel scope)
      construct fuel constructor values callee
    | .member object name => do
      let base ← evaluate fuel scope object
      .check fun store => store.property base name
    | .index object key => do
      let base ← evaluate fuel scope object
      let key ← evaluate fuel scope key
      .check fun store => store.property base (key.toKey store)
    | .sequence expressions => lastValue (evaluate fuel scope) .undefined expressions
    | .yield _ _ => .fail (.unsupported .yield)
    | .await _ => .fail (.unsupported .await)

/-- Make an object with a function; the source of the function is for a report. -/
def construct
    (fuel : Nat)
    (constructor : Value)
    (arguments : List Value)
    (source : Expression) : Action Value :=
  match fuel with
  | 0 => throw .exhausted
  | fuel + 1 =>
    match constructor with
    | .builtin .makeError =>
      .allocate fun store => store.addError (arguments.headD .undefined)
    | .closure address => do
      let closure? ← .query fun store => store.closure? address
      if closure?.any fun closure => !closure.function.isArrow then
        let created ← .allocate fun store => store.addObject ⟨.plain, []⟩
        match ← call fuel constructor created arguments with
        | .object address => pure (.object address)
        | .array address => pure (.array address)
        | _ => pure created
      else
        .fail (.type (.notConstructor source.source))
    | _ => .fail (.type (.notConstructor source.source))

/-- Call a value. -/
def call
    (fuel : Nat)
    (callee receiver : Value)
    (arguments : List Value) : Action Value :=
  match fuel with
  | 0 => throw .exhausted
  | fuel + 1 =>
    match callee with
    | .builtin .makeError =>
      .allocate fun store => store.addError (arguments.headD .undefined)
    | .builtin .writeLine => do
      let line ← .query fun store =>
        String.intercalate " " (arguments.map fun value => value.toText store)
      .writeLine line
      pure .undefined
    | .closure address => do
      match ← .query fun store => store.closure? address with
      | none => pure .undefined
      | some closure =>
        match unsupportedKind? closure.function with
        | some construct => .fail (.unsupported construct)
        | none => .nested do
          let scope ← .allocate fun store =>
            store.enter (callFrame closure.function receiver arguments) closure.scope
          match closure.function.body with
          | .block statements => do
            let completion ← executeAll fuel scope statements
            pure completion.result
          | .result expression => evaluate fuel scope expression
    | other => do
      let text ← .query fun store => other.toText store
      .fail (.type (.notFunction text))

/-- Execute a statement; a loop is told the label that it carries. -/
def execute
    (fuel : Nat)
    (scope : Scope)
    (label : Option String)
    (statement : Statement) : Action Completion :=
  match fuel with
  | 0 => throw .exhausted
  | fuel + 1 =>
    match statement with
    | .evaluate expression => do
      discard (evaluate fuel scope expression)
      pure .finished
    | .block statements => do
      let inner ← enterBlock scope
      executeAll fuel inner statements
    | .labeled label body => do
      let completion ← execute fuel scope (some label) body
      pure (completion.afterLabel label)
    | .giveBack none => pure (.returned .undefined)
    | .giveBack (some argument) => do
      let value ← evaluate fuel scope argument
      pure (.returned value)
    | .branch test consequent alternate => do
      let chosen ← evaluate fuel scope test
      if chosen.isTruthy then
        execute fuel scope none consequent
      else
        match alternate with
        | some alternate => execute fuel scope none alternate
        | none => pure .finished
    | .whileLoop test body => rounds fuel scope label (some test) none body
    | .doWhileLoop body test => do
      let completion ← execute fuel scope none body
      match completion.afterRound label with
      | some completion => pure completion
      | none => rounds fuel scope label (some test) none body
    | .forLoop init test step body => do
      let inner ← enterBlock scope
      match init with
      | some (.bindings kind declarators) =>
        declareVariables (evaluate fuel inner) inner kind declarators
      | some (.evaluate expression) => discard (evaluate fuel inner expression)
      | none => pure ()
      rounds fuel inner label test step body
    | .bindings kind declarators => do
      declareVariables (evaluate fuel scope) scope kind declarators
      pure .finished
    | .declare _ => pure .finished
    | .raise argument => do
      let value ← evaluate fuel scope argument
      .fail (.thrown value)
    | .breakOut label => pure (.broken label)
    | .continueLoop label => pure (.continued label)
    | .empty => pure .finished

/-- Execute the statements of a block in its scope. -/
def executeAll
    (fuel : Nat)
    (scope : Scope)
    (statements : List Statement) : Action Completion :=
  match fuel with
  | 0 => throw .exhausted
  | fuel + 1 => do
    hoist scope statements
    inTurn (execute fuel scope none) statements

/-- Perform the rounds of a loop, each after its test and with a step behind it. -/
def rounds
    (fuel : Nat)
    (scope : Scope)
    (label : Option String)
    (test step : Option Expression)
    (body : Statement) : Action Completion :=
  match fuel with
  | 0 => throw .exhausted
  | fuel + 1 => do
    let goesOn ←
      match test with
      | some test => do
        let chosen ← evaluate fuel scope test
        pure chosen.isTruthy
      | none => pure true
    if goesOn then
      let completion ← execute fuel scope none body
      match completion.afterRound label with
      | some completion => pure completion
      | none =>
        match step with
        | some step => discard (evaluate fuel scope step)
        | none => pure ()
        rounds fuel scope label test step body
    else
      pure .finished

end

end Covenant.Machine
