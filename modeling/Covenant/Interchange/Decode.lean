import Covenant.Interchange.Operator
import Covenant.Json.Reader
import Covenant.Syntax.Tree

/-!
# Reading trees in the interchange form

The interchange form is read strictly where it matters and leniently where it
does not: every part must be there and of the right shape, unless it may be
missing, and a part given twice is refused; parts of unknown names are passed
over.  A record may also be written as the array of its parts in their order.

Every reading function descends into the value that it is given, so the depth
of the value bounds the recursion.
-/

namespace Covenant

namespace Json

/-- The parts of a record: an object, or an array of at least `least` parts in order. -/
def parts? (names : List String) (least : Nat) : Json → Option (List (String × Json))
  | object entries => some entries
  | array elements =>
    if least ≤ elements.length ∧ elements.length ≤ names.length then
      some (names.zip elements)
    else
      none
  | _ => none

/-- The only part with a given name: none if it is missing, refused if it is given twice. -/
def part? (name : String) (entries : List (String × Json)) : Option (Option Json) :=
  match valuesOf name entries with
  | [] => some none
  | [value] => some (some value)
  | _ => none

/-- Read a part that must be there. -/
def required? {α : Type} (name : String) (read : Json → Option α)
    (entries : List (String × Json)) : Option α :=
  match part? name entries with
  | some (some value) => read value
  | _ => none

/-- Read a part that may be missing or null. -/
def optional? {α : Type} (name : String) (read : Json → Option α)
    (entries : List (String × Json)) : Option (Option α) :=
  match part? name entries with
  | none => none
  | some none => some none
  | some (some null) => some none
  | some (some value) => (read value).map some

/-- Read a part that may be missing but not null. -/
def defaulted? {α : Type} (name : String) (usual : α) (read : Json → Option α)
    (entries : List (String × Json)) : Option α :=
  match part? name entries with
  | none => none
  | some none => some usual
  | some (some value) => read value

/-- The kind of a node and its content, if it has one. -/
def variant? : Json → Option (String × Option Json)
  | string tag => some (tag, none)
  | object [(tag, content)] => some (tag, some content)
  | _ => none

/-- Whether a node of a kind without parts has no content. -/
def isEmptyContent : Option Json → Bool
  | none | some null => true
  | _ => false

/-- The kind of a node that has no parts. -/
def bareTag? (value : Json) : Option String :=
  match variant? value with
  | some (tag, content) => if isEmptyContent content then some tag else none
  | none => none

/-- Read every element of an array. -/
def list? {α : Type} (read : Json → Option α) (value : Json) : Option (List α) :=
  value.toElements?.bind fun elements => elements.mapM read

end Json

open Json (required? optional? defaulted? parts? bareTag? list?)

/-- Read an operator or keyword by its name. -/
def readTag? {α : Type} (ofTag? : String → Option α) (value : Json) : Option α :=
  (bareTag? value).bind ofTag?

/-- Read a literal of a given kind from its value, which may be missing. -/
def Literal.ofKind? (kind : String) (value : Option Json) : Option Literal :=
  match kind, value with
  | "undefined", content => if Json.isEmptyContent content then some .undefined else none
  | "null", content => if Json.isEmptyContent content then some .null else none
  | "bool", some content => content.toBool?.map .bool
  | "number", some content => content.toNumber?.map .number
  | "string", some content => content.toText?.map .string
  | _, _ => none

/-- Read a literal. -/
def Literal.ofJson? (value : Json) : Option Literal := do
  let entries ← parts? ["kind", "value"] 2 value
  let kind ← required? "kind" bareTag? entries
  let content ← Json.part? "value" entries
  Literal.ofKind? kind content

mutual

/-- Read an expression. -/
def readExpression? : (fuel : Nat) → Json → Option Expression
  | 0, _ => none
  | fuel + 1, value => do
    let expression? := readExpression? fuel
    let (tag, content?) ← value.variant?
    if tag = "This" then
      if Json.isEmptyContent content? then some .receiver else none
    else
      let content ← content?
      match tag with
      | "Literal" => (Literal.ofJson? content).map .literal
      | "Identifier" => content.toText?.map .identifier
      | "Array" => do
        let entries ← parts? ["elements"] 1 content
        let elements ← required? "elements" (list? expression?) entries
        some (.array elements)
      | "Object" => do
        let entries ← parts? ["properties"] 1 content
        let properties ← required? "properties" (list? (readProperty? fuel)) entries
        some (.record properties)
      | "Function" => (readFunction? fuel content).map .lambda
      | "Unary" => do
        let entries ← parts? ["op", "argument"] 2 content
        let operator ← required? "op" (readTag? UnaryOperator.ofTag?) entries
        let argument ← required? "argument" expression? entries
        some (.unary operator argument)
      | "Update" => do
        let entries ← parts? ["op", "prefix", "argument"] 3 content
        let operator ← required? "op" (readTag? UpdateOperator.ofTag?) entries
        let leading ← required? "prefix" Json.toBool? entries
        let argument ← required? "argument" expression? entries
        some (.update operator leading argument)
      | "Binary" => do
        let entries ← parts? ["op", "left", "right"] 3 content
        let operator ← required? "op" (readTag? BinaryOperator.ofTag?) entries
        let left ← required? "left" expression? entries
        let right ← required? "right" expression? entries
        some (.binary operator left right)
      | "Logical" => do
        let entries ← parts? ["op", "left", "right"] 3 content
        let operator ← required? "op" (readTag? LogicalOperator.ofTag?) entries
        let left ← required? "left" expression? entries
        let right ← required? "right" expression? entries
        some (.logical operator left right)
      | "Assign" => do
        let entries ← parts? ["op", "target", "value"] 3 content
        let operator ← required? "op" (readTag? AssignOperator.ofTag?) entries
        let target ← required? "target" expression? entries
        let assigned ← required? "value" expression? entries
        some (.assign operator target assigned)
      | "Conditional" => do
        let entries ← parts? ["test", "consequent", "alternate"] 3 content
        let test ← required? "test" expression? entries
        let consequent ← required? "consequent" expression? entries
        let alternate ← required? "alternate" expression? entries
        some (.conditional test consequent alternate)
      | "Call" => do
        let entries ← parts? ["callee", "arguments"] 2 content
        let callee ← required? "callee" expression? entries
        let arguments ← required? "arguments" (list? expression?) entries
        some (.call callee arguments)
      | "New" => do
        let entries ← parts? ["callee", "arguments"] 2 content
        let callee ← required? "callee" expression? entries
        let arguments ← required? "arguments" (list? expression?) entries
        some (.construct callee arguments)
      | "Member" => do
        let entries ← parts? ["object", "property"] 2 content
        let object ← required? "object" expression? entries
        required? "property" (readAccess? fuel object) entries
      | "Sequence" => do
        let entries ← parts? ["expressions"] 1 content
        let expressions ← required? "expressions" (list? expression?) entries
        some (.sequence expressions)
      | "Yield" => do
        let entries ← parts? ["argument", "delegate"] 2 content
        let argument ← optional? "argument" expression? entries
        let delegate ← required? "delegate" Json.toBool? entries
        some (.yield argument delegate)
      | "Await" => do
        let entries ← parts? ["argument"] 1 content
        let argument ← required? "argument" expression? entries
        some (.await argument)
      | _ => none

/-- Read the property that is accessed of an object. -/
def readAccess? : (fuel : Nat) → Expression → Json → Option Expression
  | 0, _, _ => none
  | fuel + 1, object, value =>
    match value.variant? with
    | some ("Named", some content) => content.toText?.map (.member object)
    | some ("Computed", some content) => (readExpression? fuel content).map (.index object)
    | _ => none

/-- Read a property of an object expression. -/
def readProperty? : (fuel : Nat) → Json → Option Property
  | 0, _ => none
  | fuel + 1, content => do
    let entries ← parts? ["key", "value"] 2 content
    let key ← required? "key" Json.toText? entries
    let value ← required? "value" (readExpression? fuel) entries
    some ⟨key, value⟩

/-- Read a function; its parameters and its flags may be missing. -/
def readFunction? : (fuel : Nat) → Json → Option Function
  | 0, _ => none
  | fuel + 1, content => do
    let entries ←
      parts? ["id", "params", "body", "isArrow", "isAsync", "isGenerator"] 3 content
    let name ← optional? "id" Json.toText? entries
    let parameters ← defaulted? "params" [] (list? Json.toText?) entries
    let body ← required? "body" (readFunctionBody? fuel) entries
    let isArrow ← defaulted? "isArrow" false Json.toBool? entries
    let isAsync ← defaulted? "isAsync" false Json.toBool? entries
    let isGenerator ← defaulted? "isGenerator" false Json.toBool? entries
    some ⟨name, parameters, body, isArrow, isAsync, isGenerator⟩

/-- Read the body of a function. -/
def readFunctionBody? : (fuel : Nat) → Json → Option FunctionBody
  | 0, _ => none
  | fuel + 1, value =>
    match value.variant? with
    | some ("Block", some content) => (list? (readStatement? fuel) content).map .block
    | some ("Expression", some content) => (readExpression? fuel content).map .result
    | _ => none

/-- Read the keyword and the variables of a declaration. -/
def readVariables? : (fuel : Nat) → Json → Option (DeclarationKind × List Declarator)
  | 0, _ => none
  | fuel + 1, content => do
    let entries ← parts? ["kind", "declarations"] 2 content
    let kind ← required? "kind" (readTag? DeclarationKind.ofTag?) entries
    let declarators ← required? "declarations" (list? (readDeclarator? fuel)) entries
    some (kind, declarators)

/-- Read one variable of a declaration. -/
def readDeclarator? : (fuel : Nat) → Json → Option Declarator
  | 0, _ => none
  | fuel + 1, content => do
    let entries ← parts? ["name", "init"] 2 content
    let name ← required? "name" Json.toText? entries
    let init ← optional? "init" (readExpression? fuel) entries
    some ⟨name, init⟩

/-- Read the initial step of a counting loop. -/
def readLoopInit? : (fuel : Nat) → Json → Option LoopInit
  | 0, _ => none
  | fuel + 1, value =>
    match value.variant? with
    | some ("Variable", some content) =>
      (readVariables? fuel content).map fun (kind, declarators) => .bindings kind declarators
    | some ("Expression", some content) => (readExpression? fuel content).map .evaluate
    | _ => none

/-- Read a statement. -/
def readStatement? : (fuel : Nat) → Json → Option Statement
  | 0, _ => none
  | fuel + 1, value => do
    let expression? := readExpression? fuel
    let statement? := readStatement? fuel
    let (tag, content?) ← value.variant?
    if tag = "Empty" then
      if Json.isEmptyContent content? then some .empty else none
    else
      let content ← content?
      match tag with
      | "Expression" => do
        let entries ← parts? ["expression"] 1 content
        let expression ← required? "expression" expression? entries
        some (.evaluate expression)
      | "Block" => do
        let entries ← parts? ["body"] 1 content
        let statements ← required? "body" (list? statement?) entries
        some (.block statements)
      | "Labeled" => do
        let entries ← parts? ["label", "body"] 2 content
        let label ← required? "label" Json.toText? entries
        let body ← required? "body" statement? entries
        some (.labeled label body)
      | "Return" => do
        let entries ← parts? ["argument"] 1 content
        let argument ← optional? "argument" expression? entries
        some (.giveBack argument)
      | "If" => do
        let entries ← parts? ["test", "consequent", "alternate"] 3 content
        let test ← required? "test" expression? entries
        let consequent ← required? "consequent" statement? entries
        let alternate ← optional? "alternate" statement? entries
        some (.branch test consequent alternate)
      | "While" => do
        let entries ← parts? ["test", "body"] 2 content
        let test ← required? "test" expression? entries
        let body ← required? "body" statement? entries
        some (.whileLoop test body)
      | "DoWhile" => do
        let entries ← parts? ["body", "test"] 2 content
        let body ← required? "body" statement? entries
        let test ← required? "test" expression? entries
        some (.doWhileLoop body test)
      | "For" => do
        let entries ← parts? ["init", "test", "update", "body"] 4 content
        let init ← optional? "init" (readLoopInit? fuel) entries
        let test ← optional? "test" expression? entries
        let update ← optional? "update" expression? entries
        let body ← required? "body" statement? entries
        some (.forLoop init test update body)
      | "Variable" => do
        let (kind, declarators) ← readVariables? fuel content
        some (.bindings kind declarators)
      | "FunctionDecl" => (readFunction? fuel content).map .declare
      | "Throw" => do
        let entries ← parts? ["argument"] 1 content
        let argument ← required? "argument" expression? entries
        some (.raise argument)
      | "Break" => do
        let entries ← parts? ["label"] 1 content
        let label ← optional? "label" Json.toText? entries
        some (.breakOut label)
      | "Continue" => do
        let entries ← parts? ["label"] 1 content
        let label ← optional? "label" Json.toText? entries
        some (.continueLoop label)
      | _ => none

end

/-- Read an expression. -/
def Expression.ofJson? (value : Json) : Option Expression :=
  readExpression? (value.depth + 1) value

/-- Read a statement. -/
def Statement.ofJson? (value : Json) : Option Statement :=
  readStatement? (value.depth + 1) value

/-- Read a function. -/
def Function.ofJson? (value : Json) : Option Function :=
  readFunction? (value.depth + 1) value

/-- Read a program. -/
def Program.ofJson? (value : Json) : Option Program := do
  let entries ← parts? ["body"] 1 value
  let statements ← required? "body" (list? Statement.ofJson?) entries
  some ⟨statements⟩

/-- Read the document of a program. -/
def Program.ofDocument? (text : String) : Option Program :=
  (Json.read? Json.nestingLimit text).bind Program.ofJson?

end Covenant
