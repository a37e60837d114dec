import Covenant.Interchange.Operator
import Covenant.Json.Writer
import Covenant.Syntax.Tree

/-!
# Writing trees in the interchange form

Every node of a tree is an object with one entry, whose key names the kind of
node and whose value holds its parts in a fixed order.  Kinds without parts
are plain texts.  A part that is missing is null, and numbers are always
doubles.
-/

namespace Covenant

/-- A node of a given kind with its parts. -/
def Json.tagged (tag : String) (content : Json) : Json :=
  .object [(tag, content)]

/-- A node of a given kind with named parts. -/
def Json.record (tag : String) (parts : List (String × Json)) : Json :=
  Json.tagged tag (.object parts)

/-- A text that may be missing. -/
def Json.ofName : Option String → Json
  | none => .null
  | some name => .string name

/-- A literal with its kind and, where it has one, its value. -/
def Literal.toJson : Literal → Json
  | .undefined => .object [("kind", .string "undefined")]
  | .null => .object [("kind", .string "null")]
  | .bool value => .object [("kind", .string "bool"), ("value", .bool value)]
  | .number value => .object [("kind", .string "number"), ("value", .number value)]
  | .string value => .object [("kind", .string "string"), ("value", .string value)]

mutual

/-- An expression in the interchange form. -/
def Expression.toJson : Expression → Json
  | .literal value => .tagged "Literal" value.toJson
  | .identifier name => .tagged "Identifier" (.string name)
  | .receiver => .string "This"
  | .array elements => .record "Array" [("elements", .array (jsonOfExpressions elements))]
  | .record properties => .record "Object" [("properties", .array (jsonOfProperties properties))]
  | .lambda function => .tagged "Function" function.toJson
  | .unary operator argument =>
    .record "Unary" [("op", .string operator.tag), ("argument", argument.toJson)]
  | .update operator leading argument =>
    .record "Update"
      [("op", .string operator.tag), ("prefix", .bool leading), ("argument", argument.toJson)]
  | .binary operator left right =>
    .record "Binary"
      [("op", .string operator.tag), ("left", left.toJson), ("right", right.toJson)]
  | .logical operator left right =>
    .record "Logical"
      [("op", .string operator.tag), ("left", left.toJson), ("right", right.toJson)]
  | .assign operator target value =>
    .record "Assign"
      [("op", .string operator.tag), ("target", target.toJson), ("value", value.toJson)]
  | .conditional test consequent alternate =>
    .record "Conditional"
      [("test", test.toJson), ("consequent", consequent.toJson), ("alternate", alternate.toJson)]
  | .call callee arguments =>
    .record "Call" [("callee", callee.toJson), ("arguments", .array (jsonOfExpressions arguments))]
  | .construct callee arguments =>
    .record "New" [("callee", callee.toJson), ("arguments", .array (jsonOfExpressions arguments))]
  | .member object name =>
    .record "Member" [("object", object.toJson), ("property", .tagged "Named" (.string name))]
  | .index object key =>
    .record "Member" [("object", object.toJson), ("property", .tagged "Computed" key.toJson)]
  | .sequence expressions =>
    .record "Sequence" [("expressions", .array (jsonOfExpressions expressions))]
  | .yield argument delegate =>
    .record "Yield" [("argument", jsonOfOptional argument), ("delegate", .bool delegate)]
  | .await argument => .record "Await" [("argument", argument.toJson)]

/-- Expressions in the interchange form. -/
def jsonOfExpressions : List Expression → List Json
  | [] => []
  | expression :: rest => expression.toJson :: jsonOfExpressions rest

/-- An expression that may be missing. -/
def jsonOfOptional : Option Expression → Json
  | none => .null
  | some expression => expression.toJson

/-- Properties in the interchange form. -/
def jsonOfProperties : List Property → List Json
  | [] => []
  | ⟨key, value⟩ :: rest =>
    .object [("key", .string key), ("value", value.toJson)] :: jsonOfProperties rest

/-- A function in the interchange form. -/
def Function.toJson : Function → Json
  | ⟨name, parameters, body, isArrow, isAsync, isGenerator⟩ =>
    .object
      [("id", Json.ofName name), ("params", .array (parameters.map .string)), ("body", body.toJson),
        ("isArrow", .bool isArrow), ("isAsync", .bool isAsync), ("isGenerator", .bool isGenerator)]

/-- The body of a function in the interchange form. -/
def FunctionBody.toJson : FunctionBody → Json
  | .block statements => .tagged "Block" (.array (jsonOfStatements statements))
  | .result expression => .tagged "Expression" expression.toJson

/-- The variables of a declaration in the interchange form. -/
def jsonOfDeclarators : List Declarator → List Json
  | [] => []
  | ⟨name, init⟩ :: rest =>
    .object [("name", .string name), ("init", jsonOfOptional init)] :: jsonOfDeclarators rest

/-- The initial step of a counting loop in the interchange form. -/
def jsonOfLoopInit : Option LoopInit → Json
  | none => .null
  | some (.bindings kind declarators) =>
    .record "Variable"
      [("kind", .string kind.tag), ("declarations", .array (jsonOfDeclarators declarators))]
  | some (.evaluate expression) => .tagged "Expression" expression.toJson

/-- A statement in the interchange form. -/
def Statement.toJson : Statement → Json
  | .evaluate expression => .record "Expression" [("expression", expression.toJson)]
  | .block statements => .record "Block" [("body", .array (jsonOfStatements statements))]
  | .labeled label body => .record "Labeled" [("label", .string label), ("body", body.toJson)]
  | .giveBack argument => .record "Return" [("argument", jsonOfOptional argument)]
  | .branch test consequent alternate =>
    .record "If"
      [("test", test.toJson), ("consequent", consequent.toJson),
        ("alternate", jsonOfAlternate alternate)]
  | .whileLoop test body => .record "While" [("test", test.toJson), ("body", body.toJson)]
  | .doWhileLoop body test => .record "DoWhile" [("body", body.toJson), ("test", test.toJson)]
  | .forLoop init test update body =>
    .record "For"
      [("init", jsonOfLoopInit init), ("test", jsonOfOptional test),
        ("update", jsonOfOptional update), ("body", body.toJson)]
  | .bindings kind declarators =>
    .record "Variable"
      [("kind", .string kind.tag), ("declarations", .array (jsonOfDeclarators declarators))]
  | .declare function => .tagged "FunctionDecl" function.toJson
  | .raise argument => .record "Throw" [("argument", argument.toJson)]
  | .breakOut label => .record "Break" [("label", Json.ofName label)]
  | .continueLoop label => .record "Continue" [("label", Json.ofName label)]
  | .empty => .string "Empty"

/-- A statement that may be missing. -/
def jsonOfAlternate : Option Statement → Json
  | none => .null
  | some statement => statement.toJson

/-- Statements in the interchange form. -/
def jsonOfStatements : List Statement → List Json
  | [] => []
  | statement :: rest => statement.toJson :: jsonOfStatements rest

end

/-- A program in the interchange form. -/
def Program.toJson (program : Program) : Json :=
  .object [("body", .array (jsonOfStatements program.statements))]

/-- The document of a program in the interchange form. -/
def Program.toDocument (program : Program) : String :=
  program.toJson.pretty

end Covenant
