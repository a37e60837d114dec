import Covenant.Interchange.Decode
import Covenant.Interchange.Encode
import Covenant.Proofs.Notation
import Covenant.Proofs.Reference

/-!
# Trees read back from their interchange form

Writing a tree and reading it again gives the same tree.  The reader follows
the tree that was written: each kind of node is told by its name, its parts
are found under theirs, and the depth of the written form, which bounds the
recursion of the reader, drops from a node to its parts.
-/

namespace Covenant

open Json (required? optional? defaulted? part? list? depthOfElements depthOfEntries)

/-! ## Names of operators and keywords -/

theorem UnaryOperator.ofTag?_tag (operator : UnaryOperator) :
    ofTag? operator.tag = some operator := by
  cases operator <;> decide

theorem BinaryOperator.ofTag?_tag (operator : BinaryOperator) :
    ofTag? operator.tag = some operator := by
  cases operator <;> decide

theorem LogicalOperator.ofTag?_tag (operator : LogicalOperator) :
    ofTag? operator.tag = some operator := by
  cases operator <;> decide

theorem AssignOperator.ofTag?_tag (operator : AssignOperator) :
    ofTag? operator.tag = some operator := by
  cases operator <;> decide

theorem UpdateOperator.ofTag?_tag (operator : UpdateOperator) :
    ofTag? operator.tag = some operator := by
  cases operator <;> decide

theorem DeclarationKind.ofTag?_tag (kind : DeclarationKind) :
    ofTag? kind.tag = some kind := by
  cases kind <;> decide

/-! ## Parts of records -/

namespace Json

variable {α : Type} {read : Json → Option α}

@[simp]
theorem depth_tagged (tag : String) (content : Json) :
    (tagged tag content).depth = content.depth + 1 := by
  simp [tagged, depth, depthOfEntries]

@[simp]
theorem depth_record (tag : String) (parts : List (String × Json)) :
    (record tag parts).depth = depthOfEntries parts + 2 := by
  simp [record, depth]

theorem list?_nil : list? read (.array []) = some [] := rfl

theorem list?_cons {value : Json} {first : α} {values : List Json} {later : List α}
    (head : read value = some first) (tail : list? read (.array values) = some later) :
    list? read (.array (value :: values)) = some (first :: later) := by
  have rest : values.mapM read = some later := tail
  show (value :: values).mapM read = some (first :: later)
  rw [List.mapM_cons, head, rest]
  rfl

theorem list?_texts (texts : List String) :
    list? toText? (.array (texts.map .string)) = some texts := by
  induction texts with
  | nil => rfl
  | cons text texts ih => exact list?_cons rfl ih

/-- A part that is given is read, unless it is null. -/
theorem optional?_of_given {name : String} {entries : List (String × Json)} {value : Json}
    {result : α} (given : part? name entries = some (some value)) (present : value ≠ .null)
    (reads : read value = some result) : optional? name read entries = some (some result) := by
  unfold optional?
  rw [given]
  split
  all_goals simp_all

theorem optional?_of_null {name : String} {entries : List (String × Json)}
    (given : part? name entries = some (some .null)) :
    optional? name read entries = some none := by
  rw [optional?, given]

theorem optional?_ofName {name : String} {entries : List (String × Json)} (value : Option String)
    (given : part? name entries = some (some (ofName value))) :
    optional? name toText? entries = some value := by
  cases value with
  | none => exact optional?_of_null given
  | some text => exact optional?_of_given given (by simp [ofName]) rfl

end Json

/-! ## Literals -/

theorem Literal.ofJson?_toJson (value : Literal) : Literal.ofJson? value.toJson = some value := by
  cases value <;> rfl

theorem Expression.toJson_ne_null (expression : Expression) : expression.toJson ≠ .null := by
  cases expression <;> simp [Expression.toJson, Json.record, Json.tagged]

theorem Statement.toJson_ne_null (statement : Statement) : statement.toJson ≠ .null := by
  cases statement <;> simp [Statement.toJson, Json.record, Json.tagged]

/-! ## Reading what was written -/

/-- The keyword and the variables of a declaration are read back if the variables are. -/
theorem readVariables?_of_declarators (kind : DeclarationKind) {declarators : List Declarator}
    {fuel : Nat}
    (reads : list? (readDeclarator? fuel) (.array (jsonOfDeclarators declarators)) =
      some declarators) :
    readVariables? (fuel + 1) (.object
      [("kind", .string kind.tag), ("declarations", .array (jsonOfDeclarators declarators))]) =
      some (kind, declarators) := by
  change (do
    let kind ← DeclarationKind.ofTag? kind.tag
    let declarators ← list? (readDeclarator? fuel) (.array (jsonOfDeclarators declarators))
    some (kind, declarators)) = _
  rw [kind.ofTag?_tag, reads]
  rfl

mutual

/-- An expression is read back from its interchange form. -/
theorem readExpression?_toJson : (expression : Expression) → {fuel : Nat} →
    expression.toJson.depth < fuel → readExpression? fuel expression.toJson = some expression
  | _, 0, room => absurd room (Nat.not_lt_zero _)
  | .literal value, fuel + 1, _ => by
      change (Literal.ofJson? value.toJson).map Expression.literal = _
      rw [Literal.ofJson?_toJson]
      rfl
  | .identifier name, fuel + 1, _ => rfl
  | .receiver, fuel + 1, _ => rfl
  | .array elements, fuel + 1, room => by
      simp [Expression.toJson, Json.depth, depthOfEntries] at room
      change (do
        let elements ← list? (readExpression? fuel) (.array (jsonOfExpressions elements))
        some (Expression.array elements)) = _
      rw [readExpressions?_toJson elements (by omega)]
      rfl
  | .record properties, fuel + 1, room => by
      simp [Expression.toJson, Json.depth, depthOfEntries] at room
      change (do
        let properties ← list? (readProperty? fuel) (.array (jsonOfProperties properties))
        some (Expression.record properties)) = _
      rw [readProperties?_toJson properties (by omega)]
      rfl
  | .lambda function, fuel + 1, room => by
      simp [Expression.toJson] at room
      change (readFunction? fuel function.toJson).map Expression.lambda = _
      rw [readFunction?_toJson function (by omega)]
      rfl
  | .unary operator argument, fuel + 1, room => by
      simp [Expression.toJson, Json.depth, depthOfEntries] at room
      change (do
        let operator ← UnaryOperator.ofTag? operator.tag
        let argument ← readExpression? fuel argument.toJson
        some (Expression.unary operator argument)) = _
      rw [operator.ofTag?_tag, readExpression?_toJson argument (by omega)]
      rfl
  | .update operator leading argument, fuel + 1, room => by
      simp [Expression.toJson, Json.depth, depthOfEntries] at room
      change (do
        let operator ← UpdateOperator.ofTag? operator.tag
        let argument ← readExpression? fuel argument.toJson
        some (Expression.update operator leading argument)) = _
      rw [operator.ofTag?_tag, readExpression?_toJson argument (by omega)]
      rfl
  | .binary operator left right, fuel + 1, room => by
      simp [Expression.toJson, Json.depth, depthOfEntries] at room
      change (do
        let operator ← BinaryOperator.ofTag? operator.tag
        let left ← readExpression? fuel left.toJson
        let right ← readExpression? fuel right.toJson
        some (Expression.binary operator left right)) = _
      rw [operator.ofTag?_tag, readExpression?_toJson left (by omega),
        readExpression?_toJson right (by omega)]
      rfl
  | .logical operator left right, fuel + 1, room => by
      simp [Expression.toJson, Json.depth, depthOfEntries] at room
      change (do
        let operator ← LogicalOperator.ofTag? operator.tag
        let left ← readExpression? fuel left.toJson
        let right ← readExpression? fuel right.toJson
        some (Expression.logical operator left right)) = _
      rw [operator.ofTag?_tag, readExpression?_toJson left (by omega),
        readExpression?_toJson right (by omega)]
      rfl
  | .assign operator target value, fuel + 1, room => by
      simp [Expression.toJson, Json.depth, depthOfEntries] at room
      change (do
        let operator ← AssignOperator.ofTag? operator.tag
        let target ← readExpression? fuel target.toJson
        let value ← readExpression? fuel value.toJson
        some (Expression.assign operator target value)) = _
      rw [operator.ofTag?_tag, readExpression?_toJson target (by omega),
        readExpression?_toJson value (by omega)]
      rfl
  | .conditional test consequent alternate, fuel + 1, room => by
      simp [Expression.toJson, depthOfEntries] at room
      change (do
        let test ← readExpression? fuel test.toJson
        let consequent ← readExpression? fuel consequent.toJson
        let alternate ← readExpression? fuel alternate.toJson
        some (Expression.conditional test consequent alternate)) = _
      rw [readExpression?_toJson test (by omega), readExpression?_toJson consequent (by omega),
        readExpression?_toJson alternate (by omega)]
      rfl
  | .call callee arguments, fuel + 1, room => by
      simp [Expression.toJson, Json.depth, depthOfEntries] at room
      change (do
        let callee ← readExpression? fuel callee.toJson
        let arguments ← list? (readExpression? fuel) (.array (jsonOfExpressions arguments))
        some (Expression.call callee arguments)) = _
      rw [readExpression?_toJson callee (by omega), readExpressions?_toJson arguments (by omega)]
      rfl
  | .construct callee arguments, fuel + 1, room => by
      simp [Expression.toJson, Json.depth, depthOfEntries] at room
      change (do
        let callee ← readExpression? fuel callee.toJson
        let arguments ← list? (readExpression? fuel) (.array (jsonOfExpressions arguments))
        some (Expression.construct callee arguments)) = _
      rw [readExpression?_toJson callee (by omega), readExpressions?_toJson arguments (by omega)]
      rfl
  | .member object name, fuel + 1, room => by
      simp [Expression.toJson, Json.depth, depthOfEntries] at room
      obtain ⟨fuel, rfl⟩ : ∃ rest, fuel = rest + 1 := ⟨fuel - 1, by omega⟩
      change (do
        let object ← readExpression? (fuel + 1) object.toJson
        some (Expression.member object name)) = _
      rw [readExpression?_toJson object (by omega)]
      rfl
  | .index object key, fuel + 1, room => by
      simp [Expression.toJson, depthOfEntries] at room
      obtain ⟨fuel, rfl⟩ : ∃ rest, fuel = rest + 1 := ⟨fuel - 1, by omega⟩
      change (do
        let object ← readExpression? (fuel + 1) object.toJson
        (readExpression? fuel key.toJson).map (Expression.index object)) = _
      rw [readExpression?_toJson object (by omega), readExpression?_toJson key (by omega)]
      rfl
  | .sequence expressions, fuel + 1, room => by
      simp [Expression.toJson, Json.depth, depthOfEntries] at room
      change (do
        let expressions ← list? (readExpression? fuel) (.array (jsonOfExpressions expressions))
        some (Expression.sequence expressions)) = _
      rw [readExpressions?_toJson expressions (by omega)]
      rfl
  | .yield argument delegate, fuel + 1, room => by
      simp [Expression.toJson, Json.depth, depthOfEntries] at room
      change (do
        let argument ← optional? "argument" (readExpression? fuel)
          [("argument", jsonOfOptional argument)]
        some (Expression.yield argument delegate)) = _
      rw [optional?_toJson argument (by omega) rfl]
      rfl
  | .await argument, fuel + 1, room => by
      simp [Expression.toJson, depthOfEntries] at room
      change (do
        let argument ← readExpression? fuel argument.toJson
        some (Expression.await argument)) = _
      rw [readExpression?_toJson argument (by omega)]
      rfl

/-- Expressions are read back in turn. -/
theorem readExpressions?_toJson : (expressions : List Expression) → {fuel : Nat} →
    depthOfElements (jsonOfExpressions expressions) < fuel →
    list? (readExpression? fuel) (.array (jsonOfExpressions expressions)) = some expressions
  | [], _, _ => Json.list?_nil
  | expression :: rest, fuel, room => by
      rw [jsonOfExpressions, depthOfElements] at room
      exact Json.list?_cons (readExpression?_toJson expression (by omega))
        (readExpressions?_toJson rest (by omega))

/-- A part that is an expression or missing is read back. -/
theorem optional?_toJson : (expression : Option Expression) → {fuel : Nat} →
    (jsonOfOptional expression).depth < fuel →
    {name : String} → {entries : List (String × Json)} →
    part? name entries = some (some (jsonOfOptional expression)) →
    optional? name (readExpression? fuel) entries = some expression
  | none, _, _, _, _, given => Json.optional?_of_null given
  | some expression, _, room, _, _, given =>
      Json.optional?_of_given given expression.toJson_ne_null
        (readExpression?_toJson expression room)

/-- Properties are read back in turn. -/
theorem readProperties?_toJson : (properties : List Property) → {fuel : Nat} →
    depthOfElements (jsonOfProperties properties) < fuel →
    list? (readProperty? fuel) (.array (jsonOfProperties properties)) = some properties
  | [], _, _ => Json.list?_nil
  | ⟨key, value⟩ :: rest, 0, room => absurd room (Nat.not_lt_zero _)
  | ⟨key, value⟩ :: rest, fuel + 1, room => by
      simp [jsonOfProperties, depthOfElements, Json.depth, depthOfEntries] at room
      refine Json.list?_cons ?_ (readProperties?_toJson rest (by omega))
      change (do
        let value ← readExpression? fuel value.toJson
        some (Property.mk key value)) = _
      rw [readExpression?_toJson value (by omega)]
      rfl

/-- A function is read back with its parameters, its body and its flags. -/
theorem readFunction?_toJson : (function : Function) → {fuel : Nat} →
    function.toJson.depth < fuel → readFunction? fuel function.toJson = some function
  | _, 0, room => absurd room (Nat.not_lt_zero _)
  | ⟨name, parameters, body, isArrow, isAsync, isGenerator⟩, fuel + 1, room => by
      simp [Function.toJson, Json.depth, depthOfEntries] at room
      change (do
        let name ← optional? "id" Json.toText?
          [("id", Json.ofName name)]
        let parameters ← list? Json.toText? (.array (parameters.map .string))
        let body ← readFunctionBody? fuel body.toJson
        some (Function.mk name parameters body isArrow isAsync isGenerator)) = _
      rw [Json.optional?_ofName name rfl, Json.list?_texts parameters,
        readFunctionBody?_toJson body (by omega)]
      rfl

/-- The body of a function is read back. -/
theorem readFunctionBody?_toJson : (body : FunctionBody) → {fuel : Nat} →
    body.toJson.depth < fuel → readFunctionBody? fuel body.toJson = some body
  | _, 0, room => absurd room (Nat.not_lt_zero _)
  | .block statements, fuel + 1, room => by
      simp [FunctionBody.toJson, Json.depth] at room
      change (list? (readStatement? fuel) (.array (jsonOfStatements statements))).map
        FunctionBody.block = _
      rw [readStatements?_toJson statements (by omega)]
      rfl
  | .result expression, fuel + 1, room => by
      simp [FunctionBody.toJson] at room
      change (readExpression? fuel expression.toJson).map FunctionBody.result = _
      rw [readExpression?_toJson expression (by omega)]
      rfl

/-- The variables of a declaration are read back in turn. -/
theorem readDeclarators?_toJson : (declarators : List Declarator) → {fuel : Nat} →
    depthOfElements (jsonOfDeclarators declarators) < fuel →
    list? (readDeclarator? fuel) (.array (jsonOfDeclarators declarators)) = some declarators
  | [], _, _ => Json.list?_nil
  | _ :: _, 0, room => absurd room (Nat.not_lt_zero _)
  | ⟨name, init⟩ :: rest, fuel + 1, room => by
      simp [jsonOfDeclarators, depthOfElements, Json.depth, depthOfEntries] at room
      refine Json.list?_cons ?_ (readDeclarators?_toJson rest (by omega))
      change (do
        let init ← optional? "init" (readExpression? fuel)
          [("init", jsonOfOptional init)]
        some (Declarator.mk name init)) = _
      rw [optional?_toJson init (by omega) rfl]
      rfl

/-- The initial step of a counting loop is read back, if there is one. -/
theorem optionalLoopInit?_toJson : (init : Option LoopInit) → {fuel : Nat} →
    (jsonOfLoopInit init).depth < fuel → {name : String} → {entries : List (String × Json)} →
    part? name entries = some (some (jsonOfLoopInit init)) →
    optional? name (readLoopInit? fuel) entries = some init
  | none, _, _, _, _, given => Json.optional?_of_null given
  | some _, 0, room, _, _, _ => absurd room (Nat.not_lt_zero _)
  | some (.bindings kind declarators), fuel + 1, room, _, _, given => by
      simp [jsonOfLoopInit, Json.depth, depthOfEntries] at room
      obtain ⟨fuel, rfl⟩ : ∃ rest, fuel = rest + 1 := ⟨fuel - 1, by omega⟩
      refine Json.optional?_of_given given (by simp [jsonOfLoopInit, Json.record, Json.tagged]) ?_
      change (readVariables? (fuel + 1) (.object
        [("kind", .string kind.tag), ("declarations", .array (jsonOfDeclarators declarators))])).map
        (fun read => LoopInit.bindings read.1 read.2) = _
      rw [readVariables?_of_declarators kind (readDeclarators?_toJson declarators (by omega))]
      rfl
  | some (.evaluate expression), fuel + 1, room, _, _, given => by
      simp [jsonOfLoopInit] at room
      refine Json.optional?_of_given given (by simp [jsonOfLoopInit, Json.tagged]) ?_
      change (readExpression? fuel expression.toJson).map LoopInit.evaluate = _
      rw [readExpression?_toJson expression (by omega)]
      rfl

/-- A statement is read back from its interchange form. -/
theorem readStatement?_toJson : (statement : Statement) → {fuel : Nat} →
    statement.toJson.depth < fuel → readStatement? fuel statement.toJson = some statement
  | _, 0, room => absurd room (Nat.not_lt_zero _)
  | .empty, fuel + 1, _ => rfl
  | .evaluate expression, fuel + 1, room => by
      simp [Statement.toJson, depthOfEntries] at room
      change (do
        let expression ← readExpression? fuel expression.toJson
        some (Statement.evaluate expression)) = _
      rw [readExpression?_toJson expression (by omega)]
      rfl
  | .block statements, fuel + 1, room => by
      simp [Statement.toJson, Json.depth, depthOfEntries] at room
      change (do
        let statements ← list? (readStatement? fuel) (.array (jsonOfStatements statements))
        some (Statement.block statements)) = _
      rw [readStatements?_toJson statements (by omega)]
      rfl
  | .labeled label body, fuel + 1, room => by
      simp [Statement.toJson, Json.depth, depthOfEntries] at room
      change (do
        let body ← readStatement? fuel body.toJson
        some (Statement.labeled label body)) = _
      rw [readStatement?_toJson body (by omega)]
      rfl
  | .giveBack argument, fuel + 1, room => by
      simp [Statement.toJson, depthOfEntries] at room
      change (do
        let argument ← optional? "argument" (readExpression? fuel)
          [("argument", jsonOfOptional argument)]
        some (Statement.giveBack argument)) = _
      rw [optional?_toJson argument (by omega) rfl]
      rfl
  | .branch test consequent alternate, fuel + 1, room => by
      simp [Statement.toJson, depthOfEntries] at room
      change (do
        let test ← readExpression? fuel test.toJson
        let consequent ← readStatement? fuel consequent.toJson
        let alternate ← optional? "alternate" (readStatement? fuel)
          [("alternate", jsonOfAlternate alternate)]
        some (Statement.branch test consequent alternate)) = _
      rw [readExpression?_toJson test (by omega), readStatement?_toJson consequent (by omega),
        optionalAlternate?_toJson alternate (by omega) rfl]
      rfl
  | .whileLoop test body, fuel + 1, room => by
      simp [Statement.toJson, depthOfEntries] at room
      change (do
        let test ← readExpression? fuel test.toJson
        let body ← readStatement? fuel body.toJson
        some (Statement.whileLoop test body)) = _
      rw [readExpression?_toJson test (by omega), readStatement?_toJson body (by omega)]
      rfl
  | .doWhileLoop body test, fuel + 1, room => by
      simp [Statement.toJson, depthOfEntries] at room
      change (do
        let body ← readStatement? fuel body.toJson
        let test ← readExpression? fuel test.toJson
        some (Statement.doWhileLoop body test)) = _
      rw [readStatement?_toJson body (by omega), readExpression?_toJson test (by omega)]
      rfl
  | .forLoop init test update body, fuel + 1, room => by
      simp [Statement.toJson, depthOfEntries] at room
      change (do
        let init ← optional? "init" (readLoopInit? fuel) [("init", jsonOfLoopInit init)]
        let test ← optional? "test" (readExpression? fuel) [("test", jsonOfOptional test)]
        let update ← optional? "update" (readExpression? fuel) [("update", jsonOfOptional update)]
        let body ← readStatement? fuel body.toJson
        some (Statement.forLoop init test update body)) = _
      rw [optionalLoopInit?_toJson init (by omega) rfl, optional?_toJson test (by omega) rfl,
        optional?_toJson update (by omega) rfl, readStatement?_toJson body (by omega)]
      rfl
  | .bindings kind declarators, fuel + 1, room => by
      simp [Statement.toJson, Json.depth, depthOfEntries] at room
      obtain ⟨fuel, rfl⟩ : ∃ rest, fuel = rest + 1 := ⟨fuel - 1, by omega⟩
      change (do
        let (kind, declarators) ← readVariables? (fuel + 1) (.object
          [("kind", .string kind.tag), ("declarations", .array (jsonOfDeclarators declarators))])
        some (Statement.bindings kind declarators)) = _
      rw [readVariables?_of_declarators kind (readDeclarators?_toJson declarators (by omega))]
      rfl
  | .declare function, fuel + 1, room => by
      simp [Statement.toJson] at room
      change (readFunction? fuel function.toJson).map Statement.declare = _
      rw [readFunction?_toJson function (by omega)]
      rfl
  | .raise argument, fuel + 1, room => by
      simp [Statement.toJson, depthOfEntries] at room
      change (do
        let argument ← readExpression? fuel argument.toJson
        some (Statement.raise argument)) = _
      rw [readExpression?_toJson argument (by omega)]
      rfl
  | .breakOut label, fuel + 1, _ => by
      change (do
        let label ← optional? "label" Json.toText? [("label", Json.ofName label)]
        some (Statement.breakOut label)) = _
      rw [Json.optional?_ofName label rfl]
      rfl
  | .continueLoop label, fuel + 1, _ => by
      change (do
        let label ← optional? "label" Json.toText? [("label", Json.ofName label)]
        some (Statement.continueLoop label)) = _
      rw [Json.optional?_ofName label rfl]
      rfl

/-- A part that is a statement or missing is read back. -/
theorem optionalAlternate?_toJson : (alternate : Option Statement) → {fuel : Nat} →
    (jsonOfAlternate alternate).depth < fuel →
    {name : String} → {entries : List (String × Json)} →
    part? name entries = some (some (jsonOfAlternate alternate)) →
    optional? name (readStatement? fuel) entries = some alternate
  | none, _, _, _, _, given => Json.optional?_of_null given
  | some statement, _, room, _, _, given =>
      Json.optional?_of_given given statement.toJson_ne_null (readStatement?_toJson statement room)

/-- Statements are read back in turn. -/
theorem readStatements?_toJson : (statements : List Statement) → {fuel : Nat} →
    depthOfElements (jsonOfStatements statements) < fuel →
    list? (readStatement? fuel) (.array (jsonOfStatements statements)) = some statements
  | [], _, _ => Json.list?_nil
  | statement :: rest, fuel, room => by
      rw [jsonOfStatements, depthOfElements] at room
      exact Json.list?_cons (readStatement?_toJson statement (by omega))
        (readStatements?_toJson rest (by omega))

end

/-- A program is read back from its interchange form. -/
theorem Program.ofJson?_toJson (program : Program) : ofJson? program.toJson = some program := by
  have statements : list? Statement.ofJson? (.array (jsonOfStatements program.statements)) =
      some program.statements := by
    induction program.statements with
    | nil => exact Json.list?_nil
    | cons statement rest ih =>
        exact Json.list?_cons (readStatement?_toJson statement (Nat.lt_succ_self _)) ih
  change (do
    let statements ← list? Statement.ofJson? (.array (jsonOfStatements program.statements))
    some (Program.mk statements)) = _
  rw [statements]
  rfl

/-! ## Numbers of a tree -/

/-- The number of a node that is a numeric literal. -/
@[simp]
def Node.number? : Node → Option Float
  | .expression (.literal (.number value)) => some value
  | _ => none

/-- The numbers that stand in a program. -/
def Program.numbers (program : Program) : List Float :=
  (program.nodes true).filterMap Node.number?

/-- Every number among nodes is read back from its own text. -/
def ReadsNumbers (nodes : List Node) : Prop :=
  ∀ value ∈ nodes.filterMap Node.number?, Json.ReadsBack value

@[simp]
theorem readsNumbers_nil : ReadsNumbers [] := by
  intro value member
  cases member

@[simp]
theorem readsNumbers_cons {node : Node} {nodes : List Node} :
    ReadsNumbers (node :: nodes) ↔
      (∀ value ∈ node.number?, Json.ReadsBack value) ∧ ReadsNumbers nodes := by
  unfold ReadsNumbers
  rw [List.filterMap_cons]
  cases node.number? with
  | none => simp [-List.mem_filterMap]
  | some value => simp [-List.mem_filterMap]

@[simp]
theorem readsNumbers_append {first second : List Node} :
    ReadsNumbers (first ++ second) ↔ ReadsNumbers first ∧ ReadsNumbers second := by
  simp [ReadsNumbers, or_imp, forall_and]

@[simp]
theorem Json.readable_tagged {tag : String} {content : Json} :
    (Json.tagged tag content).Readable ↔ content.Readable := by
  simp [Json.tagged]

@[simp]
theorem Json.readable_record {tag : String} {parts : List (String × Json)} :
    (Json.record tag parts).Readable ↔ Json.ReadableEntries parts := by
  simp [Json.record]

theorem Json.readable_ofName (name : Option String) : (Json.ofName name).Readable := by
  cases name <;> trivial

theorem Json.readable_texts (texts : List String) :
    Json.ReadableElements (texts.map .string) := by
  induction texts with
  | nil => trivial
  | cons text texts ih => exact ⟨trivial, ih⟩

mutual

/-- The interchange form of an expression is readable if the numbers in it are. -/
theorem Expression.readable_toJson : (expression : Expression) →
    (expression.toJson.Readable ↔ ReadsNumbers (expression.nodes true))
  | .literal value => by
      cases value <;>
        simp [Expression.toJson, Expression.nodes, Literal.toJson]
  | .identifier _ | .receiver => by
      simp [Expression.toJson, Expression.nodes]
  | .array elements => by
      simp [Expression.toJson, Expression.nodes, readable_jsonOfExpressions elements]
  | .record properties => by
      simp [Expression.toJson, Expression.nodes, readable_jsonOfProperties properties]
  | .lambda function => by
      simp [Expression.toJson, Expression.nodes, function.readable_toJson]
  | .unary _ argument | .update _ _ argument | .await argument => by
      simp [Expression.toJson, Expression.nodes, argument.readable_toJson]
  | .binary _ left right | .logical _ left right => by
      simp [Expression.toJson, Expression.nodes, left.readable_toJson, right.readable_toJson]
  | .assign _ target value => by
      simp [Expression.toJson, Expression.nodes, target.readable_toJson, value.readable_toJson]
  | .conditional test consequent alternate => by
      simp [Expression.toJson, Expression.nodes, test.readable_toJson, consequent.readable_toJson,
        alternate.readable_toJson]
  | .call callee arguments | .construct callee arguments => by
      simp [Expression.toJson, Expression.nodes, callee.readable_toJson,
        readable_jsonOfExpressions arguments]
  | .member object _ => by
      simp [Expression.toJson, Expression.nodes, object.readable_toJson]
  | .index object key => by
      simp [Expression.toJson, Expression.nodes, object.readable_toJson, key.readable_toJson]
  | .sequence expressions => by
      simp [Expression.toJson, Expression.nodes, readable_jsonOfExpressions expressions]
  | .yield argument _ => by
      simp [Expression.toJson, Expression.nodes, readable_jsonOfOptional argument]

theorem readable_jsonOfExpressions : (expressions : List Expression) →
    (Json.ReadableElements (jsonOfExpressions expressions) ↔
      ReadsNumbers (nodesOfExpressions true expressions))
  | [] => by simp [jsonOfExpressions, nodesOfExpressions]
  | expression :: rest => by
      simp [jsonOfExpressions, nodesOfExpressions, expression.readable_toJson,
        readable_jsonOfExpressions rest]

theorem readable_jsonOfOptional : (expression : Option Expression) →
    ((jsonOfOptional expression).Readable ↔ ReadsNumbers (nodesOfOptional true expression))
  | none => by simp [jsonOfOptional, nodesOfOptional]
  | some expression => by
      simp [jsonOfOptional, nodesOfOptional, expression.readable_toJson]

theorem readable_jsonOfProperties : (properties : List Property) →
    (Json.ReadableElements (jsonOfProperties properties) ↔
      ReadsNumbers (nodesOfProperties true properties))
  | [] => by simp [jsonOfProperties, nodesOfProperties]
  | ⟨_, value⟩ :: rest => by
      simp [jsonOfProperties, nodesOfProperties, value.readable_toJson,
        readable_jsonOfProperties rest]

theorem Function.readable_toJson : (function : Function) →
    (function.toJson.Readable ↔ ReadsNumbers (function.nodes true))
  | ⟨name, parameters, body, _, _, _⟩ => by
      simp [Function.toJson, Function.nodes, Json.readable_ofName name,
        Json.readable_texts parameters, body.readable_toJson]

theorem FunctionBody.readable_toJson : (body : FunctionBody) →
    (body.toJson.Readable ↔ ReadsNumbers (body.nodes true))
  | .block statements => by
      simp [FunctionBody.toJson, FunctionBody.nodes, readable_jsonOfStatements statements]
  | .result expression => by
      simp [FunctionBody.toJson, FunctionBody.nodes, expression.readable_toJson]

theorem readable_jsonOfDeclarators : (declarators : List Declarator) →
    (Json.ReadableElements (jsonOfDeclarators declarators) ↔
      ReadsNumbers (nodesOfDeclarators true declarators))
  | [] => by simp [jsonOfDeclarators, nodesOfDeclarators]
  | ⟨_, init⟩ :: rest => by
      simp [jsonOfDeclarators, nodesOfDeclarators, readable_jsonOfOptional init,
        readable_jsonOfDeclarators rest]

theorem readable_jsonOfLoopInit : (init : Option LoopInit) →
    ((jsonOfLoopInit init).Readable ↔ ReadsNumbers (nodesOfLoopInit true init))
  | none => by simp [jsonOfLoopInit, nodesOfLoopInit]
  | some (.bindings _ declarators) => by
      simp [jsonOfLoopInit, nodesOfLoopInit, readable_jsonOfDeclarators declarators]
  | some (.evaluate expression) => by
      simp [jsonOfLoopInit, nodesOfLoopInit, expression.readable_toJson]

/-- The interchange form of a statement is readable if the numbers in it are. -/
theorem Statement.readable_toJson : (statement : Statement) →
    (statement.toJson.Readable ↔ ReadsNumbers (statement.nodes true))
  | .evaluate expression | .raise expression => by
      simp [Statement.toJson, Statement.nodes, expression.readable_toJson]
  | .block statements => by
      simp [Statement.toJson, Statement.nodes, readable_jsonOfStatements statements]
  | .labeled _ body => by
      simp [Statement.toJson, Statement.nodes, body.readable_toJson]
  | .giveBack argument => by
      simp [Statement.toJson, Statement.nodes, readable_jsonOfOptional argument]
  | .branch test consequent alternate => by
      simp [Statement.toJson, Statement.nodes, test.readable_toJson, consequent.readable_toJson,
        readable_jsonOfAlternate alternate]
  | .whileLoop test body | .doWhileLoop body test => by
      simp [Statement.toJson, Statement.nodes, test.readable_toJson, body.readable_toJson]
  | .forLoop init test update body => by
      simp [Statement.toJson, Statement.nodes, readable_jsonOfLoopInit init,
        readable_jsonOfOptional test, readable_jsonOfOptional update, body.readable_toJson]
  | .bindings _ declarators => by
      simp [Statement.toJson, Statement.nodes, readable_jsonOfDeclarators declarators]
  | .declare function => by
      simp [Statement.toJson, Statement.nodes, function.readable_toJson]
  | .breakOut label | .continueLoop label => by
      simp [Statement.toJson, Statement.nodes, Json.readable_ofName label]
  | .empty => by
      simp [Statement.toJson, Statement.nodes]

theorem readable_jsonOfAlternate : (alternate : Option Statement) →
    ((jsonOfAlternate alternate).Readable ↔ ReadsNumbers (nodesOfAlternate true alternate))
  | none => by simp [jsonOfAlternate, nodesOfAlternate]
  | some statement => by
      simp [jsonOfAlternate, nodesOfAlternate, statement.readable_toJson]

theorem readable_jsonOfStatements : (statements : List Statement) →
    (Json.ReadableElements (jsonOfStatements statements) ↔
      ReadsNumbers (nodesOfStatements true statements))
  | [] => by simp [jsonOfStatements, nodesOfStatements]
  | statement :: rest => by
      simp [jsonOfStatements, nodesOfStatements, statement.readable_toJson,
        readable_jsonOfStatements rest]

end

/-! ## Documents -/

/--
The document of a program gives the program back.  Its numbers have to be
finite and among those that are read back from their own texts, and its
interchange form must not nest deeper than documents may.
-/
theorem Program.ofDocument?_toDocument (program : Program)
    (finite : ∀ value ∈ program.numbers, value.isFinite = true)
    (library : ∀ value ∈ program.numbers, value.isFinite = true → Json.ReadsBack value)
    (shallow : program.toJson.depth ≤ Json.nestingLimit) :
    Program.ofDocument? program.toDocument = some program := by
  have numbers : ReadsNumbers (nodesOfStatements true program.statements) :=
    fun value member => library value member (finite value member)
  have readable : program.toJson.Readable := by
    simp [Program.toJson, (readable_jsonOfStatements program.statements).mpr numbers]
  rw [Program.ofDocument?, Program.toDocument, Json.read?_pretty readable shallow]
  exact program.ofJson?_toJson

/-- A program with both zeros, a fraction, a missing value and a text that needs escapes. -/
def zerosProgram : Program :=
  ⟨[.bindings .constant [⟨"text", some (.literal (.string "\x01\"é\\"))⟩, ⟨"late", none⟩],
    .declare ⟨some "zeros", ["x"],
      .block [.giveBack (some (.array [.literal (.number (-0.0)), .literal (.number 0.0),
        .binary .add (.literal (.number 0.5)) (.identifier "x")]))], false, false, true⟩]⟩

theorem zerosProgram_readsBack :
    (∀ value ∈ zerosProgram.numbers, value.isFinite = true) ∧
      (∀ value ∈ zerosProgram.numbers, value.isFinite = true → Json.ReadsBack value) ∧
      zerosProgram.toJson.depth ≤ Json.nestingLimit ∧
      Program.ofDocument? zerosProgram.toDocument = some zerosProgram := by
  have numbers : zerosProgram.numbers = [-0.0, 0.0, 0.5] := rfl
  have finite : ∀ value ∈ zerosProgram.numbers, value.isFinite = true := by
    rw [numbers]
    decide
  have library : ∀ value ∈ zerosProgram.numbers, value.isFinite = true → Json.ReadsBack value := by
    rw [numbers]
    simp only [List.mem_cons, List.not_mem_nil, or_false]
    rintro value (rfl | rfl | rfl) _ <;> rfl
  have shallow : zerosProgram.toJson.depth ≤ Json.nestingLimit := by decide
  exact ⟨finite, library, shallow, zerosProgram.ofDocument?_toDocument finite library shallow⟩

end Covenant
