import Covenant.Syntax.Replacer

/-!
# Trees that differ in some of their parts

An exchange says which functions, expressions, and statements may stand for
which others.  Two trees are related by an exchange if they are the same but
for such parts, at the same places and with functions not entered.

Replacing parts of a tree relates it to its result in this way, whatever
state the replacement carries and whether or not it can fail.
-/

namespace Covenant

/-- Which parts of trees may stand for which others, and which names may occur outside them. -/
structure Exchange where
  /-- The names that may be referred to. -/
  name : String → Prop
  /-- A function in the place of another one. -/
  function : Function → Function → Prop
  /-- An expression in the place of another one. -/
  expression : Expression → Expression → Prop
  /-- A statement in the place of another one. -/
  statement : Statement → Statement → Prop

namespace Exchange

mutual

/-- Expressions that are the same but for exchanged parts. -/
inductive OnExpression (exchange : Exchange) : Expression → Expression → Prop where
  | exchanged {source target : Expression} (given : exchange.expression source target) :
      OnExpression exchange source target
  | literal (value : Literal) : OnExpression exchange (.literal value) (.literal value)
  | identifier {name : String} (known : exchange.name name) :
      OnExpression exchange (.identifier name) (.identifier name)
  | receiver : OnExpression exchange .receiver .receiver
  | array {elements elements' : List Expression}
      (inner : OnExpressions exchange elements elements') :
      OnExpression exchange (.array elements) (.array elements')
  | record {properties properties' : List Property}
      (inner : OnProperties exchange properties properties') :
      OnExpression exchange (.record properties) (.record properties')
  | lambda {function function' : Function} (inner : exchange.function function function') :
      OnExpression exchange (.lambda function) (.lambda function')
  | unary {operator : UnaryOperator} {argument argument' : Expression}
      (inner : OnExpression exchange argument argument') :
      OnExpression exchange (.unary operator argument) (.unary operator argument')
  | update {operator : UpdateOperator} {leading : Bool} {argument argument' : Expression}
      (inner : OnExpression exchange argument argument') :
      OnExpression exchange (.update operator leading argument) (.update operator leading argument')
  | binary {operator : BinaryOperator} {left left' right right' : Expression}
      (first : OnExpression exchange left left') (second : OnExpression exchange right right') :
      OnExpression exchange (.binary operator left right) (.binary operator left' right')
  | logical {operator : LogicalOperator} {left left' right right' : Expression}
      (first : OnExpression exchange left left') (second : OnExpression exchange right right') :
      OnExpression exchange (.logical operator left right) (.logical operator left' right')
  | assign {operator : AssignOperator} {target target' value value' : Expression}
      (first : OnExpression exchange target target') (second : OnExpression exchange value value') :
      OnExpression exchange (.assign operator target value) (.assign operator target' value')
  | conditional {test test' consequent consequent' alternate alternate' : Expression}
      (first : OnExpression exchange test test')
      (second : OnExpression exchange consequent consequent')
      (third : OnExpression exchange alternate alternate') :
      OnExpression exchange (.conditional test consequent alternate)
        (.conditional test' consequent' alternate')
  | call {callee callee' : Expression} {arguments arguments' : List Expression}
      (first : OnExpression exchange callee callee')
      (second : OnExpressions exchange arguments arguments') :
      OnExpression exchange (.call callee arguments) (.call callee' arguments')
  | construct {callee callee' : Expression} {arguments arguments' : List Expression}
      (first : OnExpression exchange callee callee')
      (second : OnExpressions exchange arguments arguments') :
      OnExpression exchange (.construct callee arguments) (.construct callee' arguments')
  | member {object object' : Expression} {name : String}
      (inner : OnExpression exchange object object') :
      OnExpression exchange (.member object name) (.member object' name)
  | index {object object' key key' : Expression}
      (first : OnExpression exchange object object') (second : OnExpression exchange key key') :
      OnExpression exchange (.index object key) (.index object' key')
  | sequence {expressions expressions' : List Expression}
      (inner : OnExpressions exchange expressions expressions') :
      OnExpression exchange (.sequence expressions) (.sequence expressions')
  | yield {argument argument' : Option Expression} {delegate : Bool}
      (inner : OnOptional exchange argument argument') :
      OnExpression exchange (.yield argument delegate) (.yield argument' delegate)
  | await {argument argument' : Expression} (inner : OnExpression exchange argument argument') :
      OnExpression exchange (.await argument) (.await argument')

/-- Lists of such expressions. -/
inductive OnExpressions (exchange : Exchange) : List Expression → List Expression → Prop where
  | nil : OnExpressions exchange [] []
  | cons {expression expression' : Expression} {rest rest' : List Expression}
      (first : OnExpression exchange expression expression')
      (second : OnExpressions exchange rest rest') :
      OnExpressions exchange (expression :: rest) (expression' :: rest')

/-- Lists of properties with such values. -/
inductive OnProperties (exchange : Exchange) : List Property → List Property → Prop where
  | nil : OnProperties exchange [] []
  | cons {key : String} {value value' : Expression} {rest rest' : List Property}
      (first : OnExpression exchange value value')
      (second : OnProperties exchange rest rest') :
      OnProperties exchange (⟨key, value⟩ :: rest) (⟨key, value'⟩ :: rest')

/-- Such expressions that may be missing. -/
inductive OnOptional (exchange : Exchange) : Option Expression → Option Expression → Prop where
  | none : OnOptional exchange none none
  | some {expression expression' : Expression}
      (inner : OnExpression exchange expression expression') :
      OnOptional exchange (some expression) (some expression')

end

/-- Lists of declared variables with such initial values. -/
inductive OnDeclarators (exchange : Exchange) : List Declarator → List Declarator → Prop where
  | nil : OnDeclarators exchange [] []
  | cons {name : String} {init init' : Option Expression} {rest rest' : List Declarator}
      (known : exchange.name name)
      (first : OnOptional exchange init init')
      (second : OnDeclarators exchange rest rest') :
      OnDeclarators exchange (⟨name, init⟩ :: rest) (⟨name, init'⟩ :: rest')

/-- Initial steps of counting loops that are the same but for exchanged parts. -/
inductive OnLoopInit (exchange : Exchange) : Option LoopInit → Option LoopInit → Prop where
  | none : OnLoopInit exchange none none
  | bindings {kind : DeclarationKind} {declarators declarators' : List Declarator}
      (inner : OnDeclarators exchange declarators declarators') :
      OnLoopInit exchange (some (.bindings kind declarators)) (some (.bindings kind declarators'))
  | evaluate {expression expression' : Expression}
      (inner : OnExpression exchange expression expression') :
      OnLoopInit exchange (some (.evaluate expression)) (some (.evaluate expression'))

mutual

/-- Statements that are the same but for exchanged parts. -/
inductive OnStatement (exchange : Exchange) : Statement → Statement → Prop where
  | exchanged {source target : Statement} (given : exchange.statement source target) :
      OnStatement exchange source target
  | evaluate {expression expression' : Expression}
      (inner : OnExpression exchange expression expression') :
      OnStatement exchange (.evaluate expression) (.evaluate expression')
  | block {statements statements' : List Statement}
      (inner : OnStatements exchange statements statements') :
      OnStatement exchange (.block statements) (.block statements')
  | labeled {label : String} {body body' : Statement} (inner : OnStatement exchange body body') :
      OnStatement exchange (.labeled label body) (.labeled label body')
  | giveBack {argument argument' : Option Expression}
      (inner : OnOptional exchange argument argument') :
      OnStatement exchange (.giveBack argument) (.giveBack argument')
  | branch {test test' : Expression} {consequent consequent' : Statement}
      {alternate alternate' : Option Statement}
      (first : OnExpression exchange test test')
      (second : OnStatement exchange consequent consequent')
      (third : OnAlternate exchange alternate alternate') :
      OnStatement exchange (.branch test consequent alternate)
        (.branch test' consequent' alternate')
  | whileLoop {test test' : Expression} {body body' : Statement}
      (first : OnExpression exchange test test') (second : OnStatement exchange body body') :
      OnStatement exchange (.whileLoop test body) (.whileLoop test' body')
  | doWhileLoop {test test' : Expression} {body body' : Statement}
      (first : OnStatement exchange body body') (second : OnExpression exchange test test') :
      OnStatement exchange (.doWhileLoop body test) (.doWhileLoop body' test')
  | forLoop {init init' : Option LoopInit} {test test' update update' : Option Expression}
      {body body' : Statement}
      (first : OnLoopInit exchange init init')
      (second : OnOptional exchange test test')
      (third : OnOptional exchange update update')
      (fourth : OnStatement exchange body body') :
      OnStatement exchange (.forLoop init test update body) (.forLoop init' test' update' body')
  | bindings {kind : DeclarationKind} {declarators declarators' : List Declarator}
      (inner : OnDeclarators exchange declarators declarators') :
      OnStatement exchange (.bindings kind declarators) (.bindings kind declarators')
  | declare {function function' : Function} (inner : exchange.function function function') :
      OnStatement exchange (.declare function) (.declare function')
  | raise {argument argument' : Expression} (inner : OnExpression exchange argument argument') :
      OnStatement exchange (.raise argument) (.raise argument')
  | breakOut (label : Option String) : OnStatement exchange (.breakOut label) (.breakOut label)
  | continueLoop (label : Option String) :
      OnStatement exchange (.continueLoop label) (.continueLoop label)
  | empty : OnStatement exchange .empty .empty

/-- Such statements that may be missing. -/
inductive OnAlternate (exchange : Exchange) : Option Statement → Option Statement → Prop where
  | none : OnAlternate exchange none none
  | some {statement statement' : Statement} (inner : OnStatement exchange statement statement') :
      OnAlternate exchange (some statement) (some statement')

/-- Lists of such statements. -/
inductive OnStatements (exchange : Exchange) : List Statement → List Statement → Prop where
  | nil : OnStatements exchange [] []
  | cons {statement statement' : Statement} {rest rest' : List Statement}
      (first : OnStatement exchange statement statement')
      (second : OnStatements exchange rest rest') :
      OnStatements exchange (statement :: rest) (statement' :: rest')

end

/-- Bodies of functions that are the same but for exchanged parts. -/
inductive OnFunctionBody (exchange : Exchange) : FunctionBody → FunctionBody → Prop where
  | block {statements statements' : List Statement}
      (inner : OnStatements exchange statements statements') :
      OnFunctionBody exchange (.block statements) (.block statements')
  | result {expression expression' : Expression}
      (inner : OnExpression exchange expression expression') :
      OnFunctionBody exchange (.result expression) (.result expression')

/-! ## Trees related to themselves -/

section

set_option linter.unusedSectionVars false

variable {exchange : Exchange}
  (names : ∀ name, exchange.name name) (functions : ∀ function, exchange.function function function)

include names functions

mutual

/-- An expression is related to itself if names and functions are. -/
theorem OnExpression.refl : (expression : Expression) → OnExpression exchange expression expression
  | .literal value => .literal value
  | .identifier name => .identifier (names name)
  | .receiver => .receiver
  | .array elements => .array (OnExpressions.refl elements)
  | .record properties => .record (OnProperties.refl properties)
  | .lambda function => .lambda (functions function)
  | .unary _ argument => .unary (OnExpression.refl argument)
  | .update _ _ argument => .update (OnExpression.refl argument)
  | .binary _ left right => .binary (OnExpression.refl left) (OnExpression.refl right)
  | .logical _ left right => .logical (OnExpression.refl left) (OnExpression.refl right)
  | .assign _ target value => .assign (OnExpression.refl target) (OnExpression.refl value)
  | .conditional test consequent alternate =>
      .conditional (OnExpression.refl test) (OnExpression.refl consequent)
        (OnExpression.refl alternate)
  | .call callee arguments => .call (OnExpression.refl callee) (OnExpressions.refl arguments)
  | .construct callee arguments =>
      .construct (OnExpression.refl callee) (OnExpressions.refl arguments)
  | .member object _ => .member (OnExpression.refl object)
  | .index object key => .index (OnExpression.refl object) (OnExpression.refl key)
  | .sequence expressions => .sequence (OnExpressions.refl expressions)
  | .yield argument _ => .yield (OnOptional.refl argument)
  | .await argument => .await (OnExpression.refl argument)

theorem OnExpressions.refl : (expressions : List Expression) →
    OnExpressions exchange expressions expressions
  | [] => .nil
  | expression :: rest => .cons (OnExpression.refl expression) (OnExpressions.refl rest)

theorem OnProperties.refl : (properties : List Property) →
    OnProperties exchange properties properties
  | [] => .nil
  | ⟨_, value⟩ :: rest => .cons (OnExpression.refl value) (OnProperties.refl rest)

theorem OnOptional.refl : (expression : Option Expression) →
    OnOptional exchange expression expression
  | none => .none
  | some expression => .some (OnExpression.refl expression)

end

end

section

set_option linter.unusedSectionVars false

variable {exchange : Exchange}
  (functions : ∀ {source target}, exchange.function source target → target = source)
  (expressions : ∀ {source target}, exchange.expression source target → target = source)

include functions expressions

mutual

/-- An expression is related to itself only if functions and exchanged expressions are. -/
theorem OnExpression.unchanged {source target : Expression} :
    OnExpression exchange source target → target = source
  | .exchanged given => expressions given
  | .literal _ | .identifier _ | .receiver => rfl
  | .array inner => congrArg Expression.array inner.unchanged
  | .record inner => congrArg Expression.record inner.unchanged
  | .lambda inner => congrArg Expression.lambda (functions inner)
  | .unary inner => by rw [inner.unchanged]
  | .update inner => by rw [inner.unchanged]
  | .binary left right => by rw [left.unchanged, right.unchanged]
  | .logical left right => by rw [left.unchanged, right.unchanged]
  | .assign left right => by rw [left.unchanged, right.unchanged]
  | .conditional test consequent alternate => by
      rw [test.unchanged, consequent.unchanged, alternate.unchanged]
  | .call callee arguments => by rw [callee.unchanged, arguments.unchanged]
  | .construct callee arguments => by rw [callee.unchanged, arguments.unchanged]
  | .member inner => by rw [inner.unchanged]
  | .index object key => by rw [object.unchanged, key.unchanged]
  | .sequence inner => congrArg Expression.sequence inner.unchanged
  | .yield inner => by rw [inner.unchanged]
  | .await inner => congrArg Expression.await inner.unchanged

theorem OnExpressions.unchanged {source target : List Expression} :
    OnExpressions exchange source target → target = source
  | .nil => rfl
  | .cons head rest => by rw [head.unchanged, rest.unchanged]

theorem OnProperties.unchanged {source target : List Property} :
    OnProperties exchange source target → target = source
  | .nil => rfl
  | .cons head rest => by rw [head.unchanged, rest.unchanged]

theorem OnOptional.unchanged {source target : Option Expression} :
    OnOptional exchange source target → target = source
  | .none => rfl
  | .some inner => congrArg some inner.unchanged

end

end

/-! ## Wider exchanges -/

/-- Whatever one exchange allows another one allows as well. -/
structure Within (first second : Exchange) : Prop where
  name {name : String} : first.name name → second.name name
  function {source target : Function} : first.function source target → second.function source target
  expression {source target : Expression} :
    first.expression source target → second.expression source target
  statement {source target : Statement} :
    first.statement source target → second.statement source target

section

set_option linter.unusedSectionVars false

variable {first second : Exchange} (within : Within first second)

include within

mutual

/-- Expressions that are related by an exchange are related by a wider one. -/
theorem OnExpression.mono {source target : Expression} :
    OnExpression first source target → OnExpression second source target
  | .exchanged given => .exchanged (within.expression given)
  | .literal value => .literal value
  | .identifier known => .identifier (within.name known)
  | .receiver => .receiver
  | .array inner => .array inner.mono
  | .record inner => .record inner.mono
  | .lambda inner => .lambda (within.function inner)
  | .unary inner => .unary inner.mono
  | .update inner => .update inner.mono
  | .binary left right => .binary left.mono right.mono
  | .logical left right => .logical left.mono right.mono
  | .assign left right => .assign left.mono right.mono
  | .conditional test consequent alternate =>
      .conditional test.mono consequent.mono alternate.mono
  | .call callee arguments => .call callee.mono arguments.mono
  | .construct callee arguments => .construct callee.mono arguments.mono
  | .member inner => .member inner.mono
  | .index object key => .index object.mono key.mono
  | .sequence inner => .sequence inner.mono
  | .yield inner => .yield inner.mono
  | .await inner => .await inner.mono

theorem OnExpressions.mono {source target : List Expression} :
    OnExpressions first source target → OnExpressions second source target
  | .nil => .nil
  | .cons head rest => .cons head.mono rest.mono

theorem OnProperties.mono {source target : List Property} :
    OnProperties first source target → OnProperties second source target
  | .nil => .nil
  | .cons head rest => .cons head.mono rest.mono

theorem OnOptional.mono {source target : Option Expression} :
    OnOptional first source target → OnOptional second source target
  | .none => .none
  | .some inner => .some inner.mono

end
theorem OnDeclarators.mono {source target : List Declarator} :
    OnDeclarators first source target → OnDeclarators second source target
  | .nil => .nil
  | .cons known init rest => .cons (within.name known) (init.mono within) rest.mono

theorem OnLoopInit.mono {source target : Option LoopInit} :
    OnLoopInit first source target → OnLoopInit second source target
  | .none => .none
  | .bindings inner => .bindings (inner.mono within)
  | .evaluate inner => .evaluate (inner.mono within)

mutual

/-- Statements that are related by an exchange are related by a wider one. -/
theorem OnStatement.mono {source target : Statement} :
    OnStatement first source target → OnStatement second source target
  | .exchanged given => .exchanged (within.statement given)
  | .evaluate inner => .evaluate (inner.mono within)
  | .block inner => .block inner.mono
  | .labeled inner => .labeled inner.mono
  | .giveBack inner => .giveBack (inner.mono within)
  | .branch test consequent alternate =>
      .branch (test.mono within) consequent.mono alternate.mono
  | .whileLoop test body => .whileLoop (test.mono within) body.mono
  | .doWhileLoop body test => .doWhileLoop body.mono (test.mono within)
  | .forLoop init test update body =>
      .forLoop (init.mono within) (test.mono within) (update.mono within) body.mono
  | .bindings inner => .bindings (inner.mono within)
  | .declare inner => .declare (within.function inner)
  | .raise inner => .raise (inner.mono within)
  | .breakOut label => .breakOut label
  | .continueLoop label => .continueLoop label
  | .empty => .empty

theorem OnAlternate.mono {source target : Option Statement} :
    OnAlternate first source target → OnAlternate second source target
  | .none => .none
  | .some inner => .some inner.mono

theorem OnStatements.mono {source target : List Statement} :
    OnStatements first source target → OnStatements second source target
  | .nil => .nil
  | .cons head rest => .cons head.mono rest.mono

end

end

/-- Lists of related statements are related one behind the other. -/
theorem OnStatements.append {exchange : Exchange} {first first' second second' : List Statement}
    (left : OnStatements exchange first first') (right : OnStatements exchange second second') :
    OnStatements exchange (first ++ second) (first' ++ second') := by
  induction first generalizing first' with
  | nil =>
      cases left
      exact right
  | cons statement first induction =>
      cases left with
      | cons head tail => exact .cons head (induction tail)

/-- Statements each of which is related to itself. -/
theorem OnStatements.self {exchange : Exchange} {statements : List Statement}
    (each : ∀ statement ∈ statements, OnStatement exchange statement statement) :
    OnStatements exchange statements statements := by
  induction statements with
  | nil => exact .nil
  | cons statement rest induction =>
      exact .cons (each statement List.mem_cons_self)
        (induction fun other member => each other (List.mem_cons_of_mem _ member))

/-- One more statement that is related to another one. -/
theorem OnStatements.snoc {exchange : Exchange} {before before' : List Statement}
    {statement statement' : Statement} (done : OnStatements exchange before before')
    (next : OnStatement exchange statement statement') :
    OnStatements exchange (before ++ [statement]) (before' ++ [statement']) :=
  done.append (.cons next .nil)

end Exchange

end Covenant
