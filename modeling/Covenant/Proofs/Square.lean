import Covenant.Proofs.Functions

/-!
# Exchanges side by side

Two trees that are related by one exchange may each be changed by another one.
The results are related again, if the functions in them are.  An exchange that
gives back every function of a tree gives back the tree.
-/

namespace Covenant.Exchange

/--
What two exchanges make of related functions is related, and nothing but
functions is exchanged in expressions.
-/
structure Squares (base left right result : Exchange) : Prop where
  name {name : String} : base.name name → result.name name
  function {first second first' second' : Function} :
    base.function first second → left.function first first' → right.function second second' →
      result.function first' second'
  base {source target : Expression} : ¬ base.expression source target
  left {source target : Expression} : ¬ left.expression source target
  right {source target : Expression} : ¬ right.expression source target

section

set_option linter.unusedSectionVars false

variable {base left right result : Exchange} (squares : Squares base left right result)

include squares

mutual

/-- Related expressions are related after an exchange on either side. -/
theorem OnExpression.square {first second first' second' : Expression} :
    base.OnExpression first second → left.OnExpression first first' →
      right.OnExpression second second' → result.OnExpression first' second'
  | .exchanged given, _, _ => (squares.base given).elim
  | _, .exchanged given, _ => (squares.left given).elim
  | _, _, .exchanged given => (squares.right given).elim
  | .literal value, .literal _, .literal _ => .literal value
  | .identifier known, .identifier _, .identifier _ => .identifier (squares.name known)
  | .receiver, .receiver, .receiver => .receiver
  | .array inner, .array before, .array after => .array (inner.square before after)
  | .record inner, .record before, .record after => .record (inner.square before after)
  | .lambda inner, .lambda before, .lambda after => .lambda (squares.function inner before after)
  | .unary inner, .unary before, .unary after => .unary (inner.square before after)
  | .update inner, .update before, .update after => .update (inner.square before after)
  | .binary inner other, .binary before otherBefore, .binary after otherAfter =>
      .binary (inner.square before after) (other.square otherBefore otherAfter)
  | .logical inner other, .logical before otherBefore, .logical after otherAfter =>
      .logical (inner.square before after) (other.square otherBefore otherAfter)
  | .assign inner other, .assign before otherBefore, .assign after otherAfter =>
      .assign (inner.square before after) (other.square otherBefore otherAfter)
  | .conditional inner other last, .conditional before otherBefore lastBefore,
      .conditional after otherAfter lastAfter =>
      .conditional (inner.square before after) (other.square otherBefore otherAfter)
        (last.square lastBefore lastAfter)
  | .call inner other, .call before otherBefore, .call after otherAfter =>
      .call (inner.square before after) (other.square otherBefore otherAfter)
  | .construct inner other, .construct before otherBefore, .construct after otherAfter =>
      .construct (inner.square before after) (other.square otherBefore otherAfter)
  | .member inner, .member before, .member after => .member (inner.square before after)
  | .index inner other, .index before otherBefore, .index after otherAfter =>
      .index (inner.square before after) (other.square otherBefore otherAfter)
  | .sequence inner, .sequence before, .sequence after => .sequence (inner.square before after)
  | .yield inner, .yield before, .yield after => .yield (inner.square before after)
  | .await inner, .await before, .await after => .await (inner.square before after)

theorem OnExpressions.square {first second first' second' : List Expression} :
    base.OnExpressions first second → left.OnExpressions first first' →
      right.OnExpressions second second' → result.OnExpressions first' second'
  | .nil, .nil, .nil => .nil
  | .cons inner other, .cons before otherBefore, .cons after otherAfter =>
      .cons (inner.square before after) (other.square otherBefore otherAfter)

theorem OnProperties.square {first second first' second' : List Property} :
    base.OnProperties first second → left.OnProperties first first' →
      right.OnProperties second second' → result.OnProperties first' second'
  | .nil, .nil, .nil => .nil
  | .cons inner other, .cons before otherBefore, .cons after otherAfter =>
      .cons (inner.square before after) (other.square otherBefore otherAfter)

theorem OnOptional.square {first second first' second' : Option Expression} :
    base.OnOptional first second → left.OnOptional first first' →
      right.OnOptional second second' → result.OnOptional first' second'
  | .none, .none, .none => .none
  | .some inner, .some before, .some after => .some (inner.square before after)

end

theorem OnDeclarators.square {first second first' second' : List Declarator} :
    base.OnDeclarators first second → left.OnDeclarators first first' →
      right.OnDeclarators second second' → result.OnDeclarators first' second'
  | .nil, .nil, .nil => .nil
  | .cons known inner other, .cons _ before otherBefore, .cons _ after otherAfter =>
      .cons (squares.name known) (inner.square squares before after)
        (OnDeclarators.square other otherBefore otherAfter)

theorem OnLoopInit.square {first second first' second' : Option LoopInit} :
    base.OnLoopInit first second → left.OnLoopInit first first' →
      right.OnLoopInit second second' → result.OnLoopInit first' second'
  | .none, .none, .none => .none
  | .bindings inner, .bindings before, .bindings after =>
      .bindings (inner.square squares before after)
  | .evaluate inner, .evaluate before, .evaluate after =>
      .evaluate (inner.square squares before after)

end

/-! ## Trees related to themselves -/

section

variable {exchange : Exchange}

mutual

/-- An expression is related to itself if its names may occur and its functions are related. -/
theorem OnExpression.self : (expression : Expression) →
    (∀ node ∈ expression.nodes true, ∀ name ∈ node.occurringNames, exchange.name name) →
      AllFunctions (fun function => exchange.function function function)
        (expression.nodes false) →
        exchange.OnExpression expression expression
  | .literal value, _, _ => .literal value
  | .identifier name, names, _ => .identifier (names (.expression (.identifier name))
      (by rw [Expression.nodes]; exact List.mem_cons_self) name List.mem_cons_self)
  | .receiver, _, _ => .receiver
  | .array elements, names, functions => by
      rw [Expression.nodes, List.forall_mem_cons] at names
      rw [Expression.nodes, AllFunctions.cons_expression] at functions
      exact .array (OnExpressions.self elements names.2 functions)
  | .record properties, names, functions => by
      rw [Expression.nodes, List.forall_mem_cons] at names
      rw [Expression.nodes, AllFunctions.cons_expression] at functions
      exact .record (OnProperties.self properties names.2 functions)
  | .lambda function, _, functions => by
      rw [Expression.nodes, AllFunctions.cons_expression, AllFunctions.of_lambda] at functions
      exact .lambda functions
  | .unary _ argument, names, functions => by
      rw [Expression.nodes, List.forall_mem_cons] at names
      rw [Expression.nodes, AllFunctions.cons_expression] at functions
      exact .unary (OnExpression.self argument names.2 functions)
  | .update _ _ argument, names, functions => by
      rw [Expression.nodes, List.forall_mem_cons] at names
      rw [Expression.nodes, AllFunctions.cons_expression] at functions
      exact .update (OnExpression.self argument names.2 functions)
  | .await argument, names, functions => by
      rw [Expression.nodes, List.forall_mem_cons] at names
      rw [Expression.nodes, AllFunctions.cons_expression] at functions
      exact .await (OnExpression.self argument names.2 functions)
  | .member object _, names, functions => by
      rw [Expression.nodes, List.forall_mem_cons] at names
      rw [Expression.nodes, AllFunctions.cons_expression] at functions
      exact .member (OnExpression.self object names.2 functions)
  | .binary _ left right, names, functions => by
      rw [Expression.nodes, List.forall_mem_cons, List.forall_mem_append] at names
      rw [Expression.nodes, AllFunctions.cons_expression, AllFunctions.append] at functions
      exact .binary (OnExpression.self left names.2.1 functions.1)
        (OnExpression.self right names.2.2 functions.2)
  | .logical _ left right, names, functions => by
      rw [Expression.nodes, List.forall_mem_cons, List.forall_mem_append] at names
      rw [Expression.nodes, AllFunctions.cons_expression, AllFunctions.append] at functions
      exact .logical (OnExpression.self left names.2.1 functions.1)
        (OnExpression.self right names.2.2 functions.2)
  | .assign _ target value, names, functions => by
      rw [Expression.nodes, List.forall_mem_cons, List.forall_mem_append] at names
      rw [Expression.nodes, AllFunctions.cons_expression, AllFunctions.append] at functions
      exact .assign (OnExpression.self target names.2.1 functions.1)
        (OnExpression.self value names.2.2 functions.2)
  | .index object key, names, functions => by
      rw [Expression.nodes, List.forall_mem_cons, List.forall_mem_append] at names
      rw [Expression.nodes, AllFunctions.cons_expression, AllFunctions.append] at functions
      exact .index (OnExpression.self object names.2.1 functions.1)
        (OnExpression.self key names.2.2 functions.2)
  | .conditional test consequent alternate, names, functions => by
      rw [Expression.nodes, List.forall_mem_cons, List.forall_mem_append,
        List.forall_mem_append] at names
      rw [Expression.nodes, AllFunctions.cons_expression, AllFunctions.append,
        AllFunctions.append] at functions
      exact .conditional (OnExpression.self test names.2.1.1 functions.1.1)
        (OnExpression.self consequent names.2.1.2 functions.1.2)
        (OnExpression.self alternate names.2.2 functions.2)
  | .call callee arguments, names, functions => by
      rw [Expression.nodes, List.forall_mem_cons, List.forall_mem_append] at names
      rw [Expression.nodes, AllFunctions.cons_expression, AllFunctions.append] at functions
      exact .call (OnExpression.self callee names.2.1 functions.1)
        (OnExpressions.self arguments names.2.2 functions.2)
  | .construct callee arguments, names, functions => by
      rw [Expression.nodes, List.forall_mem_cons, List.forall_mem_append] at names
      rw [Expression.nodes, AllFunctions.cons_expression, AllFunctions.append] at functions
      exact .construct (OnExpression.self callee names.2.1 functions.1)
        (OnExpressions.self arguments names.2.2 functions.2)
  | .sequence expressions, names, functions => by
      rw [Expression.nodes, List.forall_mem_cons] at names
      rw [Expression.nodes, AllFunctions.cons_expression] at functions
      exact .sequence (OnExpressions.self expressions names.2 functions)
  | .yield argument _, names, functions => by
      rw [Expression.nodes, List.forall_mem_cons] at names
      rw [Expression.nodes, AllFunctions.cons_expression] at functions
      exact .yield (OnOptional.self argument names.2 functions)

theorem OnExpressions.self : (expressions : List Expression) →
    (∀ node ∈ nodesOfExpressions true expressions,
      ∀ name ∈ node.occurringNames, exchange.name name) →
      AllFunctions (fun function => exchange.function function function)
        (nodesOfExpressions false expressions) →
        exchange.OnExpressions expressions expressions
  | [], _, _ => .nil
  | expression :: rest, names, functions => by
      rw [nodesOfExpressions, List.forall_mem_append] at names
      rw [nodesOfExpressions, AllFunctions.append] at functions
      exact .cons (OnExpression.self expression names.1 functions.1)
        (OnExpressions.self rest names.2 functions.2)

theorem OnProperties.self : (properties : List Property) →
    (∀ node ∈ nodesOfProperties true properties,
      ∀ name ∈ node.occurringNames, exchange.name name) →
      AllFunctions (fun function => exchange.function function function)
        (nodesOfProperties false properties) →
        exchange.OnProperties properties properties
  | [], _, _ => .nil
  | ⟨_, value⟩ :: rest, names, functions => by
      rw [nodesOfProperties, List.forall_mem_append] at names
      rw [nodesOfProperties, AllFunctions.append] at functions
      exact .cons (OnExpression.self value names.1 functions.1)
        (OnProperties.self rest names.2 functions.2)

theorem OnOptional.self : (expression : Option Expression) →
    (∀ node ∈ nodesOfOptional true expression,
      ∀ name ∈ node.occurringNames, exchange.name name) →
      AllFunctions (fun function => exchange.function function function)
        (nodesOfOptional false expression) →
        exchange.OnOptional expression expression
  | none, _, _ => .none
  | some expression, names, functions => by
      rw [nodesOfOptional] at names functions
      exact .some (OnExpression.self expression names functions)

end

/-- Declared variables are related to themselves if their names may occur as well. -/
theorem OnDeclarators.self : (declarators : List Declarator) →
    (∀ name ∈ namesOfDeclarators declarators, exchange.name name) →
      (∀ node ∈ nodesOfDeclarators true declarators,
        ∀ name ∈ node.occurringNames, exchange.name name) →
        AllFunctions (fun function => exchange.function function function)
          (nodesOfDeclarators false declarators) →
          exchange.OnDeclarators declarators declarators
  | [], _, _, _ => .nil
  | ⟨_, init⟩ :: rest, known, names, functions => by
      rw [namesOfDeclarators, List.map_cons, List.forall_mem_cons] at known
      rw [nodesOfDeclarators, List.forall_mem_append] at names
      rw [nodesOfDeclarators, AllFunctions.append] at functions
      exact .cons known.1 (OnOptional.self init names.1 functions.1)
        (OnDeclarators.self rest known.2 names.2 functions.2)

end

/-! ## Trees that an exchange gives back -/

section

set_option linter.unusedSectionVars false

variable {exchange : Exchange}
  (bare : ∀ {source target : Expression}, ¬ exchange.expression source target)

/-- An exchange gives back a function. -/
def GivesBack (exchange : Exchange) (function : Function) : Prop :=
  ∀ other, exchange.function function other → other = function

include bare

mutual

/-- An exchange gives back an expression if it gives back the functions in it. -/
theorem OnExpression.eq {source target : Expression} :
    exchange.OnExpression source target →
      AllFunctions exchange.GivesBack (source.nodes false) → target = source
  | .exchanged given, _ => (bare given).elim
  | .literal _, _ | .identifier _, _ | .receiver, _ => rfl
  | .array inner, back | .sequence inner, back => by
      rw [Expression.nodes, AllFunctions.cons_expression] at back
      rw [inner.eq back]
  | .record inner, back => by
      rw [Expression.nodes, AllFunctions.cons_expression] at back
      rw [inner.eq back]
  | .lambda inner, back => by
      rw [Expression.nodes, AllFunctions.cons_expression, AllFunctions.of_lambda] at back
      rw [back _ inner]
  | .unary inner, back | .update inner, back | .await inner, back | .member inner, back => by
      rw [Expression.nodes, AllFunctions.cons_expression] at back
      rw [inner.eq back]
  | .binary inner other, back | .logical inner other, back | .assign inner other, back
  | .index inner other, back => by
      rw [Expression.nodes, AllFunctions.cons_expression, AllFunctions.append] at back
      rw [inner.eq back.1, other.eq back.2]
  | .conditional inner other last, back => by
      rw [Expression.nodes, AllFunctions.cons_expression, AllFunctions.append,
        AllFunctions.append] at back
      rw [inner.eq back.1.1, other.eq back.1.2, last.eq back.2]
  | .call inner other, back | .construct inner other, back => by
      rw [Expression.nodes, AllFunctions.cons_expression, AllFunctions.append] at back
      rw [inner.eq back.1, other.eq back.2]
  | .yield inner, back => by
      rw [Expression.nodes, AllFunctions.cons_expression] at back
      rw [inner.eq back]

theorem OnExpressions.eq {source target : List Expression} :
    exchange.OnExpressions source target →
      AllFunctions exchange.GivesBack (nodesOfExpressions false source) → target = source
  | .nil, _ => rfl
  | .cons inner other, back => by
      rw [nodesOfExpressions, AllFunctions.append] at back
      rw [inner.eq back.1, other.eq back.2]

theorem OnProperties.eq {source target : List Property} :
    exchange.OnProperties source target →
      AllFunctions exchange.GivesBack (nodesOfProperties false source) → target = source
  | .nil, _ => rfl
  | .cons inner other, back => by
      rw [nodesOfProperties, AllFunctions.append] at back
      rw [inner.eq back.1, other.eq back.2]

theorem OnOptional.eq {source target : Option Expression} :
    exchange.OnOptional source target →
      AllFunctions exchange.GivesBack (nodesOfOptional false source) → target = source
  | .none, _ => rfl
  | .some inner, back => by
      rw [nodesOfOptional] at back
      rw [inner.eq back]

end

end

end Covenant.Exchange
