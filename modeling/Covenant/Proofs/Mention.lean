import Mathlib.Tactic.Tauto
import Covenant.Proofs.Reference

/-!
# The names that a program mentions

A program mentions a name where it refers to it, declares it, takes it as a
parameter, gives it to a function, sets it as a label, or reads a property by
it.  The names that are collected from a listing of the nodes of a program are
those that it mentions, wherever they stand: in the head of a loop, in a nested
function, in the initial value of a variable.

A jump to a label mentions nothing by itself: the label is that of a statement
around the jump.
-/

namespace Covenant

mutual

/-- Whether a name is mentioned in an expression. -/
def Expression.Mentions (name : String) : Expression → Prop
  | .literal _ | .receiver => False
  | .identifier own => name = own
  | .array elements | .sequence elements => MentionsAmong name elements
  | .record properties => MentionsInValues name properties
  | .lambda function => function.Mentions name
  | .unary _ argument | .update _ _ argument | .await argument => argument.Mentions name
  | .binary _ left right | .logical _ left right | .assign _ left right | .index left right =>
    left.Mentions name ∨ right.Mentions name
  | .conditional test consequent alternate =>
    test.Mentions name ∨ consequent.Mentions name ∨ alternate.Mentions name
  | .call callee arguments | .construct callee arguments =>
    callee.Mentions name ∨ MentionsAmong name arguments
  | .member object own => name = own ∨ object.Mentions name
  | .yield argument _ => MentionsIfAny name argument

/-- Whether a name is mentioned in one of several expressions. -/
def MentionsAmong (name : String) : List Expression → Prop
  | [] => False
  | expression :: rest => expression.Mentions name ∨ MentionsAmong name rest

/-- Whether a name is mentioned in the value of a property. -/
def MentionsInValues (name : String) : List Property → Prop
  | [] => False
  | ⟨_, value⟩ :: rest => value.Mentions name ∨ MentionsInValues name rest

/-- Whether a name is mentioned in an expression that may be missing. -/
def MentionsIfAny (name : String) : Option Expression → Prop
  | none => False
  | some expression => expression.Mentions name

/-- Whether a name is mentioned in a function: as its own name, as a parameter, or in its body. -/
def Function.Mentions (name : String) : Function → Prop
  | ⟨own, parameters, body, _, _, _⟩ => own = some name ∨ name ∈ parameters ∨ body.Mentions name

/-- Whether a name is mentioned in the body of a function. -/
def FunctionBody.Mentions (name : String) : FunctionBody → Prop
  | .block statements => MentionsInStatements name statements
  | .result expression => expression.Mentions name

/-- Whether a name is that of a declared variable or is mentioned in an initial value. -/
def MentionsInDeclarators (name : String) : List Declarator → Prop
  | [] => False
  | ⟨own, init⟩ :: rest => name = own ∨ MentionsIfAny name init ∨ MentionsInDeclarators name rest

/-- Whether a name is mentioned in the initial step of a counting loop. -/
def MentionsInLoopInit (name : String) : Option LoopInit → Prop
  | none => False
  | some (.bindings _ declarators) => MentionsInDeclarators name declarators
  | some (.evaluate expression) => expression.Mentions name

/-- Whether a name is mentioned in a statement. -/
def Statement.Mentions (name : String) : Statement → Prop
  | .evaluate expression | .raise expression => expression.Mentions name
  | .block statements => MentionsInStatements name statements
  | .labeled label body => name = label ∨ body.Mentions name
  | .giveBack argument => MentionsIfAny name argument
  | .branch test consequent alternate =>
    test.Mentions name ∨ consequent.Mentions name ∨ MentionsInAlternate name alternate
  | .whileLoop test body => test.Mentions name ∨ body.Mentions name
  | .doWhileLoop body test => body.Mentions name ∨ test.Mentions name
  | .forLoop init test update body =>
    MentionsInLoopInit name init ∨ MentionsIfAny name test ∨ MentionsIfAny name update ∨
      body.Mentions name
  | .bindings _ declarators => MentionsInDeclarators name declarators
  | .declare function => function.Mentions name
  | .breakOut _ | .continueLoop _ | .empty => False

/-- Whether a name is mentioned in a statement that may be missing. -/
def MentionsInAlternate (name : String) : Option Statement → Prop
  | none => False
  | some statement => statement.Mentions name

/-- Whether a name is mentioned in one of several statements. -/
def MentionsInStatements (name : String) : List Statement → Prop
  | [] => False
  | statement :: rest => statement.Mentions name ∨ MentionsInStatements name rest

end

/-- Whether a name is mentioned anywhere in a program. -/
def Program.Mentions (name : String) (program : Program) : Prop :=
  MentionsInStatements name program.statements

/-! ## What is mentioned is collected -/

/-- The names that occur in nodes by themselves. -/
def namesIn (nodes : List Node) : List String :=
  nodes.flatMap Node.occurringNames

@[simp]
theorem namesIn_nil : namesIn [] = [] :=
  rfl

@[simp]
theorem namesIn_cons (node : Node) (nodes : List Node) :
    namesIn (node :: nodes) = node.occurringNames ++ namesIn nodes :=
  List.flatMap_cons

@[simp]
theorem namesIn_append (first second : List Node) :
    namesIn (first ++ second) = namesIn first ++ namesIn second :=
  List.flatMap_append

variable {name : String}

mutual

theorem Expression.mem_namesIn : (expression : Expression) →
    (name ∈ namesIn (expression.nodes true) ↔ expression.Mentions name)
  | .literal _ | .receiver => by
      simp [Expression.nodes, Node.occurringNames, Expression.Mentions]
  | .identifier own => by
      simp [Expression.nodes, Node.occurringNames, Expression.Mentions]
  | .array elements | .sequence elements => by
      simp [Expression.nodes, Node.occurringNames, Expression.Mentions,
        mem_namesIn_expressions elements]
  | .record properties => by
      simp [Expression.nodes, Node.occurringNames, Expression.Mentions,
        mem_namesIn_properties properties]
  | .lambda function => by
      simp [Expression.nodes, Node.occurringNames, Expression.Mentions, function.mem_namesIn]
  | .unary _ argument | .update _ _ argument | .await argument => by
      simp [Expression.nodes, Node.occurringNames, Expression.Mentions, argument.mem_namesIn]
  | .binary _ left right | .logical _ left right | .assign _ left right | .index left right => by
      simp [Expression.nodes, Node.occurringNames, Expression.Mentions, left.mem_namesIn,
        right.mem_namesIn]
  | .conditional test consequent alternate => by
      simp [Expression.nodes, Node.occurringNames, Expression.Mentions, test.mem_namesIn,
        consequent.mem_namesIn, alternate.mem_namesIn]
  | .call callee arguments | .construct callee arguments => by
      simp [Expression.nodes, Node.occurringNames, Expression.Mentions, callee.mem_namesIn,
        mem_namesIn_expressions arguments]
  | .member object own => by
      simp [Expression.nodes, Node.occurringNames, Expression.Mentions, object.mem_namesIn]
  | .yield argument _ => by
      simp [Expression.nodes, Node.occurringNames, Expression.Mentions,
        mem_namesIn_optional argument]

theorem mem_namesIn_expressions : (expressions : List Expression) →
    (name ∈ namesIn (nodesOfExpressions true expressions) ↔ MentionsAmong name expressions)
  | [] => by simp [nodesOfExpressions, MentionsAmong]
  | expression :: rest => by
      simp [nodesOfExpressions, MentionsAmong, expression.mem_namesIn,
        mem_namesIn_expressions rest]

theorem mem_namesIn_properties : (properties : List Property) →
    (name ∈ namesIn (nodesOfProperties true properties) ↔ MentionsInValues name properties)
  | [] => by simp [nodesOfProperties, MentionsInValues]
  | ⟨_, value⟩ :: rest => by
      simp [nodesOfProperties, MentionsInValues, value.mem_namesIn,
        mem_namesIn_properties rest]

theorem mem_namesIn_optional : (expression : Option Expression) →
    (name ∈ namesIn (nodesOfOptional true expression) ↔ MentionsIfAny name expression)
  | none => by simp [nodesOfOptional, MentionsIfAny]
  | some expression => by simp [nodesOfOptional, MentionsIfAny, expression.mem_namesIn]

theorem Function.mem_namesIn : (function : Function) →
    (name ∈ namesIn (function.nodes true) ↔ function.Mentions name)
  | ⟨own, parameters, body, _, _, _⟩ => by
      simp [Function.nodes, Node.occurringNames, Function.Mentions, body.mem_namesIn]

theorem FunctionBody.mem_namesIn : (body : FunctionBody) →
    (name ∈ namesIn (body.nodes true) ↔ body.Mentions name)
  | .block statements => by
      simp [FunctionBody.nodes, FunctionBody.Mentions, mem_namesIn_statements statements]
  | .result expression => by
      simp [FunctionBody.nodes, FunctionBody.Mentions, expression.mem_namesIn]

/-- The names of declared variables are collected where they are declared. -/
theorem mem_namesIn_declarators : (declarators : List Declarator) →
    (name ∈ namesOfDeclarators declarators ∨ name ∈ namesIn (nodesOfDeclarators true declarators) ↔
      MentionsInDeclarators name declarators)
  | [] => by simp [namesOfDeclarators, nodesOfDeclarators, MentionsInDeclarators]
  | ⟨own, init⟩ :: rest => by
      have later := mem_namesIn_declarators rest
      simp only [namesOfDeclarators, nodesOfDeclarators, MentionsInDeclarators, ← later,
        mem_namesIn_optional init, List.map_cons, List.mem_cons, namesIn_append, List.mem_append]
      tauto

theorem Statement.mem_namesIn : (statement : Statement) →
    (name ∈ namesIn (statement.nodes true) ↔ statement.Mentions name)
  | .evaluate expression | .raise expression => by
      simp [Statement.nodes, Node.occurringNames, Statement.Mentions, expression.mem_namesIn]
  | .block statements => by
      simp [Statement.nodes, Node.occurringNames, Statement.Mentions,
        mem_namesIn_statements statements]
  | .labeled label body => by
      simp [Statement.nodes, Node.occurringNames, Statement.Mentions, body.mem_namesIn]
  | .giveBack argument => by
      simp [Statement.nodes, Node.occurringNames, Statement.Mentions, mem_namesIn_optional argument]
  | .branch test consequent alternate => by
      simp [Statement.nodes, Node.occurringNames, Statement.Mentions, test.mem_namesIn,
        consequent.mem_namesIn, mem_namesIn_alternate alternate]
  | .whileLoop test body => by
      simp [Statement.nodes, Node.occurringNames, Statement.Mentions, test.mem_namesIn,
        body.mem_namesIn]
  | .doWhileLoop body test => by
      simp [Statement.nodes, Node.occurringNames, Statement.Mentions, test.mem_namesIn,
        body.mem_namesIn]
  | .forLoop none test update body => by
      simp [Statement.nodes, nodesOfLoopInit, Node.occurringNames, Statement.Mentions,
        MentionsInLoopInit, mem_namesIn_optional test, mem_namesIn_optional update,
        body.mem_namesIn]
  | .forLoop (some (.evaluate expression)) test update body => by
      simp [Statement.nodes, nodesOfLoopInit, Node.occurringNames, Statement.Mentions,
        MentionsInLoopInit, expression.mem_namesIn, mem_namesIn_optional test,
        mem_namesIn_optional update, body.mem_namesIn]
  | .forLoop (some (.bindings _ declarators)) test update body => by
      simp [Statement.nodes, nodesOfLoopInit, Node.occurringNames, Statement.Mentions,
        MentionsInLoopInit, ← mem_namesIn_declarators declarators, mem_namesIn_optional test,
        mem_namesIn_optional update, body.mem_namesIn, or_assoc]
  | .bindings _ declarators => by
      simp [Statement.nodes, Node.occurringNames, Statement.Mentions,
        mem_namesIn_declarators declarators]
  | .declare function => by
      simp [Statement.nodes, Node.occurringNames, Statement.Mentions, function.mem_namesIn]
  | .breakOut _ | .continueLoop _ | .empty => by
      simp [Statement.nodes, Node.occurringNames, Statement.Mentions]

theorem mem_namesIn_alternate : (alternate : Option Statement) →
    (name ∈ namesIn (nodesOfAlternate true alternate) ↔ MentionsInAlternate name alternate)
  | none => by simp [nodesOfAlternate, MentionsInAlternate]
  | some statement => by simp [nodesOfAlternate, MentionsInAlternate, statement.mem_namesIn]

theorem mem_namesIn_statements : (statements : List Statement) →
    (name ∈ namesIn (nodesOfStatements true statements) ↔ MentionsInStatements name statements)
  | [] => by simp [nodesOfStatements, MentionsInStatements]
  | statement :: rest => by
      simp [nodesOfStatements, MentionsInStatements, statement.mem_namesIn,
        mem_namesIn_statements rest]

end

/-- The names collected from a program are those that it mentions. -/
theorem Program.mem_allNames {program : Program} :
    name ∈ program.allNames ↔ program.Mentions name :=
  mem_namesIn_statements program.statements

end Covenant
