import Covenant.Syntax.Node

/-!
# Names of a program

Which names a list of statements declares, which names a function binds, and
which names occur at all.  Scoping is taken at the grain of functions: a name
declared anywhere in a function, outside the functions nested in it, counts
as bound in the whole function.

A scope stack holds the names of the enclosing scopes, the innermost first.
-/

namespace Covenant

/-- The names of declared variables. -/
def namesOfDeclarators (declarators : List Declarator) : List String :=
  declarators.map (·.name)

/-- The names that a statement declares by itself. -/
def Statement.ownNames : Statement → List String
  | .bindings _ declarators => namesOfDeclarators declarators
  | .forLoop (some (.bindings _ declarators)) _ _ _ => namesOfDeclarators declarators
  | .declare function => function.name.toList
  | _ => []

/-- The names that a node declares in the scope that it stands in. -/
def Node.declaredNames (node : Node) : List String :=
  match node with
  | .statement written => written.ownNames
  | _ => []

/-- The names declared by statements at any depth outside nested functions. -/
def declaredNames (statements : List Statement) : List String :=
  (nodesOfStatements false statements).flatMap Node.declaredNames

/-- The names bound in a function: its parameters, its own name, and its declarations. -/
def Function.scope (function : Function) : List String :=
  function.parameters ++ function.name.toList ++
    match function.block? with
    | some statements => declaredNames statements
    | none => []

/-- The names that occur in a node by itself, in whichever role. -/
def Node.occurringNames (node : Node) : List String :=
  match node with
  | .statement (.labeled label _) => [label]
  | .statement (.bindings _ declarators) => namesOfDeclarators declarators
  | .statement (.forLoop (some (.bindings _ declarators)) _ _ _) =>
    namesOfDeclarators declarators
  | .statement _ => []
  | .expression (.identifier name) => [name]
  | .expression (.member _ name) => [name]
  | .expression _ => []
  | .function written => written.name.toList ++ written.parameters

/--
Every name that occurs in a program: references, declarations, parameters,
functions, labels, and properties accessed by name.
-/
def Program.allNames (program : Program) : List String :=
  (program.nodes true).flatMap Node.occurringNames

/-- The functions of a program, outer ones before the ones nested in them. -/
def Program.functions (program : Program) : List Function :=
  (program.nodes true).filterMap fun node =>
    match node with
    | .function written => some written
    | _ => none

/-- The names of the enclosing scopes, the innermost first. -/
structure ScopeStack where
  frames : List (List String)

namespace ScopeStack

/-- No scope at all. -/
def empty : ScopeStack := ⟨[]⟩

/-- The scope of a program's top level. -/
def ofProgram (program : Program) : ScopeStack :=
  ⟨[declaredNames program.statements]⟩

/-- Enter a scope. -/
def push (stack : ScopeStack) (names : List String) : ScopeStack :=
  ⟨names :: stack.frames⟩

/-- Leave the innermost scope. -/
def pop (stack : ScopeStack) : ScopeStack :=
  ⟨stack.frames.tail⟩

/-- Whether a name is bound in any of the scopes. -/
def isBound (stack : ScopeStack) (name : String) : Bool :=
  stack.frames.any fun frame => frame.contains name

/-- The number of scopes. -/
def depth (stack : ScopeStack) : Nat :=
  stack.frames.length

end ScopeStack

end Covenant
