import Covenant.Contract.Error
import Covenant.Contract.Verdict
import Covenant.Syntax.Node
import Covenant.Syntax.Printer

/-!
# Conditions and guards

The body of a contract is a list of conditions: an expression statement, or a
block of them, nested at will.  A condition may carry a message, as the
second part of a two-element sequence; otherwise its message quotes it as it
is written.

Each condition becomes a guard, a statement that throws an error with the
message unless the condition holds.  A body with effects, a body with
anything but expressions, and a condition that can never hold are rejected,
in this order.
-/

namespace Covenant.Contract

/-- The effect that a node has by itself. -/
def effect? (node : Node) : Option Effect :=
  match node with
  | .statement (.bindings _ _) => some .declaration
  | .statement (.declare _) => some .functionDeclaration
  | .statement (.giveBack _) => some .giveBack
  | .statement _ => none
  | .expression (.assign _ _ _) => some .assignment
  | .expression (.update _ _ _) => some .update
  | .expression (.yield _ _) => some .yield
  | .expression (.await _) => some .await
  | .expression _ => none
  | .function _ => some .function

/-- The first construct with an effect in a statement, in source order. -/
def firstEffect? (body : Statement) : Option Effect :=
  (body.nodes false).findSome? effect?

/-- Reject a body with effects. -/
def checkEffects (site : Site) (body : Statement) : Except Error Unit :=
  match firstEffect? body with
  | some construct => .error ⟨site, .sideEffect construct⟩
  | none => .ok ()

/-- A condition of a contract, with its message if it has one. -/
structure Condition where
  test : Expression
  message? : Option Expression

namespace Condition

/-- Split the message off an expression. -/
def ofExpression : Expression → Condition
  | .sequence [test, message] => ⟨test, some message⟩
  | test => ⟨test, none⟩

/-- The message of a condition that carries none of its own. -/
def defaultMessage (site : Site) (test : Expression) : String :=
  let failure :=
    match site.kind, site.owner with
    | .assertion, none => "Assertion failed: "
    | .assertion, some name => "Function \"" ++ name ++ "\" assertion failed: "
    | kind, some name => "Function \"" ++ name ++ "\" " ++ kind.noun ++ " failed: "
    | kind, none => "Function " ++ kind.noun ++ " failed: "
  failure ++ test.source

/-- The message of a condition. -/
def message (site : Site) (condition : Condition) : Expression :=
  condition.message?.getD (.literal (.string (defaultMessage site condition.test)))

/-- The condition with its message filled in. -/
def withMessage (site : Site) (condition : Condition) : Condition :=
  ⟨condition.test, some (condition.message site)⟩

end Condition

/-- A guard: throw an error with the message unless the test holds. -/
def guardClause (test message : Expression) : Statement :=
  .branch (.unary .not test)
    (.block [.raise (.construct (.identifier "Error") [message])])
    none

/-- The guard of a condition, unless the condition can never hold. -/
def Condition.guard (site : Site) (condition : Condition) : Except Error Statement :=
  match verdict condition.test with
  | .fails _ => .error ⟨site, .alwaysFails condition.test.source⟩
  | _ => .ok (guardClause condition.test (condition.message site))

mutual

/-- The conditions of a body in source order. -/
def conditions (site : Site) : Statement → Except Error (List Condition)
  | .evaluate expression => .ok [Condition.ofExpression expression]
  | .block statements => conditionsOfStatements site statements
  | .empty => .ok []
  | other => .error ⟨site, .unsupportedStatement other.kindName⟩

/-- The conditions of statements in source order. -/
def conditionsOfStatements (site : Site) : List Statement → Except Error (List Condition)
  | [] => .ok []
  | statement :: rest => do
    let first ← conditions site statement
    let others ← conditionsOfStatements site rest
    .ok (first ++ others)

end

/-- The conditions of a body without effects, every message filled in. -/
def prepare (site : Site) (body : Statement) : Except Error (List Condition) := do
  checkEffects site body
  let found ← conditions site body
  .ok (found.map (Condition.withMessage site))

/-- The guards of conditions in order. -/
def guards (site : Site) (found : List Condition) : Except Error (List Statement) :=
  found.mapM (Condition.guard site)

/-- The guards of a contract. -/
def assemble (site : Site) (body : Statement) : Except Error (List Statement) := do
  guards site (← prepare site body)

end Covenant.Contract
