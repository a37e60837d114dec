import Covenant.Contract.Transform
import Covenant.Json.Basic

/-!
# Reports in the interchange form

What a transformation reports, in the interchange form: the summary of one
that succeeds, and the contract for which it was rejected.  As for operators,
every kind of contract and every construct stands under a name of its own.
-/

namespace Covenant.Contract

namespace Kind

/-- All kinds of contracts. -/
def all : List Kind := [precondition, postcondition, invariant, assertion]

/-- The name of a kind in the interchange form. -/
def tag : Kind → String
  | precondition => "Precondition"
  | postcondition => "Postcondition"
  | invariant => "Invariant"
  | assertion => "Assertion"

/-- The kind with a given name. -/
def ofTag? (name : String) : Option Kind :=
  all.find? (·.tag == name)

end Kind

/-- The name of a construct in the interchange form. -/
def Effect.tag : Effect → String
  | declaration => "Declaration"
  | functionDeclaration => "FunctionDeclaration"
  | giveBack => "Return"
  | assignment => "Assignment"
  | update => "Update"
  | function => "Function"
  | yield => "Yield"
  | await => "Await"

/-- The name of a reason in the interchange form. -/
def Reason.tag : Reason → String
  | alwaysFails _ => "AlwaysFails"
  | sideEffect _ => "SideEffect"
  | unsupportedStatement _ => "UnsupportedStatement"

/-- What a reason speaks of, as an entry. -/
def Reason.entry : Reason → String × Json
  | alwaysFails condition => ("condition", .string condition)
  | sideEffect construct => ("construct", .string construct.tag)
  | unsupportedStatement kindName => ("statement", .string kindName)

/-- A rejected contract in the interchange form. -/
def Error.toJson (error : Error) : Json :=
  .object [(error.reason.tag,
    .object
      [("kind", .string error.site.kind.tag),
        ("function", (error.site.owner.map Json.string).getD .null), error.reason.entry])]

/-- A summary in the interchange form. -/
def Summary.toJson (summary : Summary) : Json :=
  .object
    [("functions", .integer summary.functions), ("guards", .integer summary.guards),
      ("helpers", .integer summary.helpers), ("old_bindings", .integer summary.oldBindings),
      ("returns_rewritten", .integer summary.returnsRouted),
      ("stripped", .integer summary.stripped), ("inlined", .integer summary.inlined)]

end Covenant.Contract
