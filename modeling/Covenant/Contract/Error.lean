import Covenant.Contract.Kind

/-!
# Rejected contracts

The reasons for which a contract is rejected before a program runs, each with
the site of the contract.
-/

namespace Covenant.Contract

/-- A construct that has an effect and may not stand in a contract. -/
inductive Effect where
  | declaration
  | functionDeclaration
  | giveBack
  | assignment
  | update
  | function
  | yield
  | await
  deriving DecidableEq, Repr

/-- The words for a construct. -/
def Effect.noun : Effect → String
  | declaration => "variable declaration"
  | functionDeclaration => "function declaration"
  | giveBack => "return statement"
  | assignment => "assignment"
  | update => "update expression"
  | function => "function expression"
  | yield => "yield"
  | await => "await"

/-- Why a contract is rejected. -/
inductive Reason where
  /-- The condition, given as source text, is a constant that does not hold. -/
  | alwaysFails (condition : String)
  /-- The contract contains a construct with an effect. -/
  | sideEffect (construct : Effect)
  /-- The contract contains a statement of a kind that states no condition. -/
  | unsupportedStatement (kindName : String)
  deriving DecidableEq, Repr

/-- A rejected contract. -/
structure Error where
  /-- Where the contract stands. -/
  site : Site
  /-- Why it is rejected. -/
  reason : Reason
  deriving DecidableEq, Repr

/-- The text that reports a rejected contract. -/
def Error.message (error : Error) : String :=
  match error.reason with
  | .alwaysFails condition => "Contract always fails: " ++ condition
  | .sideEffect construct =>
    error.site.kind.plural ++ " cannot have side effects (found " ++ construct.noun ++ ")"
  | .unsupportedStatement kindName =>
    error.site.kind.plural ++ " may only contain expressions (found " ++ kindName ++ ")"

end Covenant.Contract
