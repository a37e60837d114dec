/-!
# Kinds of contracts

A contract is a condition that a program states under one of four keywords.
What the keyword decides is where the condition is checked: on entry of a
function, on its exits, on entry and exits of a block, or in place.
-/

namespace Covenant.Contract

/-- The keyword under which a contract is stated. -/
inductive Kind where
  /-- Checked in place, at the start of a function. -/
  | precondition
  /-- Checked against the result of a function. -/
  | postcondition
  /-- Checked when a block is entered and when it is left. -/
  | invariant
  /-- Checked in place, anywhere. -/
  | assertion
  deriving DecidableEq, Repr

/-- The word for one contract of a kind. -/
def Kind.noun : Kind → String
  | precondition => "precondition"
  | postcondition => "postcondition"
  | invariant => "invariant"
  | assertion => "assertion"

/-- The word for several contracts of a kind, at the start of a sentence. -/
def Kind.plural : Kind → String
  | precondition => "Preconditions"
  | postcondition => "Postconditions"
  | invariant => "Invariants"
  | assertion => "Assertions"

/-- Where a contract stands: its kind, and the name of the function that owns it. -/
structure Site where
  /-- The kind of the contract. -/
  kind : Kind
  /-- The name of the nearest enclosing function, if it has one. -/
  owner : Option String
  deriving DecidableEq, Repr

end Covenant.Contract
