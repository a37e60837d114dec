import Covenant.Syntax.Tree

/-!
# Verdicts before a run

Some conditions are constants.  Folding finds the value of an expression
built from literals with unary, binary, and logical operators; a logical
operator whose left operand decides is folded without its right operand.
Every other expression is left for a run to decide.
-/

namespace Covenant.Contract

/-- The constant value of an expression, if it has one. -/
def fold? : Expression → Option Literal
  | .literal value => some value
  | .unary operator argument => (fold? argument).map operator.apply
  | .binary operator left right =>
    match fold? left, fold? right with
    | some left, some right => operator.result? left right
    | _, _ => none
  | .logical operator left right =>
    match fold? left with
    | some value => if operator.shortCircuits value then some value else fold? right
    | none => none
  | _ => none

/-- What is known of a condition before a run. -/
inductive Verdict where
  /-- It is a constant that holds. -/
  | holds (value : Literal)
  /-- It is a constant that does not hold. -/
  | fails (value : Literal)
  /-- Only a run can tell. -/
  | unknown
  deriving DecidableEq

/-- The verdict on a condition. -/
def verdict (condition : Expression) : Verdict :=
  match fold? condition with
  | some value => if value.isTruthy then .holds value else .fails value
  | none => .unknown

end Covenant.Contract
