import Covenant.Literal.Basic
import Covenant.Syntax.Tree

/-!
# Runtime values

A value is a primitive, one of the built-in functions, or the address of a
cell.  Arrays, objects and closures live in cells of a store, so two values
with the same address see each other's changes, and identity of such values
is equality of addresses.
-/

namespace Covenant.Machine

/-- The address of an array. -/
structure ArrayAddress where
  index : Nat
  deriving DecidableEq, Repr

/-- The address of an object. -/
structure ObjectAddress where
  index : Nat
  deriving DecidableEq, Repr

/-- The address of a closure. -/
structure ClosureAddress where
  index : Nat
  deriving DecidableEq, Repr

/-- The address of a frame of bindings. -/
structure FrameAddress where
  index : Nat
  deriving DecidableEq, Repr

/-- A function that every program finds in place. -/
inductive Builtin where
  /-- Makes an error object of a message. -/
  | makeError
  /-- Writes a line to the console. -/
  | writeLine
  deriving DecidableEq, Repr

/-- A runtime value. -/
inductive Value where
  /-- A primitive value. -/
  | primitive (literal : Literal)
  /-- An array. -/
  | array (address : ArrayAddress)
  /-- An object. -/
  | object (address : ObjectAddress)
  /-- A function of the program with the scope in which it was made. -/
  | closure (address : ClosureAddress)
  /-- A built-in function. -/
  | builtin (function : Builtin)
  deriving DecidableEq

namespace Value

/-- The absent value. -/
def undefined : Value :=
  .primitive .undefined

/-- A truth value. -/
def truth (value : Bool) : Value :=
  .primitive (.bool value)

/-- A number. -/
def number (value : Float) : Value :=
  .primitive (.number value)

/-- A text. -/
def text (value : String) : Value :=
  .primitive (.string value)

/-- The primitive that a value is, if it is one. -/
def literal? : Value → Option Literal
  | primitive literal => some literal
  | _ => none

/-- Whether a value counts as true in a condition. -/
def isTruthy : Value → Bool
  | primitive literal => literal.isTruthy
  | _ => true

/-- Whether a value is undefined or null. -/
def isNullish : Value → Bool
  | primitive literal => literal.isNullish
  | _ => false

/-- Whether a value can be called. -/
def isCallable : Value → Bool
  | closure _ | builtin _ => true
  | _ => false

/-- The name of a value's type. -/
def typeName : Value → String
  | primitive literal => literal.typeName
  | array _ | object _ => "object"
  | closure _ | builtin _ => "function"

/--
Equality without conversion: primitives by their value, all else by identity.
-/
def strictEquals : Value → Value → Bool
  | primitive left, primitive right => left.strictEquals right
  | array left, array right => left == right
  | object left, object right => left == right
  | closure left, closure right => left == right
  | builtin left, builtin right => left == right
  | _, _ => false

end Value

/-- Whether the left operand of a logical operator is the result, whatever the right one is. -/
def shortCircuits (operator : LogicalOperator) (left : Value) : Bool :=
  match operator with
  | .and => !left.isTruthy
  | .or => left.isTruthy
  | .nullish => !left.isNullish

end Covenant.Machine
