import Covenant.Number.Text

/-!
# Primitive literals

The primitive values of the script language and their conversions: truth,
number, text, and the two equalities.  Constant folding and evaluation both
use these functions, so a condition that is decided before a run and the same
condition evaluated during a run agree.
-/

namespace Covenant

/-- A primitive value. -/
inductive Literal where
  /-- The absent value. -/
  | undefined
  /-- The null value. -/
  | null
  /-- A truth value. -/
  | bool (value : Bool)
  /-- A number. -/
  | number (value : Float)
  /-- A text. -/
  | string (value : String)
  deriving DecidableEq

namespace Literal

/-- Whether a literal counts as true in a condition. -/
def isTruthy : Literal → Bool
  | undefined | null => false
  | bool value => value
  | number value => value != 0.0 && !value.isNaN
  | string value => !value.isEmpty

/-- Whether a literal is undefined or null. -/
def isNullish : Literal → Bool
  | undefined | null => true
  | _ => false

/-- The number that a literal converts to. -/
def toNumber : Literal → Float
  | undefined => Number.nan
  | null => 0.0
  | bool value => if value then 1.0 else 0.0
  | number value => value
  | string value => Number.ofText value

/-- The text that a literal converts to. -/
def toText : Literal → String
  | undefined => "undefined"
  | null => "null"
  | bool value => if value then "true" else "false"
  | number value => Number.toText value
  | string value => value

/-- The name of a literal's type. -/
def typeName : Literal → String
  | undefined => "undefined"
  | null => "object"
  | bool _ => "boolean"
  | number _ => "number"
  | string _ => "string"

/-- Equality without conversion: NaN equals nothing and both zeros are equal. -/
def strictEquals : Literal → Literal → Bool
  | undefined, undefined => true
  | null, null => true
  | bool left, bool right => left == right
  | number left, number right => left == right
  | string left, string right => left == right
  | _, _ => false

/--
Equality with conversion.  Undefined and null equal each other and nothing
else; operands of different kinds, and truth values, are compared as numbers.
-/
def looseEquals (left right : Literal) : Bool :=
  if left.isNullish || right.isNullish then
    left.isNullish && right.isNullish
  else
    match left, right with
    | number _, string _ | string _, number _ | bool _, _ | _, bool _ =>
      left.toNumber == right.toNumber
    | _, _ => strictEquals left right

end Literal

end Covenant
