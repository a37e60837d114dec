import Covenant.Json.Basic
import Covenant.Machine.Conversion

/-!
# Values in the interchange notation

Interchange values become runtime values with fresh cells, the properties of
each object in ascending order of their keys.  The way back writes null for
what the notation cannot express: undefined, functions, and numbers that are
not finite.  Whole numbers below `9 * 10 ^ 15` are written as integers.
-/

namespace Covenant.Machine

/-- A number as an interchange value. -/
def numberToJson (number : Float) : Json :=
  match Number.dyadic? number with
  | none => .null
  | some value =>
    if value.isWhole && value.wholePart < 9 * Nat.pow 10 15 then
      .integer value.truncate
    else
      .number number

/-- A primitive as an interchange value. -/
def literalToJson : Literal → Json
  | .undefined | .null => .null
  | .bool value => .bool value
  | .number value => numberToJson value
  | .string value => .string value

namespace Value

/--
A value as an interchange value, followed to a given depth.  Where a value
contains itself, which the notation cannot express either, there is a null;
the values in `outer` are those that contain it.
-/
def toJsonWithin (store : Store) : (depth : Nat) → (outer : List Value) → Value → Json
  | _, _, primitive literal => literalToJson literal
  | _, _, closure _ | _, _, builtin _ => .null
  | 0, _, _ => .null
  | depth + 1, outer, array address =>
    if outer.contains (array address) then
      .null
    else
      .array ((store.elements address).toList.map
        (toJsonWithin store depth (array address :: outer)))
  | depth + 1, outer, object address =>
    if outer.contains (object address) then
      .null
    else
      .object (Entries.sort ((store.object address).properties.map fun (key, value) =>
        (key, toJsonWithin store depth (object address :: outer) value)))

/-- A value as an interchange value. -/
def toJson (store : Store) (value : Value) : Json :=
  value.toJsonWithin store store.depthBound []

mutual

/-- Add the cells of an interchange value. -/
def ofJson : Json → StateM Store Value
  | .null => pure (.primitive .null)
  | .bool value => pure (.truth value)
  | .integer value => pure (.number (Float.ofInt value))
  | .number value => pure (.number value)
  | .string value => pure (.text value)
  | .array elements => do
    let values ← ofElements elements
    modifyGet fun store => store.addArray values.toArray
  | .object entries => do
    let properties ← ofEntries entries
    modifyGet fun store => store.addObject ⟨.plain, Entries.sort properties⟩

/-- Add the cells of the elements of an array. -/
def ofElements : List Json → StateM Store (List Value)
  | [] => pure []
  | element :: rest => do
    let value ← ofJson element
    let values ← ofElements rest
    pure (value :: values)

/-- Add the cells of the entries of an object. -/
def ofEntries : List (String × Json) → StateM Store (List (String × Value))
  | [] => pure []
  | (key, element) :: rest => do
    let value ← ofJson element
    let values ← ofEntries rest
    pure ((key, value) :: values)

end

end Value

end Covenant.Machine
