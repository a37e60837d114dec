/-!
# Interchange values

Values of the interchange notation.  Objects keep their entries in the order
in which they were written and may hold a key twice: whether a repeated key
is an error or the last entry counts is for the reader of the object to say.

Integers and doubles are kept apart, since an integral double is written
with a point and an integer without one.
-/

namespace Covenant

/-- A value of the interchange notation. -/
inductive Json where
  /-- The null value. -/
  | null
  /-- A truth value. -/
  | bool (value : Bool)
  /-- A number written without point and exponent. -/
  | integer (value : Int)
  /-- A number written with point or exponent. -/
  | number (value : Float)
  /-- A text. -/
  | string (value : String)
  /-- A sequence of values. -/
  | array (elements : List Json)
  /-- Keys with their values, in the order written. -/
  | object (entries : List (String × Json))

namespace Json

mutual

/-- How deeply containers are nested; a value outside containers has depth zero. -/
def depth : Json → Nat
  | array elements => depthOfElements elements + 1
  | object entries => depthOfEntries entries + 1
  | _ => 0

/-- The greatest depth of a sequence of values. -/
def depthOfElements : List Json → Nat
  | [] => 0
  | element :: rest => max element.depth (depthOfElements rest)

/-- The greatest depth of the values of a sequence of entries. -/
def depthOfEntries : List (String × Json) → Nat
  | [] => 0
  | (_, value) :: rest => max value.depth (depthOfEntries rest)

end

/-- The values of all entries with a given key, in order. -/
def valuesOf (key : String) (entries : List (String × Json)) : List Json :=
  entries.filterMap fun (name, value) => if name = key then some value else none

/-- The value of the last entry with a given key. -/
def lastOf? (key : String) (entries : List (String × Json)) : Option Json :=
  (valuesOf key entries).getLast?

/-- The double of a numeric value, integers rounded to the nearest one. -/
def toNumber? : Json → Option Float
  | integer value => some (Float.ofInt value)
  | number value => some value
  | _ => none

/-- The text of a textual value. -/
def toText? : Json → Option String
  | string value => some value
  | _ => none

/-- The truth value of a boolean. -/
def toBool? : Json → Option Bool
  | bool value => some value
  | _ => none

/-- The elements of a sequence. -/
def toElements? : Json → Option (List Json)
  | array elements => some elements
  | _ => none

/-- The entries of an object. -/
def toEntries? : Json → Option (List (String × Json))
  | object entries => some entries
  | _ => none

end Json

end Covenant
