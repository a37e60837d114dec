import Covenant.Machine.Conversion
import Covenant.Text.CodeUnit

/-!
# Properties

Reading and writing properties of values.

An array has its length and its elements for properties.  A key denotes an
element if it is an index in the usual decimal notation; writing past the end
fills the gap with undefined, and setting the length cuts or fills likewise.
Texts have a length and characters, counted in UTF-16 code units.  Values
that hold no properties of their own drop what is written to them.

A write is first resolved to what it changes, which is where it can fail, and
then performed, which cannot fail.
-/

namespace Covenant.Machine

/-- The greatest array index. -/
def maxArrayIndex : Nat := Nat.pow 2 32 - 2

/-- The array index that a key denotes: plain decimal digits without leading zeros. -/
def arrayIndex? (key : String) : Option Nat :=
  let digits := key.toList
  let index := Number.decimalInteger digits
  if digits.all Char.isDigit && index ≤ maxArrayIndex && Nat.toDigits 10 index == digits then
    some index
  else
    none

/-- The array length that a number stands for: an integer from zero to `2 ^ 32 - 1`. -/
def arrayLength? (number : Float) : Option Nat :=
  match Number.dyadic? number with
  | some value =>
    if value.isWhole && 0 ≤ value.truncate && value.wholePart ≤ maxArrayIndex + 1 then
      some value.wholePart
    else
      none
  | none => none

/-- A text of one UTF-16 code unit; half of a surrogate pair cannot be shown. -/
def unitText (unit : Nat) : String :=
  if 0xd800 ≤ unit && unit < 0xe000 then
    String.singleton '\ufffd'
  else
    String.singleton (Char.ofNat unit)

/-- A property of a text. -/
def textProperty (text key : String) : Value :=
  if key = "length" then
    .number (Float.ofNat (Text.codeUnitsOf text).length)
  else
    match (arrayIndex? key).bind fun index => (Text.codeUnitsOf text)[index]? with
    | some unit => .text (unitText unit)
    | none => .undefined

/-- A property of an array. -/
def arrayProperty (elements : Array Value) (key : String) : Value :=
  if key = "length" then
    .number (Float.ofNat elements.size)
  else
    ((arrayIndex? key).bind fun index => elements[index]?).getD .undefined

/-- A property of a function. -/
def functionProperty (function : Function) (key : String) : Value :=
  if key = "name" then .text (function.name.getD "")
  else if key = "length" then .number (Float.ofNat function.parameters.length)
  else .undefined

namespace Store

/-- Read a property of a value. -/
def property (store : Store) (base : Value) (key : String) : Except Fault Value :=
  match base with
  | .primitive .undefined | .primitive .null =>
    .error (.type (.unreadable (base.toText store) key))
  | .primitive (.string text) => .ok (textProperty text key)
  | .primitive _ | .builtin _ => .ok .undefined
  | .array address => .ok (arrayProperty (store.elements address) key)
  | .object address => .ok (((store.object address).properties.lookup key).getD .undefined)
  | .closure address =>
    match store.closure? address with
    | some closure => .ok (functionProperty closure.function key)
    | none => .ok .undefined

/-- Whether a value has a property. -/
def hasProperty (store : Store) (base : Value) (key : String) : Except Fault Bool :=
  match base with
  | .object address => .ok ((store.object address).properties.lookup key).isSome
  | .array address =>
    .ok (key == "length" ||
      (arrayIndex? key).any fun index => index < (store.elements address).size)
  | other => .error (.type (.unsearchable key (other.toText store)))

end Store

/-- What writing a property changes. -/
inductive Write where
  /-- Nothing: the value keeps no such property. -/
  | nothing
  /-- The length of an array. -/
  | resize (array : ArrayAddress) (length : Nat)
  /-- An element of an array. -/
  | element (array : ArrayAddress) (index : Nat)
  /-- A property of an object. -/
  | property (object : ObjectAddress)
  deriving DecidableEq

/-- Cut elements to a length, or fill them up with undefined. -/
def resizeElements (length : Nat) (elements : Array Value) : Array Value :=
  if length < elements.size then
    elements.take length
  else
    elements ++ Array.replicate (length - elements.size) .undefined

/-- Set one element, after filling up to its index. -/
def setElement (index : Nat) (value : Value) (elements : Array Value) : Array Value :=
  if index < elements.size then
    elements.setIfInBounds index value
  else
    (resizeElements index elements).push value

namespace Store

/-- The change of a length that a value asks for. -/
def resolveLength (store : Store) (array : ArrayAddress) (value : Value) : Except Stop Write :=
  if value.isWrittenWith store array then
    .error (.conflict array)
  else
    match arrayLength? (value.toNumber store) with
    | none => .error (.fault (.range .invalidLength))
    | some length =>
      if maxArrayLength < length then
        .error (.fault (.range (.lengthTooLarge length)))
      else
        .ok (.resize array length)

/-- What writing a value under a key changes. -/
def resolveWrite
    (store : Store)
    (base : Value)
    (key : String)
    (value : Value) : Except Stop Write :=
  match base with
  | .primitive .undefined | .primitive .null =>
    .error (.fault (.type (.unwritable (base.toText store) key)))
  | .array address =>
    if key = "length" then
      store.resolveLength address value
    else
      match arrayIndex? key with
      | none => .ok .nothing
      | some index =>
        if maxArrayLength ≤ index then
          .error (.fault (.range (.indexTooLarge index)))
        else
          .ok (.element address index)
  | .object address => .ok (.property address)
  | .primitive _ | .closure _ | .builtin _ => .ok .nothing

/-- Perform a write. -/
def perform (store : Store) (write : Write) (key : String) (value : Value) : Store :=
  match write with
  | .nothing => store
  | .resize address length => store.modifyElements address (resizeElements length)
  | .element address index => store.modifyElements address (setElement index value)
  | .property address => store.putProperty address key value

/-- Write a property of a value. -/
@[inline]
def setProperty
    (store : Store)
    (base : Value)
    (key : String)
    (value : Value) : Except Stop Store :=
  match store.resolveWrite base key value with
  | .ok write => .ok (store.perform write key value)
  | .error stop => .error stop

end Store

end Covenant.Machine
