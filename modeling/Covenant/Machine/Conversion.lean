import Covenant.Machine.Store

/-!
# Conversions of values

What values are as texts, primitives and numbers, and the equality that
converts its operands.

The text of an array is made of the texts of its elements, and that of an
error object of the text of its message.  A value is followed to a depth that
none exceeds, and where it contains itself its inner text is left empty.
-/

namespace Covenant.Machine

/-- A depth of nesting that no value exceeds that does not contain itself. -/
def Store.depthBound (store : Store) : Nat :=
  store.arrays.size + store.objects.size

/-- The text of a closure of a function. -/
def functionText (name : Option String) : String :=
  "function " ++ name.getD "" ++ "() \x7b [code] \x7d"

/-- The text of an error object with a message. -/
def errorText (message : String) : String :=
  if message.isEmpty then "Error" else "Error: " ++ message

namespace Value

/--
The text of a value, followed to a given depth.  The values in `outer` are
those that contain it and are being written.
-/
def textWithin (store : Store) : (depth : Nat) → (outer : List Value) → Value → String
  | _, _, primitive literal => literal.toText
  | _, _, builtin _ => "function () \x7b [native code] \x7d"
  | _, _, closure address =>
    functionText ((store.closure? address).bind fun closure => closure.function.name)
  | 0, _, _ => ""
  | depth + 1, outer, array address =>
    if outer.contains (array address) then
      ""
    else
      String.intercalate "," ((store.elements address).toList.map fun element =>
        if element.isNullish then "" else textWithin store depth (array address :: outer) element)
  | depth + 1, outer, object address =>
    if outer.contains (object address) then
      ""
    else
      match (store.object address).kind with
      | .plain => "[object Object]"
      | .error =>
        match (store.object address).properties.lookup "message" with
        | some message => errorText (textWithin store depth (object address :: outer) message)
        | none => errorText ""

/-- The text of a value. -/
def toText (store : Store) (value : Value) : String :=
  value.textWithin store store.depthBound []

/--
Whether the text of a value contains that of an array, followed to a given
depth.  The values in `outer` are those that contain it and have been looked at.
-/
def isWrittenWithin (store : Store) (target : ArrayAddress) :
    (depth : Nat) → (outer : List Value) → Value → Bool
  | 0, _, _ => false
  | depth + 1, outer, array address =>
    if outer.contains (array address) then
      false
    else
      address == target ||
        (store.elements address).toList.any fun element =>
          isWrittenWithin store target depth (array address :: outer) element
  | depth + 1, outer, object address =>
    if outer.contains (object address) then
      false
    else
      match (store.object address).kind with
      | .plain => false
      | .error =>
        match (store.object address).properties.lookup "message" with
        | some message => isWrittenWithin store target depth (object address :: outer) message
        | none => false
  | _, _, _ => false

/-- Whether the text of a value contains that of an array. -/
def isWrittenWith (store : Store) (target : ArrayAddress) (value : Value) : Bool :=
  value.isWrittenWithin store target store.depthBound []

/-- The primitive that an operator works on: the value itself or its text. -/
def toPrimitive (store : Store) (value : Value) : Literal :=
  match value with
  | primitive literal => literal
  | _ => .string (value.toText store)

/-- The number that a value converts to. -/
def toNumber (store : Store) (value : Value) : Float :=
  (value.toPrimitive store).toNumber

/-- The property key that a value converts to. -/
def toKey (store : Store) (value : Value) : String :=
  (value.toPrimitive store).toText

/--
Equality with conversion.  A primitive equals a value of another kind if it
equals the text of that value; undefined and null equal no such value.
-/
def looseEquals (store : Store) (left right : Value) : Bool :=
  match left, right with
  | primitive left, primitive right => left.looseEquals right
  | primitive left, right => !left.isNullish && left.looseEquals (right.toPrimitive store)
  | left, primitive right => !right.isNullish && right.looseEquals (left.toPrimitive store)
  | left, right => left.strictEquals right

/-- Whether a value is an error object. -/
def isError (store : Store) : Value → Bool
  | object address => (store.object address).kind == .error
  | _ => false

/-- What is reported of a thrown value: the message of an error object, or its text. -/
def reportText (store : Store) (value : Value) : String :=
  match value with
  | object address =>
    if (store.object address).kind == .error then
      match (store.object address).properties.lookup "message" with
      | some message => message.toText store
      | none => ""
    else
      value.toText store
  | _ => value.toText store

end Value

/-- The text that reports a fault. -/
def Fault.message (store : Store) : Fault → String
  | thrown value => "uncaught " ++ value.toText store
  | unbound name => "ReferenceError: " ++ name ++ " is not defined"
  | type reason => "TypeError: " ++ reason.message
  | range reason => "RangeError: " ++ reason.message
  | tooDeep limit => "recursion depth limit (" ++ toString limit ++ ") exceeded"
  | missing function => function.message
  | unsupported construct => "unsupported at runtime: " ++ construct.noun

end Covenant.Machine
