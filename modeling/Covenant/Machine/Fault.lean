import Covenant.Machine.Value

/-!
# Faults

The reasons for which a run ends without a result.  A fault ends the call
that is being performed and leaves the machine as it was at that moment, so
that further calls can follow.

Two reasons are no faults of the program's and are kept apart from them: the
fuel of the run was used up, or an array was to be changed while its contents
were needed to say how.
-/

namespace Covenant.Machine

/-- A value that is not of the type that an operation asks for. -/
inductive TypeFault where
  /-- An assignment to a constant. -/
  | constantAssignment
  /-- A call of something that is no function, given as text. -/
  | notFunction (text : String)
  /-- A construction with something that is no constructor, given as text. -/
  | notConstructor (text : String)
  /-- An assignment to an expression, given as text, that is no place. -/
  | invalidTarget (text : String)
  /-- A property read from a value without properties. -/
  | unreadable (base key : String)
  /-- A property written to a value without properties. -/
  | unwritable (base key : String)
  /-- A key searched for in a value without keys. -/
  | unsearchable (key base : String)
  /-- An instance test against something that is no function. -/
  | invalidInstanceTest
  /-- A jump with no statement around it that it could leave or repeat. -/
  | strayJump
  deriving DecidableEq, Repr

namespace TypeFault

/-- The text that reports a fault. -/
def message : TypeFault → String
  | constantAssignment => "Assignment to constant variable."
  | notFunction text => text ++ " is not a function"
  | notConstructor text => text ++ " is not a constructor"
  | invalidTarget text => "Invalid assignment target: " ++ text
  | unreadable base key => "Cannot read properties of " ++ base ++ " (reading '" ++ key ++ "')"
  | unwritable base key => "Cannot set properties of " ++ base ++ " (setting '" ++ key ++ "')"
  | unsearchable key base =>
    "Cannot use 'in' operator to search for '" ++ key ++ "' in " ++ base
  | invalidInstanceTest => "Right-hand side of 'instanceof' is not callable"
  | strayJump => "Illegal break or continue at top level"

end TypeFault

/-- The greatest length of an array; arrays are stored without gaps. -/
def maxArrayLength : Nat := Nat.pow 2 24

/-- A number that an array cannot take as its length or index. -/
inductive RangeFault where
  /-- A length that no array can have. -/
  | invalidLength
  /-- A length above the greatest one. -/
  | lengthTooLarge (length : Nat)
  /-- An index that needs a length above the greatest one. -/
  | indexTooLarge (index : Nat)
  deriving DecidableEq, Repr

namespace RangeFault

/-- The text that reports a fault. -/
def message : RangeFault → String
  | invalidLength => "Invalid array length"
  | lengthTooLarge length =>
    "Array length " ++ toString length ++ " exceeds the supported maximum of " ++
      toString maxArrayLength
  | indexTooLarge index =>
    "Array index " ++ toString index ++ " exceeds the supported maximum length of " ++
      toString maxArrayLength

end RangeFault

/-- A construct that can be written but not run. -/
inductive Unsupported where
  | yield
  | await
  | asyncFunction
  | generatorFunction
  deriving DecidableEq, Repr

/-- The words for a construct. -/
def Unsupported.noun : Unsupported → String
  | yield => "yield"
  | await => "await"
  | asyncFunction => "async function"
  | generatorFunction => "generator function"

/-- A reason, found in the program, for which a call ends without a result. -/
inductive Fault where
  /-- The program threw a value. -/
  | thrown (value : Value)
  /-- A name has no binding. -/
  | unbound (name : String)
  /-- A value has the wrong type. -/
  | type (reason : TypeFault)
  /-- A number is out of range. -/
  | range (reason : RangeFault)
  /-- Calls are nested more deeply than the limit allows. -/
  | tooDeep (limit : Nat)
  /-- There is no function of the name that was called from outside. -/
  | missing (function : MissingFunction)
  /-- The program contains a construct that cannot be run. -/
  | unsupported (construct : Unsupported)
  deriving DecidableEq

/-- Why a run stops without a result. -/
inductive Stop where
  /-- The program is at fault. -/
  | fault (fault : Fault)
  /-- The length of an array is to be set from a value that is written with that array. -/
  | conflict (array : ArrayAddress)
  /-- The fuel of the run is used up. -/
  | exhausted
  deriving DecidableEq

end Covenant.Machine
