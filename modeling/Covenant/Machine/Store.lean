import Covenant.Entries
import Covenant.Machine.Fault

/-!
# Store and scopes

The store holds all cells of a run: arrays, objects, closures, and frames of
bindings.  Cells are only ever added, so an address stays valid.

A scope is the chain of frames that are visible at a point of the program,
innermost first.  A name means its binding in the first frame that has one.
Closures keep the chain of the point where they were made.
-/

namespace Covenant.Machine

/-- What a name is bound to. -/
structure Binding where
  value : Value
  /-- Whether assignments may change the value. -/
  assignable : Bool
  deriving DecidableEq

/-- Names with their bindings. -/
abbrev Frame := List (String × Binding)

/-- The frames that are visible at a point, innermost first. -/
abbrev Scope := List FrameAddress

/-- What an object stands for. -/
inductive ObjectKind where
  | plain
  | error
  deriving DecidableEq, Repr

/-- An object: its properties in the order in which they were first written. -/
structure Object where
  kind : ObjectKind
  properties : List (String × Value)
  deriving DecidableEq

/-- A function with the scope in which it was made. -/
structure Closure where
  function : Function
  scope : Scope

/-- All cells of a run. -/
structure Store where
  frames : Array Frame
  arrays : Array (Array Value)
  objects : Array Object
  closures : Array Closure

namespace Store

/-- A store without cells. -/
def empty : Store :=
  ⟨#[], #[], #[], #[]⟩

/-- The bindings of a frame. -/
def frame (store : Store) (address : FrameAddress) : Frame :=
  store.frames.getD address.index []

/-- The elements of an array. -/
def elements (store : Store) (address : ArrayAddress) : Array Value :=
  store.arrays.getD address.index #[]

/-- An object. -/
def object (store : Store) (address : ObjectAddress) : Object :=
  store.objects.getD address.index ⟨.plain, []⟩

/-- A closure. -/
def closure? (store : Store) (address : ClosureAddress) : Option Closure :=
  store.closures[address.index]?

/-- Add a frame. -/
def addFrame (store : Store) (frame : Frame) : FrameAddress × Store :=
  (⟨store.frames.size⟩, { store with frames := store.frames.push frame })

/-- Add an array. -/
def addArray (store : Store) (elements : Array Value) : Value × Store :=
  (.array ⟨store.arrays.size⟩, { store with arrays := store.arrays.push elements })

/-- Add an object. -/
def addObject (store : Store) (object : Object) : Value × Store :=
  (.object ⟨store.objects.size⟩, { store with objects := store.objects.push object })

/-- Add a closure. -/
def addClosure (store : Store) (closure : Closure) : Value × Store :=
  (.closure ⟨store.closures.size⟩, { store with closures := store.closures.push closure })

/-- Change the elements of an array. -/
def modifyElements
    (store : Store)
    (address : ArrayAddress)
    (change : Array Value → Array Value) : Store :=
  { store with arrays := store.arrays.modify address.index change }

/-- Write a property of an object. -/
def putProperty
    (store : Store)
    (address : ObjectAddress)
    (key : String)
    (value : Value) : Store :=
  { store with
    objects := store.objects.modify address.index fun object =>
      { object with properties := Entries.put key value object.properties } }

/-- Write a binding of a frame. -/
def putBinding
    (store : Store)
    (address : FrameAddress)
    (name : String)
    (binding : Binding) : Store :=
  { store with frames := store.frames.modify address.index (Entries.put name binding) }

/-- Add an error object with a message. -/
def addError (store : Store) (message : Value) : Value × Store :=
  store.addObject ⟨.error, [("name", .text "Error"), ("message", message)]⟩

/-- A scope inside another one, with a frame of its own. -/
def enter (store : Store) (frame : Frame) (scope : Scope) : Scope × Store :=
  let (address, store) := store.addFrame frame
  (address :: scope, store)

/-- The nearest binding of a name with the frame that holds it. -/
def nearest? (store : Store) (name : String) : Scope → Option (FrameAddress × Binding)
  | [] => none
  | address :: outer =>
    match (store.frame address).lookup name with
    | some binding => some (address, binding)
    | none => store.nearest? name outer

/-- The value of a name. -/
def lookup? (store : Store) (scope : Scope) (name : String) : Option Value :=
  (store.nearest? name scope).map fun found => found.2.value

/-- The value of a name, which must have one. -/
def read (store : Store) (scope : Scope) (name : String) : Except Fault Value :=
  match store.lookup? scope name with
  | some value => .ok value
  | none => .error (.unbound name)

/-- Bind a name in the innermost frame, in place of a binding that it has there. -/
def declare (store : Store) (scope : Scope) (name : String) (binding : Binding) : Store :=
  match scope with
  | [] => store
  | address :: _ => store.putBinding address name binding

/-- Give a new value to the nearest binding of a name. -/
@[inline]
def assign (store : Store) (scope : Scope) (name : String) (value : Value) :
    Except Fault Store :=
  match store.nearest? name scope with
  | none => .error (.unbound name)
  | some (address, binding) =>
    if binding.assignable then
      .ok (store.putBinding address name ⟨value, true⟩)
    else
      .error (.type .constantAssignment)

end Store

end Covenant.Machine
