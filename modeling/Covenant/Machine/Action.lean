import Covenant.Machine.Operation

/-!
# Machine and actions

A machine is what a run changes: the store, the lines written to the console,
and the number of calls that are being performed.  An action takes a machine
and ends with a result or with the reason for which there is none, and in
both cases with the machine as it then is.
-/

namespace Covenant

open Machine in
/-- The state of a run. -/
structure Machine where
  store : Store
  /-- The lines written to the console, in order. -/
  output : Array String
  /-- How many calls of closures are being performed. -/
  depth : Nat
  /-- The greatest number of calls that may be performed at one time. -/
  depthLimit : Nat

namespace Machine

/-- A step of a run. -/
abbrev Action := EStateM Stop Machine

namespace Action

/-- End with a fault. -/
def fail {α : Type} (fault : Fault) : Action α :=
  throw (.fault fault)

/-- Look at the store. -/
@[inline]
def query {α : Type} (look : Store → α) : Action α :=
  fun machine => .ok (look machine.store) machine

/-- Look at the store; a fault ends the action. -/
@[inline]
def check {α : Type} (look : Store → Except Fault α) : Action α :=
  fun machine =>
    match look machine.store with
    | .ok result => .ok result machine
    | .error fault => .error (.fault fault) machine

/-- Add to the store. -/
@[inline]
def allocate {α : Type} (add : Store → α × Store) : Action α :=
  fun ⟨store, output, depth, depthLimit⟩ =>
    match add store with
    | (result, store) => .ok result ⟨store, output, depth, depthLimit⟩

/-- Change the store. -/
@[inline]
def update (change : Store → Store) : Action Unit :=
  fun machine => .ok () { machine with store := change machine.store }

/-- Change the store; on failure it stays as it is. -/
@[inline]
def tryUpdate (change : Store → Except Stop Store) : Action Unit :=
  fun machine =>
    match change machine.store with
    | .ok store => .ok () { machine with store := store }
    | .error stop => .error stop machine

/-- Write a line to the console. -/
def writeLine (line : String) : Action Unit :=
  fun machine => .ok () { machine with output := machine.output.push line }

/--
Perform the body of a call, which counts as being performed until it ends,
whichever way it does.  At the limit there is no call.
-/
@[inline]
def nested {α : Type} (body : Action α) : Action α :=
  fun machine =>
    if machine.depthLimit ≤ machine.depth then
      .error (.fault (.tooDeep machine.depthLimit)) machine
    else
      match body { machine with depth := machine.depth + 1 } with
      | .ok result after => .ok result { after with depth := after.depth - 1 }
      | .error stop after => .error stop { after with depth := after.depth - 1 }

end Action

end Machine

end Covenant
