import Covenant.Machine.Evaluate
import Covenant.Machine.Interchange

/-!
# Sessions

A session starts with a fresh machine, loads programs into it and calls their
functions.  All programs of a session share the global scope.
-/

namespace Covenant

namespace Machine

/-- The scope of the top level of programs. -/
def globalScope : Scope :=
  [⟨0⟩]

/-- The limit on nested calls if none is chosen. -/
def usualDepthLimit : Nat := 64

/-- The bindings that every program finds in place, given the console. -/
def globalFrame (console : Value) : Frame :=
  [("undefined", ⟨.undefined, false⟩), ("NaN", ⟨.number Number.nan, false⟩),
    ("Infinity", ⟨.number Number.infinity, false⟩),
    ("Error", ⟨.builtin .makeError, false⟩), ("console", ⟨console, false⟩)]

/-- A machine that has run nothing yet. -/
def fresh (depthLimit : Nat) : Machine :=
  let (console, store) :=
    Store.empty.addObject ⟨.plain, [("log", .builtin .writeLine)]⟩
  { store := (store.addFrame (globalFrame console)).2
    output := #[]
    depth := 0
    depthLimit := depthLimit }

/-- Run the top level of a program. -/
def load (fuel : Nat) (program : Program) : Action Unit := do
  match ← executeAll fuel globalScope program.statements with
  | .finished | .returned _ => pure ()
  | .broken _ | .continued _ => .fail (.type .strayJump)

/-- Call the global function of a name. -/
def callGlobal (fuel : Nat) (name : String) (arguments : List Value) : Action Value := do
  match ← .query fun store => store.lookup? globalScope name with
  | some callee =>
    if callee.isCallable then
      call fuel callee .undefined arguments
    else
      .fail (.missing ⟨name⟩)
  | none => .fail (.missing ⟨name⟩)

/-- Add the cells of interchange values. -/
def receive (arguments : List Json) : Action (List Value) :=
  .allocate (Value.ofElements arguments)

end Machine

open Machine in
/-- Load a program and call one of its functions. -/
def Program.run
    (fuel : Nat)
    (program : Program)
    (name : String)
    (arguments : List Json) : Action Value := do
  load fuel program
  let values ← receive arguments
  callGlobal fuel name values

end Covenant
