import Covenant.Machine.Evaluate
import Covenant.Proofs.Action

/-!
# Evaluation step by step

What the steps of an evaluation are made of, where the parts deserve a name of
their own: how a loop starts, how a round is tested and followed up, how a
closure is entered and its body run.
-/

namespace Covenant.Machine

/-- The initial step of a counting loop. -/
def startLoop (evaluate : Expression → Action Value) (scope : Scope) :
    Option LoopInit → Action Unit
  | none => pure ()
  | some (.bindings kind declarators) => declareVariables evaluate scope kind declarators
  | some (.evaluate expression) => discard (evaluate expression)

/-- Whether a loop goes on with another round. -/
def testRound (evaluate : Expression → Action Value) : Option Expression → Action Bool
  | none => pure true
  | some test => do
    let chosen ← evaluate test
    pure chosen.isTruthy

/-- The step behind a round of a loop. -/
def stepRound (evaluate : Expression → Action Value) : Option Expression → Action Unit
  | none => pure ()
  | some step => discard (evaluate step)

/-- The value that a return gives back. -/
def returnedValue (evaluate : Expression → Action Value) : Option Expression → Action Value
  | none => pure .undefined
  | some argument => evaluate argument

/-- Run a statement that may be missing. -/
def executeAlternate (execute : Statement → Action Completion) :
    Option Statement → Action Completion
  | none => pure .finished
  | some statement => execute statement

/-- Run the body of a function. -/
def runBody (fuel : Nat) (scope : Scope) : FunctionBody → Action Value
  | .block statements => do
    let completion ← executeAll fuel scope statements
    pure completion.result
  | .result expression => evaluate fuel scope expression

/-- Call a closure that has been found. -/
def enterClosure
    (fuel : Nat) (closure : Closure) (receiver : Value) (arguments : List Value) : Action Value :=
  match unsupportedKind? closure.function with
  | some construct => .fail (.unsupported construct)
  | none => .nested do
    let scope ← .allocate fun store =>
      store.enter (callFrame closure.function receiver arguments) closure.scope
    runBody fuel scope closure.function.body

/-- A machine in which a call has begun, with a frame of its own. -/
def beginCall (machine : Machine) (frame : Frame) : Machine :=
  { machine with store := (machine.store.addFrame frame).2, depth := machine.depth + 1 }

/-- A machine in which a call has ended. -/
def endCall (machine : Machine) : Machine :=
  { machine with depth := machine.depth - 1 }

section

variable (fuel : Nat) (scope : Scope) (label : Option String)

theorem execute_branch (test : Expression) (consequent : Statement) (alternate : Option Statement) :
    execute (fuel + 1) scope label (.branch test consequent alternate) = (do
      let chosen ← evaluate fuel scope test
      if chosen.isTruthy then
        execute fuel scope none consequent
      else
        executeAlternate (execute fuel scope none) alternate) := by
  cases alternate <;> rfl

theorem execute_giveBack (argument : Option Expression) :
    execute (fuel + 1) scope label (.giveBack argument) = (do
      let value ← returnedValue (evaluate fuel scope) argument
      pure (.returned value)) := by
  cases argument <;> rfl

theorem execute_forLoop
    (init : Option LoopInit) (test step : Option Expression) (body : Statement) :
    execute (fuel + 1) scope label (.forLoop init test step body) = (do
      let inner ← enterBlock scope
      startLoop (evaluate fuel inner) inner init
      rounds fuel inner label test step body) := by
  cases init with
  | none => rfl
  | some init => cases init <;> rfl

theorem rounds_succ (test step : Option Expression) (body : Statement) :
    rounds (fuel + 1) scope label test step body = (do
      let goesOn ← testRound (evaluate fuel scope) test
      if goesOn then
        let completion ← execute fuel scope none body
        match completion.afterRound label with
        | some completion => pure completion
        | none =>
          stepRound (evaluate fuel scope) step
          rounds fuel scope label test step body
      else
        pure .finished) := by
  cases test <;> cases step <;>
  · rw [rounds]
    simp only [testRound, stepRound, bind_assoc, pure_bind] <;> rfl

theorem call_closure (address : ClosureAddress) (receiver : Value) (arguments : List Value) :
    call (fuel + 1) (.closure address) receiver arguments = (do
      match ← Action.query fun store => store.closure? address with
      | none => pure .undefined
      | some closure => enterClosure fuel closure receiver arguments) := by
  rw [call]
  rfl

end

/-- A nested action has a result just if its body has one above the depth of calls. -/
theorem Action.nested_eq_ok {α : Type} {body : Action α} {machine after : Machine} {result : α} :
    Action.nested body machine = .ok result after ↔
      machine.depth < machine.depthLimit ∧
        ∃ final,
          body { machine with depth := machine.depth + 1 } = .ok result final ∧
            after = final.endCall := by
  unfold Action.nested
  by_cases deep : machine.depthLimit ≤ machine.depth
  · simp [deep, Nat.not_lt.mpr deep]
  · rw [if_neg deep]
    cases outcome : body { machine with depth := machine.depth + 1 } with
    | ok value final =>
        constructor
        · intro equal
          cases equal
          exact ⟨Nat.not_le.mp deep, final, rfl, rfl⟩
        · rintro ⟨_, _, equal, rfl⟩
          cases equal
          rfl
    | error stop final => simp

/-- A call of a closure has a result just if its body has one in a scope of the call's own. -/
theorem enterClosure_eq_ok
    {fuel : Nat} {closure : Closure} {receiver : Value} {arguments : List Value}
    {machine after : Machine} {result : Value} :
    enterClosure fuel closure receiver arguments machine = .ok result after ↔
      unsupportedKind? closure.function = none ∧
        machine.depth < machine.depthLimit ∧
          ∃ final,
            runBody fuel (⟨machine.store.frames.size⟩ :: closure.scope) closure.function.body
                (machine.beginCall (callFrame closure.function receiver arguments)) =
              .ok result final ∧
              after = final.endCall := by
  unfold enterClosure
  cases unsupportedKind? closure.function with
  | some construct => simp
  | none =>
      simp only [true_and]
      rw [Action.nested_eq_ok]
      rfl

/-- A call of a closure that is in the store enters it. -/
theorem call_closure_of_some
    {fuel : Nat} {address : ClosureAddress} {closure : Closure} {receiver : Value}
    {arguments : List Value} {machine : Machine}
    (found : machine.store.closure? address = some closure) :
    call (fuel + 1) (.closure address) receiver arguments machine =
      enterClosure fuel closure receiver arguments machine := by
  rw [call_closure, Action.bind_of_ok (Action.query_apply _ machine), found]

/-- Whether a name is unbound is found out without touching the machine. -/
theorem exists_isUnboundName (scope : Scope) (expression : Expression) (machine : Machine) :
    ∃ unbound, isUnboundName scope expression machine = .ok unbound machine := by
  cases expression <;> exact ⟨_, rfl⟩

/-- What can construct objects is a closure of a function that is no arrow function. -/
theorem exists_of_any_notArrow {closure? : Option Closure}
    (written : (closure?.any fun closure => !closure.function.isArrow) = true) :
    ∃ closure, closure? = some closure ∧ closure.function.isArrow = false := by
  cases closure? with
  | none => simp at written
  | some closure => exact ⟨closure, rfl, by simpa using written⟩

end Covenant.Machine
