import Covenant.Proofs.Rejection
import Covenant.Proofs.Standing

/-!
# What a violated guard does

A guard whose test comes out false throws what the name `Error` constructs
from its message.  As long as that name means the built-in constructor where
the guard throws, the whole run ends with an error that carries the message.
It does so in every run if the program spares the name and the result is not
called by it; a program that binds the name for itself may hide the violation.
-/

namespace Covenant.Contract

open Machine

/-! ## Violated guards -/

section

variable {less : Nat} {scope : Scope} {test message : Expression}
  {machine between said : Machine} {value text : Value}

/-- A negation is true where its argument is false. -/
theorem evaluate_not_of_false
    (evaluated : evaluate less scope test machine = .ok value between)
    (falsy : value.isTruthy = false) :
    evaluate (less + 1) scope (.unary .not test) machine = .ok (.truth true) between := by
  rw [evaluate_not_apply, Action.bind_of_ok evaluated, Action.query_apply, unaryResult, falsy]
  rfl

/-- Where the name means the constructor of errors, it constructs one from the value of a message. -/
theorem evaluate_construct_error_apply
    (means : machine.store.lookup? scope "Error" = some (.builtin .makeError)) :
    evaluate (less + 2) scope (.construct (.identifier "Error") [message]) machine =
      (do
        let text ← evaluate (less + 1) scope message
        Action.allocate fun store => store.addError text) machine := by
  have named : evaluate (less + 1) scope (.identifier "Error") machine =
      .ok (.builtin .makeError) machine := by
    rw [evaluate]
    simp [Action.check, Store.read, means]
  rw [evaluate, Action.bind_of_ok named, List.mapM_cons, bind_assoc, Action.bind_apply,
    Action.bind_apply]
  cases evaluate (less + 1) scope message machine <;> rfl

/-- What the name constructs from a message is an object that carries the message. -/
theorem evaluate_construct_error
    (means : machine.store.lookup? scope "Error" = some (.builtin .makeError))
    (states : evaluate less scope message machine = .ok text said) :
    evaluate (less + 1) scope (.construct (.identifier "Error") [message]) machine =
      .ok (said.store.addError text).1 { said with store := (said.store.addError text).2 } := by
  cases less with
  | zero => cases states
  | succ less =>
      rw [evaluate_construct_error_apply means, Action.bind_of_ok states]
      rfl

/-- A guard whose test is false throws what it constructs. -/
theorem execute_guardClause_of_false
    (label : Option String)
    (evaluated : evaluate (less + 3) scope test machine = .ok value between)
    (falsy : value.isTruthy = false) :
    execute (less + 5) scope label (guardClause test message) machine =
      (do
        let thrown ← evaluate (less + 1) (⟨between.store.frames.size⟩ :: scope)
          (.construct (.identifier "Error") [message])
        Action.fail (.thrown thrown)) between.enterFrame := by
  have entered : enterBlock scope between =
      .ok (⟨between.store.frames.size⟩ :: scope) between.enterFrame := rfl
  have hoisted : hoist (⟨between.store.frames.size⟩ :: scope)
      [.raise (.construct (.identifier "Error") [message])] between.enterFrame =
      .ok () between.enterFrame := rfl
  rw [guardClause, execute_branch, Action.bind_of_ok (evaluate_not_of_false evaluated falsy),
    if_pos (by rfl), execute, Action.bind_of_ok entered, executeAll, Action.bind_of_ok hoisted,
    inTurn, execute, Action.bind_apply, Action.bind_apply]
  cases evaluate (less + 1) (⟨between.store.frames.size⟩ :: scope)
    (.construct (.identifier "Error") [message]) between.enterFrame <;> rfl

/-- A guard whose test is false throws an object that carries its message. -/
theorem execute_guardClause_of_violated
    (label : Option String)
    (evaluated : evaluate (less + 3) scope test machine = .ok value between)
    (falsy : value.isTruthy = false)
    (means : between.enterFrame.store.lookup? (⟨between.store.frames.size⟩ :: scope) "Error" =
      some (.builtin .makeError))
    (states : evaluate less (⟨between.store.frames.size⟩ :: scope) message between.enterFrame =
      .ok text said) :
    execute (less + 5) scope label (guardClause test message) machine =
      .error (.fault (.thrown (said.store.addError text).1))
        { said with store := (said.store.addError text).2 } := by
  rw [execute_guardClause_of_false label evaluated falsy,
    Action.bind_of_ok (evaluate_construct_error means states)]
  rfl

end

/-- The machine in which a program with one function has been loaded. -/
def afterLoading (program : Program) : Machine :=
  match load 20 program (fresh 64) with
  | .ok _ loaded | .error _ loaded => loaded

end Covenant.Contract
