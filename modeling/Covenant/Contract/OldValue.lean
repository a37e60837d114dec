import Covenant.Contract.Condition
import Covenant.Contract.FreshName
import Covenant.Syntax.Printer
import Covenant.Syntax.Replacer

/-!
# Values on entry of a function

A postcondition or an invariant may refer to the value that an expression had
when the function was entered, by calling a marker on the expression.  Every
such call is replaced by a constant that is declared at the top of the
function.  Expressions with the same source text share a constant.
-/

namespace Covenant.Contract

/-- A constant that holds the value of an expression on entry. -/
structure OldBinding where
  name : String
  init : Expression

/-- The constants of one function, in the order in which they were captured. -/
structure OldBindings where
  bindings : List OldBinding

namespace OldBindings

/-- No constants. -/
def empty : OldBindings := ⟨[]⟩

/-- One more constant. -/
def push (captured : OldBindings) (binding : OldBinding) : OldBindings :=
  ⟨captured.bindings ++ [binding]⟩

/-- The constant for an expression, by its source text. -/
def find? (captured : OldBindings) (expression : Expression) : Option OldBinding :=
  captured.bindings.find? fun binding => binding.init.source == expression.source

/-- The declarations of the constants. -/
def declarations (captured : OldBindings) : List Statement :=
  captured.bindings.map fun binding => .bindings .constant [⟨binding.name, some binding.init⟩]

end OldBindings

/-- What the replacement of marker calls carries along. -/
structure Capture where
  /-- The constants so far. -/
  captured : OldBindings
  /-- The names that are still free. -/
  supply : NameSupply
  /-- How many calls have been replaced. -/
  replaced : Nat

namespace Capture

/-- The constant for an expression, captured now unless it is already there. -/
def bind (expression : Expression) : StateM Capture String := do
  let state ← get
  match state.captured.find? expression with
  | some binding => pure binding.name
  | none => do
    let (name, supply) := state.supply.generateFor expression
    set
      { state with
        captured := state.captured.push ⟨name, expression⟩
        supply := supply }
    pure name

/-- The argument of a call of the marker on exactly one argument. -/
def argument? (marker : String) : Expression → Option Expression
  | .call (.identifier name) [argument] => if name = marker then some argument else none
  | _ => none

/-- Replace calls of a marker, outside functions. -/
def replacer (marker : String) : Replacer (StateM Capture) where
  statement _ := pure none
  expression expression :=
    match argument? marker expression with
    | none => pure none
    | some argument => do
      let name ← bind argument
      modify fun state => { state with replaced := state.replaced + 1 }
      pure (some (.identifier name))
  function function := pure (some function)

/-- An expression with all calls of a marker replaced. -/
def replace (marker : String) (expression : Expression) : StateM Capture Expression :=
  (replacer marker).onExpression expression

/-- A condition with all calls of a marker replaced, in its test before its message. -/
def replaceInCondition (marker : String) (condition : Condition) : StateM Capture Condition := do
  let test ← replace marker condition.test
  let message? ← (replacer marker).onOptional condition.message?
  pure ⟨test, message?⟩

end Capture

end Covenant.Contract
