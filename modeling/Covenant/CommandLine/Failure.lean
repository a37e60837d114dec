import Covenant.Contract.Error
import Covenant.Machine.Conversion

/-!
# Failures of an invocation

What can keep an invocation from its result, the text that reports it, and
the exit code that tells the kinds of failure apart.
-/

namespace Covenant.CommandLine

open Machine

/-- Why an invocation fails. -/
inductive Failure where
  /-- A file cannot be read. -/
  | unreadable (file reason : String)
  /-- A file cannot be written. -/
  | unwritable (file reason : String)
  /-- A file holds no options. -/
  | invalidOptions (file : String)
  /-- A file holds no program. -/
  | invalidProgram (file : String)
  /-- The arguments of the call are no interchange value. -/
  | invalidArguments
  /-- The arguments of the call are a value that is no array. -/
  | argumentsNotArray
  /-- A contract is rejected. -/
  | rejected (error : Contract.Error)
  /-- The run ends with a fault, which is reported by the given text. -/
  | faulty (report : String)
  /-- The run comes into conflict with itself and is broken off. -/
  | brokenOff
  deriving DecidableEq, Repr

namespace Failure

/-- The failure of a run that stops. -/
def ofStop (store : Store) : Stop → Failure
  | .fault fault => .faulty (fault.message store)
  | .conflict _ => .brokenOff
  | .exhausted => .faulty "out of fuel"

/-- The exit code of an invocation that fails. -/
def code : Failure → Nat
  | rejected _ => 1
  | faulty _ => 2
  | brokenOff => 101
  | _ => 3

/-- The text that reports a failure, up to the details that a reader of documents gives. -/
def message : Failure → String
  | unreadable file reason => "Error: failed to read '" ++ file ++ "': " ++ reason
  | unwritable file reason => "Error: failed to write '" ++ file ++ "': " ++ reason
  | invalidOptions file => "Error: invalid options in '" ++ file ++ "': "
  | invalidProgram file => "Error: failed to decode '" ++ file ++ "': "
  | invalidArguments => "Error: --args is not valid JSON: "
  | argumentsNotArray => "Error: --args must be a JSON array"
  | rejected error =>
    match error.site.owner with
    | some name => "Contract error in function '" ++ name ++ "': " ++ error.message
    | none => "Contract error: " ++ error.message
  | faulty report => "Runtime error: " ++ report
  | brokenOff => "an array was changed while it was being read"

/-- The details that a reader of documents gives. -/
def details : Failure → String
  | invalidOptions _ => "the file does not hold options"
  | invalidProgram _ => "the file does not hold a program"
  | invalidArguments => "the text is not a value"
  | _ => ""

end Failure

end Covenant.CommandLine
