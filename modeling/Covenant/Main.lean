import Covenant.CommandLine.Perform

/-!
# The program

Reads the command line, performs what it asks for on the files of the system,
and ends with the exit code of the outcome.
-/

namespace Covenant

open CommandLine

/-- More fuel than any run that ends in reasonable time uses. -/
def ampleFuel : Nat := Nat.pow 2 48

/-- The words of the system for a failed access. -/
def systemReason : IO.Error → String
  | .noFileOrDirectory _ _ _ => Refusal.notFound.reason
  | .inappropriateType _ _ "Is a directory" => Refusal.isDirectory.reason
  | .inappropriateType _ _ "not a directory" => Refusal.notDirectory.reason
  | error => toString error

/-- The result of an access, or the reason for its failure. -/
def attemptAccess {α : Type} (access : IO α) : IO (Except String α) := do
  try
    return .ok (← access)
  catch error =>
    return .error (systemReason error)

/-- The files of the system. -/
def systemFiles : Files IO where
  read file := attemptAccess (IO.FS.readFile file)
  write file content := attemptAccess (IO.FS.writeFile file content)

end Covenant

open Covenant CommandLine in
/-- Perform the command line. -/
def main (arguments : List String) : IO UInt32 := do
  match Invocation.ofArguments arguments with
  | .error misuse =>
    IO.eprint misuse.message
    return 2
  | .ok invocation =>
    let ambient ← IO.getEnv "NODE_ENV"
    let outcome ← invocation.perform ampleFuel systemFiles ambient
    IO.print outcome.output
    IO.eprint outcome.notes
    match outcome.failure with
    | some failure => IO.eprintln (failure.message ++ failure.details)
    | none => pure ()
    return UInt32.ofNat outcome.code
