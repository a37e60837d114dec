import Covenant.CommandLine.Failure
import Covenant.CommandLine.Files
import Covenant.CommandLine.Invocation
import Covenant.Contract.Options
import Covenant.Interchange.Decode
import Covenant.Interchange.Encode
import Covenant.Interchange.Report
import Covenant.Machine.Session

/-!
# Performing invocations

An invocation reads its files, transforms the program, and then gives out the
result or calls a function of it.  Files are reached through an interface, so
that the same definition works on a disk and on a table of texts.

Of several failures the first counts, in this order: the arguments of the
call, the options, the program, the contracts, the run.
-/

namespace Covenant.CommandLine

open Contract (Options Settings Summary)

/-- What an invocation leaves behind. -/
structure Outcome where
  /-- The text for the standard output. -/
  output : String
  /-- The text for the standard error that reports no failure. -/
  notes : String
  failure : Option Failure
  deriving DecidableEq, Repr

/-- The outcome of an invocation that only fails. -/
def Outcome.ofFailure (failure : Failure) : Outcome :=
  ⟨"", "", some failure⟩

/-- The exit code. -/
def Outcome.code (outcome : Outcome) : Nat :=
  (outcome.failure.map Failure.code).getD 0

/-- The active environment: the one asked for, else the one that the surroundings name. -/
def activeEnvironment (asked ambient : Option String) : String :=
  match asked, ambient with
  | some name, _ => name
  | none, some name => if name.isEmpty then Contract.usualEnvironment else name
  | none, none => Contract.usualEnvironment

/-- Options with what the command line adds to them. -/
def Request.amend (request : Request) (options : Options) : Options :=
  { options with
    strip := options.strip || request.strip
    extract := options.extract || request.extract
    keptLabel := request.keptLabel.or options.keptLabel }

section

variable {m : Type → Type} [Monad m]

/-- The text of a file. -/
def Files.text (files : Files m) (file : String) : ExceptT Failure m String := do
  match ← files.read file with
  | .ok text => pure text
  | .error reason => throw (.unreadable file reason)

/-- The options in a file. -/
def Files.options (files : Files m) (file : String) : ExceptT Failure m Options := do
  match Options.ofDocument? (← files.text file) with
  | some options => pure options
  | none => throw (.invalidOptions file)

/-- The program in a file. -/
def Files.program (files : Files m) (file : String) : ExceptT Failure m Program := do
  match Program.ofDocument? (← files.text file) with
  | some program => pure program
  | none => throw (.invalidProgram file)

/-- Read a program and transform it. -/
def Request.transformed
    (files : Files m)
    (ambient : Option String)
    (request : Request) : ExceptT Failure m (Program × Summary) := do
  let options ←
    match request.options with
    | some file => files.options file
    | none => pure Options.usual
  let settings := (request.amend options).resolve (activeEnvironment request.environment ambient)
  let program ← files.program request.input
  match program.transform settings with
  | .ok result => pure result
  | .error error => throw (.rejected error)

/-- The arguments of a call. -/
def callArguments (text : String) : Except Failure (List Json) :=
  match Json.read? Json.nestingLimit text with
  | none => .error .invalidArguments
  | some (.array arguments) => .ok arguments
  | some _ => .error .argumentsNotArray

/-- Load a program, call a function of it, and tell what was written and what came of it. -/
def callOutcome
    (fuel : Nat)
    (program : Program)
    (function : String)
    (arguments : List Json) : Outcome :=
  let lines := fun (machine : Machine) =>
    String.join (machine.output.toList.map fun line => line ++ "\n")
  match (program.run fuel function arguments).run (Machine.fresh Machine.usualDepthLimit) with
  | .ok value machine =>
    ⟨lines machine ++ (value.toJson machine.store).pretty ++ "\n", "", none⟩
  | .error (.conflict _) _ => .ofFailure .brokenOff
  | .error stop machine => ⟨lines machine, "", some (.ofStop machine.store stop)⟩

/-- Give out a transformed program. -/
def deliver
    (files : Files m)
    (form : Form)
    (output : Option String)
    (summary : Bool)
    (result : Program × Summary) : ExceptT Failure m Outcome := do
  let text :=
    match form with
    | .source => result.1.source
    | .document => result.1.toDocument
  let notes := if summary then result.2.toJson.pretty ++ "\n" else ""
  match output with
  | none => pure ⟨text, notes, none⟩
  | some file =>
    match ← files.write file text with
    | .ok _ => pure ⟨"", notes, none⟩
    | .error reason => throw (.unwritable file reason)

/-- What an invocation comes to, if it does not fail before its last step. -/
def Invocation.attempt
    (fuel : Nat)
    (files : Files m)
    (ambient : Option String) : Invocation → ExceptT Failure m Outcome
  | .help => pure ⟨helpText, "", none⟩
  | .transform request form output summary => do
    let result ← request.transformed files ambient
    deliver files form output summary result
  | .run request function arguments => do
    let arguments ← callArguments arguments
    let result ← request.transformed files ambient
    pure (callOutcome fuel result.1 function arguments)

/-- Perform an invocation, given the environment that the surroundings name. -/
def Invocation.perform
    (fuel : Nat)
    (files : Files m)
    (ambient : Option String)
    (invocation : Invocation) : m Outcome := do
  match ← (invocation.attempt fuel files ambient).run with
  | .ok outcome => pure outcome
  | .error failure => pure (.ofFailure failure)

end

end Covenant.CommandLine
