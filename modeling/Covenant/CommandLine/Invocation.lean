/-!
# Invocations

What a user asks for on the command line.  An invocation names one of two
commands and gives its options: a long name with its value behind it or after
an equals sign, or a one-letter name with its value behind it or attached to
it.  An option stands at most once; a value that begins with a dash must be
attached.
-/

namespace Covenant.CommandLine

/-- The form in which a transformed program is given out. -/
inductive Form where
  /-- As source text. -/
  | source
  /-- As an interchange document. -/
  | document
  deriving DecidableEq, Repr

/-- What both commands are told about the program and its contracts. -/
structure Request where
  /-- The file that holds the program. -/
  input : String
  /-- The file that holds the options of the transformation. -/
  options : Option String
  /-- The name of the active environment. -/
  environment : Option String
  /-- Whether all contracts are to be removed. -/
  strip : Bool
  /-- Whether code for other environments is to be removed. -/
  extract : Bool
  /-- The environment label that extraction keeps. -/
  keptLabel : Option String
  deriving DecidableEq, Repr

/-- What a user asks for. -/
inductive Invocation where
  /-- To be told how the program is used. -/
  | help
  /-- To transform a program and give out the result. -/
  | transform (request : Request) (form : Form) (output : Option String) (summary : Bool)
  /-- To transform a program and call one of its functions. -/
  | run (request : Request) (function : String) (arguments : String)
  deriving DecidableEq, Repr

/-- Why a command line asks for nothing that can be done. -/
inductive UsageError where
  /-- No command is named. -/
  | noCommand
  /-- The command is unknown. -/
  | unknownCommand (name : String)
  /-- An argument belongs to no option. -/
  | unexpected (argument : String)
  /-- An option stands without its value. -/
  | noValue (option : String)
  /-- A value is attached to an option that takes none. -/
  | needlessValue (option : String)
  /-- An option stands more than once. -/
  | repeated (option : String)
  /-- An option does not take the value that it is given. -/
  | invalidValue (option value : String)
  /-- An option that is required is missing. -/
  | missing (option : String)
  deriving DecidableEq, Repr

/-- How the program is used. -/
def helpText : String :=
  "Design-by-contract source transformer\n\nUsage: pact <COMMAND>\n\nCommands:\n" ++
    "  transform  Transform a unit and print the result\n" ++
    "  run        Transform a unit, then call one of its top-level functions\n" ++
    "  help       Print this message or the help of the given subcommand(s)\n\n" ++
    "Options:\n  -h, --help  Print help\n"

namespace UsageError

/-- The text that reports a misuse. -/
def message : UsageError → String
  | noCommand => helpText
  | unknownCommand name => "error: unrecognized subcommand '" ++ name ++ "'\n"
  | unexpected argument => "error: unexpected argument '" ++ argument ++ "' found\n"
  | noValue option => "error: a value is required for '--" ++ option ++ "'\n"
  | needlessValue option => "error: no value is allowed for '--" ++ option ++ "'\n"
  | repeated option => "error: '--" ++ option ++ "' cannot be used multiple times\n"
  | invalidValue option value =>
    "error: invalid value '" ++ value ++ "' for '--" ++ option ++ "'\n"
  | missing option => "error: '--" ++ option ++ "' is required\n"

end UsageError

/-- An option that a command knows. -/
structure Choice where
  name : String
  /-- The one-letter name, if there is one. -/
  letter : Option Char
  takesValue : Bool
  deriving DecidableEq, Repr

/-- The options of both commands. -/
def sharedChoices : List Choice :=
  [⟨"input", some 'i', true⟩, ⟨"config", some 'c', true⟩, ⟨"env", some 'e', true⟩,
    ⟨"strip", none, false⟩, ⟨"env-strip", none, false⟩, ⟨"strip-unless", none, true⟩]

/-- The options of a transformation. -/
def transformChoices : List Choice :=
  sharedChoices ++
    [⟨"emit", none, true⟩, ⟨"output", some 'o', true⟩, ⟨"summary", none, false⟩]

/-- The options of a run. -/
def runChoices : List Choice :=
  sharedChoices ++ [⟨"function", some 'f', true⟩, ⟨"args", some 'a', true⟩]

/-- An argument that names an option: the option and the value attached to it. -/
def readName? (choices : List Choice) (argument : List Char) :
    Option (Choice × Option (List Char)) :=
  match argument with
  | '-' :: '-' :: text =>
    let name := text.takeWhile (· != '=')
    let attached := (text.dropWhile (· != '=')).tail?
    (choices.find? fun choice => choice.name.toList == name).map fun choice =>
      (choice, attached)
  | '-' :: letter :: text =>
    let attached :=
      match text with
      | [] => none
      | '=' :: value => some value
      | value => some value
    (choices.find? fun choice => choice.letter == some letter).map fun choice =>
      (choice, attached)
  | _ => none

/-- Whether an argument can be the value of the option before it. -/
def isValue (argument : String) : Bool :=
  match argument.toList with
  | ['-'] => true
  | '-' :: _ => false
  | _ => true

/-- The options that arguments name, each with its value; one that takes none has an empty one. -/
def readOptions (choices : List Choice) :
    List String → Except UsageError (List (String × String))
  | [] => .ok []
  | ["--"] => .ok []
  | argument :: rest =>
    match readName? choices argument.toList with
    | none => .error (.unexpected argument)
    | some (choice, attached) =>
      match choice.takesValue, attached with
      | false, some _ => .error (.needlessValue choice.name)
      | false, none => (readOptions choices rest).map ((choice.name, "") :: ·)
      | true, some value =>
        (readOptions choices rest).map ((choice.name, String.ofList value) :: ·)
      | true, none =>
        match rest with
        | [] => .error (.noValue choice.name)
        | value :: rest =>
          if isValue value then
            (readOptions choices rest).map ((choice.name, value) :: ·)
          else
            .error (.noValue choice.name)

/-- The value of an option, which may stand once. -/
def optionValue (given : List (String × String)) (name : String) :
    Except UsageError (Option String) :=
  match (given.filter fun option => option.1 = name).map Prod.snd with
  | [] => .ok none
  | [value] => .ok (some value)
  | _ => .error (.repeated name)

/-- Whether an option without a value is given. -/
def isGiven (given : List (String × String)) (name : String) : Except UsageError Bool :=
  (optionValue given name).map Option.isSome

/-- The value of an option that must be given. -/
def requiredValue (given : List (String × String)) (name : String) :
    Except UsageError String := do
  match ← optionValue given name with
  | some value => pure value
  | none => throw (.missing name)

/-- The name of a file, which is not empty. -/
def fileName (option value : String) : Except UsageError String :=
  if value.isEmpty then .error (.invalidValue option value) else .ok value

/-- The name of a file that an option may give. -/
def optionalFile (given : List (String × String)) (name : String) :
    Except UsageError (Option String) := do
  match ← optionValue given name with
  | some value => return some (← fileName name value)
  | none => pure none

/-- What both commands are told. -/
def readRequest (given : List (String × String)) : Except UsageError Request := do
  let input ← fileName "input" (← requiredValue given "input")
  let options ← optionalFile given "config"
  let environment ← optionValue given "env"
  let strip ← isGiven given "strip"
  let extract ← isGiven given "env-strip"
  let keptLabel ← optionValue given "strip-unless"
  pure ⟨input, options, environment, strip, extract, keptLabel⟩

/-- The form that is asked for, source text if none is. -/
def readForm (given : List (String × String)) : Except UsageError Form := do
  match ← optionValue given "emit" with
  | none | some "source" => pure .source
  | some "json" => pure .document
  | some other => throw (.invalidValue "emit" other)

/-- The invocation that a command line states. -/
def Invocation.ofArguments : List String → Except UsageError Invocation
  | [] | ["--"] => .error .noCommand
  | "help" :: _ | "-h" :: _ | "--help" :: _ => .ok .help
  | "transform" :: arguments => do
    let given ← readOptions transformChoices arguments
    let request ← readRequest given
    let form ← readForm given
    let output ← optionalFile given "output"
    let summary ← isGiven given "summary"
    pure (.transform request form output summary)
  | "run" :: arguments => do
    let given ← readOptions runChoices arguments
    let request ← readRequest given
    let function ← requiredValue given "function"
    let values ← optionValue given "args"
    pure (.run request function (values.getD "[]"))
  | name :: _ => .error (.unknownCommand name)

end Covenant.CommandLine
