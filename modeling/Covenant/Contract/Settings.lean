import Covenant.Contract.Kind
import Covenant.Entries

/-!
# Settings of a transformation

Options say which labels are contract keywords, which labels mark code for
one environment, and what is to be removed.  Resolved against the name of the
active environment they become settings, which is all that a transformation
looks at.
-/

namespace Covenant.Contract

/-- The tokens that have a meaning in contracts. -/
structure Tokens where
  assertion : String
  precondition : String
  postcondition : String
  invariant : String
  /-- The name under which postconditions see the result. -/
  result : String
  /-- The marker that refers to values on entry. -/
  old : String
  deriving DecidableEq, Repr

/-- The usual tokens. -/
def Tokens.usual : Tokens where
  assertion := "assert"
  precondition := "pre"
  postcondition := "post"
  invariant := "invariant"
  result := "it"
  old := "old"

/-- The kind of contract that a label states; of equal tokens the first kind counts. -/
def Tokens.kindOf? (tokens : Tokens) (label : String) : Option Kind :=
  if label = tokens.precondition then some .precondition
  else if label = tokens.postcondition then some .postcondition
  else if label = tokens.invariant then some .invariant
  else if label = tokens.assertion then some .assertion
  else none

/-- What a program's user may choose. -/
structure Options where
  tokens : Tokens
  /-- Labels of environments, besides the usual ones or instead of them. -/
  environmentLabels : List (String × String)
  /-- The label to be kept in extraction, whichever environment is active. -/
  keptLabel : Option String
  /-- Whether all contracts are removed. -/
  strip : Bool
  /-- Environments with the choice whether all contracts are removed in them. -/
  stripIn : List (String × Bool)
  /-- Whether code for other environments is removed. -/
  extract : Bool
  deriving DecidableEq, Repr

/-- The options of a user who chooses nothing. -/
def Options.usual : Options where
  tokens := Tokens.usual
  environmentLabels := []
  keptLabel := none
  strip := false
  stripIn := []
  extract := false

/-- The environment that is active if none is named. -/
def usualEnvironment : String := "development"

/-- The usual labels of environments. -/
def usualEnvironmentLabels : List (String × String) :=
  [("development", "dev"), ("test", "test"), ("production", "prod")]

/-- Options resolved against the active environment. -/
structure Settings where
  tokens : Tokens
  /-- The labels that mark code for an environment. -/
  environmentLabels : List String
  /-- The name of the active environment. -/
  environment : String
  /-- The one environment label that extraction keeps. -/
  retainedLabel : Option String
  /-- Whether contracts are removed. -/
  stripsContracts : Bool
  /-- Whether code for other environments is removed. -/
  extractsEnvironment : Bool
  deriving DecidableEq, Repr

/-- Resolve options against the active environment. -/
def Options.resolve (options : Options) (environment : String) : Settings :=
  let labels :=
    options.environmentLabels.foldl (fun labels entry => Entries.put entry.1 entry.2 labels)
      usualEnvironmentLabels
  { tokens := options.tokens
    environmentLabels := labels.map (·.2)
    environment := environment
    retainedLabel := options.keptLabel.or (labels.lookup environment)
    stripsContracts := options.strip || (options.stripIn.lookup environment).getD false
    extractsEnvironment := options.extract }

/-- What a label means. -/
inductive LabelRole where
  /-- It states a contract. -/
  | contract (kind : Kind)
  /-- It marks code for an environment. -/
  | environment
  /-- It is an ordinary label. -/
  | other
  deriving DecidableEq, Repr

/-- The role of a label; contract keywords come before environments. -/
def Settings.roleOf (settings : Settings) (label : String) : LabelRole :=
  match settings.tokens.kindOf? label with
  | some kind => .contract kind
  | none => if settings.environmentLabels.contains label then .environment else .other

/-- What becomes of code under an environment label. -/
inductive EnvironmentAction where
  /-- It stays with its label. -/
  | keep
  /-- It is removed. -/
  | remove
  /-- It stays without its label. -/
  | inline
  deriving DecidableEq, Repr

/-- The fate of code under an environment label. -/
def Settings.actionFor (settings : Settings) (label : String) : EnvironmentAction :=
  if !settings.extractsEnvironment then .keep
  else if settings.retainedLabel = some label then .inline
  else .remove

end Covenant.Contract
