import Covenant.Contract.Settings
import Covenant.Interchange.Decode

/-!
# Reading options

Options are read from the interchange notation.  Every part may be missing,
parts of unknown names are passed over, and a part that is there must have
the right shape.  Two tokens go by a short and a long name; giving both is
refused.
-/

namespace Covenant.Contract

open Json (part? parts? defaulted? optional?)

/-- Read a part that goes by two names. -/
def readAlias? (first second : String) (usual : String) (entries : List (String × Json)) :
    Option String :=
  match part? first entries, part? second entries with
  | some none, some none => some usual
  | some (some value), some none | some none, some (some value) => value.toText?
  | _, _ => none

/-- Read the tokens. -/
def Tokens.ofJson? (value : Json) : Option Tokens := do
  let names := ["assert", "precondition", "postcondition", "invariant", "return", "old"]
  let entries ← parts? names 0 value
  let assertion ← defaulted? "assert" usual.assertion Json.toText? entries
  let precondition ← readAlias? "precondition" "pre" usual.precondition entries
  let postcondition ← readAlias? "postcondition" "post" usual.postcondition entries
  let invariant ← defaulted? "invariant" usual.invariant Json.toText? entries
  let result ← defaulted? "return" usual.result Json.toText? entries
  let old ← defaulted? "old" usual.old Json.toText? entries
  some ⟨assertion, precondition, postcondition, invariant, result, old⟩

/-- Read an object whose keys are free, the last of equal keys at the place of the first. -/
def readTable? {α : Type} (read : Json → Option α) (value : Json) : Option (List (String × α)) := do
  let entries ← value.toEntries?
  let values ← entries.mapM fun (key, content) => (read content).map fun result => (key, result)
  some (Entries.ofList values)

/-- Read what is chosen for one environment. -/
def readStrip? (value : Json) : Option Bool := do
  let entries ← parts? ["strip"] 0 value
  defaulted? "strip" false Json.toBool? entries

/-- Read options. -/
def Options.ofJson? (value : Json) : Option Options := do
  let names := ["names", "envNames", "stripUnless", "strip", "env", "envStrip"]
  let entries ← parts? names 0 value
  let tokens ← defaulted? "names" Tokens.usual Tokens.ofJson? entries
  let environmentLabels ← defaulted? "envNames" [] (readTable? Json.toText?) entries
  let keptLabel ← optional? "stripUnless" Json.toText? entries
  let strip ← defaulted? "strip" false Json.toBool? entries
  let stripIn ← defaulted? "env" [] (readTable? readStrip?) entries
  let extract ← defaulted? "envStrip" false Json.toBool? entries
  some ⟨tokens, environmentLabels, keptLabel, strip, stripIn, extract⟩

/-- Read the document of options. -/
def Options.ofDocument? (text : String) : Option Options :=
  (Json.read? Json.nestingLimit text).bind Options.ofJson?

end Covenant.Contract
