import Covenant.Machine.Conversion
import Covenant.Text.Printable

/-!
# Inspection of values

A form of values that tells their kinds apart and shows what arrays and
objects hold, for people who follow a run.  Scopes are shown by the names in
their innermost frame.
-/

namespace Covenant.Machine

/-- A number in hexadecimal digits without leading zeros. -/
def hexNumeral (number : Nat) : List Char :=
  Nat.toDigits 16 number

/-- One character of an inspected text. -/
def inspectChar (character : Char) : List Char :=
  match character with
  | '\x00' => ['\\', '0']
  | '\t' => ['\\', 't']
  | '\n' => ['\\', 'n']
  | '\r' => ['\\', 'r']
  | '"' => ['\\', '"']
  | '\\' => ['\\', '\\']
  | _ =>
    if Text.isPrintable character then
      [character]
    else
      "\\u\x7b".toList ++ hexNumeral character.toNat ++ ['\x7d']

/-- A text between double quotes. -/
def inspectText (text : String) : String :=
  String.ofList ('"' :: (text.toList.flatMap inspectChar ++ ['"']))

/-- Parts between brackets. -/
def inspectList (parts : List String) : String :=
  "[" ++ String.intercalate ", " parts ++ "]"

/-- A primitive with the name of its kind. -/
def inspectLiteral : Literal → String
  | .undefined => "Undefined"
  | .null => "Null"
  | .bool value => "Bool(" ++ (if value then "true" else "false") ++ ")"
  | .number value => "Number(" ++ Number.inspect value ++ ")"
  | .string value => "String(" ++ inspectText value ++ ")"

/-- A closure by the name and the parameters of its function. -/
def inspectFunction (name : Option String) (parameters : List String) : String :=
  let nameText :=
    match name with
    | some name => "Some(" ++ inspectText name ++ ")"
    | none => "None"
  "Closure \x7b name: " ++ nameText ++ ", params: " ++
    inspectList (parameters.map inspectText) ++ ", .. \x7d"

/-- A value with the kinds of all that it holds, followed to a given depth. -/
def Value.inspectWithin (store : Store) : (depth : Nat) → Value → String
  | _, .primitive literal => inspectLiteral literal
  | _, .builtin .makeError => "ErrorConstructor"
  | _, .builtin .writeLine => "ConsoleLog"
  | _, .closure address =>
    match store.closure? address with
    | some found => inspectFunction found.function.name found.function.parameters
    | none => inspectFunction none []
  | 0, _ => ""
  | depth + 1, .array address =>
    inspectList ((store.elements address).toList.map (inspectWithin store depth))
  | depth + 1, .object address =>
    let entries := (store.object address).properties.map fun (key, value) =>
      inspectText key ++ ": " ++ inspectWithin store depth value
    "\x7b" ++ String.intercalate ", " entries ++ "\x7d"

/-- A value with the kinds of all that it holds. -/
def Value.inspect (store : Store) (value : Value) : String :=
  value.inspectWithin store store.depthBound

/-- The names of the innermost frame in ascending order, and whether there is another frame. -/
def Store.inspectScope (store : Store) (scope : Scope) : String :=
  let names :=
    match scope with
    | [] => []
    | address :: _ => (Entries.sort (store.frame address)).map Prod.fst
  let hasParent := if 1 < scope.length then "true" else "false"
  "Env \x7b bindings: " ++ inspectList (names.map inspectText) ++ ", has_parent: " ++
    hasParent ++ " \x7d"

end Covenant.Machine
