import Covenant.Json.Numeral
import Covenant.Text.Quoted

/-!
# Writing the interchange notation

Values are written in a compact form without spaces and in a form with one
entry a line.  Texts escape only what the notation demands: the quote, the
backslash, and characters below the space.
-/

namespace Covenant.Json

/-- One character of a text as it is written. -/
def writeChar (character : Char) : List Char :=
  match character with
  | '"' => ['\\', '"']
  | '\\' => ['\\', '\\']
  | '\x08' => ['\\', 'b']
  | '\x0c' => ['\\', 'f']
  | '\n' => ['\\', 'n']
  | '\r' => ['\\', 'r']
  | '\t' => ['\\', 't']
  | _ =>
    if character.toNat < 0x20 then
      '\\' :: 'u' :: Text.hexDigits character.toNat
    else
      [character]

/-- A text between quotes. -/
def writeText (text : String) : String :=
  String.ofList ('"' :: (text.toList.flatMap writeChar ++ ['"']))

mutual

/-- A value without spaces. -/
def compact : Json → String
  | null => "null"
  | bool true => "true"
  | bool false => "false"
  | integer value => integerText value
  | number value => numberText value
  | string value => writeText value
  | array elements => "[" ++ compactElements elements ++ "]"
  | object entries => "\x7b" ++ compactEntries entries ++ "\x7d"

/-- The elements of an array, separated by commas. -/
def compactElements : List Json → String
  | [] => ""
  | [element] => element.compact
  | element :: rest => element.compact ++ "," ++ compactElements rest

/-- The entries of an object, separated by commas. -/
def compactEntries : List (String × Json) → String
  | [] => ""
  | [(key, value)] => writeText key ++ ":" ++ value.compact
  | (key, value) :: rest =>
    writeText key ++ ":" ++ value.compact ++ "," ++ compactEntries rest

end

/-- A line break followed by the indentation of a nesting level. -/
def newline (level : Nat) : String :=
  String.ofList ('\n' :: List.replicate (2 * level) ' ')

mutual

/-- A value with one element or entry a line, at a nesting level. -/
def prettyAt (level : Nat) : Json → String
  | array [] => "[]"
  | array elements =>
    "[" ++ prettyElements (level + 1) elements ++ newline level ++ "]"
  | object [] => "\x7b\x7d"
  | object entries =>
    "\x7b" ++ prettyEntries (level + 1) entries ++ newline level ++ "\x7d"
  | null => "null"
  | bool true => "true"
  | bool false => "false"
  | integer value => integerText value
  | number value => numberText value
  | string value => writeText value

/-- The elements of an array, each on a line of its own. -/
def prettyElements (level : Nat) : List Json → String
  | [] => ""
  | [element] => newline level ++ prettyAt level element
  | element :: rest =>
    newline level ++ prettyAt level element ++ "," ++ prettyElements level rest

/-- The entries of an object, each on a line of its own. -/
def prettyEntries (level : Nat) : List (String × Json) → String
  | [] => ""
  | [(key, value)] => newline level ++ writeText key ++ ": " ++ prettyAt level value
  | (key, value) :: rest =>
    newline level ++ writeText key ++ ": " ++ prettyAt level value ++ "," ++
      prettyEntries level rest

end

/-- A value with one element or entry a line. -/
def pretty (value : Json) : String :=
  prettyAt 0 value

end Covenant.Json
