/-!
# Quoted text

A string literal is written between single quotes, or between double quotes
if the text holds a single quote and no double quote.  The closing quote, the
backslash and control characters are escaped, so that the written form ends
at its first unescaped quote and spans one line.
-/

namespace Covenant.Text

/-- Whether a character is in the general category `Cc`. -/
def isControl (character : Char) : Bool :=
  character.toNat < 0x20 || (0x7f ≤ character.toNat && character.toNat ≤ 0x9f)

/-- A lower-case hexadecimal digit. -/
def hexDigit (digit : Nat) : Char :=
  "0123456789abcdef".toList.getD digit '0'

/-- Four hexadecimal digits of a number below `2 ^ 16`. -/
def hexDigits (number : Nat) : List Char :=
  [hexDigit (number / 0x1000 % 0x10), hexDigit (number / 0x100 % 0x10),
    hexDigit (number / 0x10 % 0x10), hexDigit (number % 0x10)]

/-- The quote character for a text. -/
def quoteMark (text : List Char) : Char :=
  if text.contains '\'' && !text.contains '"' then '"' else '\''

/-- One character between quotes of a given kind. -/
def escape (mark character : Char) : List Char :=
  if character = '\\' then ['\\', '\\']
  else if character = '\n' then ['\\', 'n']
  else if character = '\r' then ['\\', 'r']
  else if character = '\t' then ['\\', 't']
  else if character = mark then ['\\', character]
  else if isControl character then '\\' :: 'u' :: hexDigits character.toNat
  else [character]

/-- The quoted form of a sequence of characters. -/
def quoteChars (text : List Char) : List Char :=
  let mark := quoteMark text
  mark :: (text.flatMap (escape mark) ++ [mark])

/-- The quoted form of a text. -/
def quote (text : String) : String :=
  String.ofList (quoteChars text.toList)

end Covenant.Text
