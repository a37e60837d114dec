/-!
# Identifiers

Which texts are identifier names, and how arbitrary text is turned into one:
every character that cannot stand in a name is a word break, and the words
are joined with their first letters raised.
-/

namespace Covenant.Text

/-- Whether a character may stand anywhere in an identifier name. -/
def isWordChar (character : Char) : Bool :=
  character.isAlphanum || character == '$' || character == '_'

/-- Whether a character may open an identifier name. -/
def isWordStart (character : Char) : Bool :=
  character.isAlpha || character == '_' || character == '$'

/-- Whether a text is an identifier name. -/
def isIdentifierName (text : String) : Bool :=
  match text.toList with
  | [] => false
  | first :: rest => isWordStart first && rest.all isWordChar

/-- The words after the first character, raised after every break. -/
def joinWords : (afterBreak : Bool) → List Char → List Char
  | _, [] => []
  | afterBreak, character :: rest =>
    if isWordChar character then
      (if afterBreak then character.toUpper else character) :: joinWords false rest
    else
      joinWords true rest

/-- The characters of a text joined to one identifier, leading digits dropped. -/
def identifierChars : List Char → List Char
  | [] => []
  | character :: rest =>
    if isWordChar character && !character.isDigit then
      character :: joinWords false rest
    else
      identifierChars rest

/-- A text turned into an identifier; empty if nothing of it can be used. -/
def toIdentifier (text : String) : String :=
  String.ofList (identifierChars text.toList)

end Covenant.Text
