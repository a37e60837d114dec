import Covenant.Json.Numeral

/-!
# Reading the interchange notation

A text is read token by token.  The containers that are open stand on a
stack, so that the nesting limit is a bound on the height of that stack, and
every token moves the reader from one state to the next: no token is looked
at twice.  The notation is strict: no comments, no trailing commas, nothing
after the value.
-/

namespace Covenant.Json

/-- A token of the notation. -/
inductive Token where
  | openArray
  | closeArray
  | openObject
  | closeObject
  | comma
  | colon
  /-- A text; it may be a value or a key. -/
  | text (value : String)
  /-- A value that is neither a text nor a container. -/
  | scalar (value : Json)

/-- The character of an escape with one letter. -/
def escapedChar? : Char → Option Char
  | '"' => some '"'
  | '\\' => some '\\'
  | '/' => some '/'
  | 'b' => some '\x08'
  | 'f' => some '\x0c'
  | 'n' => some '\n'
  | 'r' => some '\r'
  | 't' => some '\t'
  | _ => none

/-- The code unit of four hexadecimal digits. -/
def codeUnit? (first second third fourth : Char) : Option Nat :=
  Number.hexInteger? 0 [first, second, third, fourth]

/--
Read the rest of a text after its opening quote.  Surrogates must come in
pairs, and control characters must be escaped.
-/
def readText? (read : List Char) : List Char → Option (String × List Char)
  | [] => none
  | '"' :: rest => some (String.ofList read.reverse, rest)
  | '\\' :: 'u' :: first :: second :: third :: fourth :: rest =>
    match codeUnit? first second third fourth with
    | none => none
    | some unit =>
      if 0xd800 ≤ unit ∧ unit < 0xdc00 then
        match rest with
        | '\\' :: 'u' :: first :: second :: third :: fourth :: rest =>
          match codeUnit? first second third fourth with
          | none => none
          | some low =>
            if 0xdc00 ≤ low ∧ low < 0xe000 then
              let code := 0x10000 + (unit - 0xd800) * 0x400 + (low - 0xdc00)
              readText? (Char.ofNat code :: read) rest
            else
              none
        | _ => none
      else if 0xdc00 ≤ unit ∧ unit < 0xe000 then
        none
      else
        readText? (Char.ofNat unit :: read) rest
  | '\\' :: mark :: rest =>
    match escapedChar? mark with
    | none => none
    | some character => readText? (character :: read) rest
  | character :: rest =>
    if character.toNat < 0x20 then
      none
    else
      readText? (character :: read) rest

/-- Whether a character may stand between tokens. -/
def isSpace (character : Char) : Bool :=
  character == ' ' || character == '\n' || character == '\t' || character == '\r'

/-- Read one token from the front of a text. -/
def readToken? : List Char → Option (Token × List Char)
  | '[' :: rest => some (.openArray, rest)
  | ']' :: rest => some (.closeArray, rest)
  | '\x7b' :: rest => some (.openObject, rest)
  | '\x7d' :: rest => some (.closeObject, rest)
  | ',' :: rest => some (.comma, rest)
  | ':' :: rest => some (.colon, rest)
  | '"' :: rest => (readText? [] rest).map fun (value, rest) => (.text value, rest)
  | 'n' :: 'u' :: 'l' :: 'l' :: rest => some (.scalar null, rest)
  | 't' :: 'r' :: 'u' :: 'e' :: rest => some (.scalar (bool true), rest)
  | 'f' :: 'a' :: 'l' :: 's' :: 'e' :: rest => some (.scalar (bool false), rest)
  | text => (readNumber? text).map fun (value, rest) => (.scalar value, rest)

/-- A container part way through, its contents in reverse. -/
inductive Frame where
  | array (elements : List Json)
  /-- An object whose last key has no value yet. -/
  | object (entries : List (String × Json)) (key : String)

/-- What the reader stands before; the innermost open container comes first. -/
inductive State where
  /-- A value. -/
  | value (frames : List Frame)
  /-- The first element of an array or its end. -/
  | firstElement (frames : List Frame)
  /-- A comma or the end of an array. -/
  | afterElement (elements : List Json) (frames : List Frame)
  /-- The first key of an object or its end. -/
  | firstKey (frames : List Frame)
  /-- A further key of an object. -/
  | key (entries : List (String × Json)) (frames : List Frame)
  /-- The colon after a key. -/
  | colon (entries : List (String × Json)) (key : String) (frames : List Frame)
  /-- A comma or the end of an object. -/
  | afterEntry (entries : List (String × Json)) (frames : List Frame)
  /-- The end of the text. -/
  | finished (value : Json)

/-- Hand a complete value to the innermost open container. -/
def deliver (value : Json) : List Frame → State
  | [] => .finished value
  | .array elements :: outer => .afterElement (value :: elements) outer
  | .object entries key :: outer => .afterEntry ((key, value) :: entries) outer

/-- Begin a value with its first token, with at most `limit` containers open. -/
def begin? (limit : Nat) (frames : List Frame) : Token → Option State
  | .openArray => if frames.length < limit then some (.firstElement frames) else none
  | .openObject => if frames.length < limit then some (.firstKey frames) else none
  | .text value => some (deliver (string value) frames)
  | .scalar value => some (deliver value frames)
  | _ => none

/-- The state after one token. -/
def step? (limit : Nat) : State → Token → Option State
  | .value frames, token => begin? limit frames token
  | .firstElement frames, .closeArray => some (deliver (array []) frames)
  | .firstElement frames, token => begin? limit (.array [] :: frames) token
  | .afterElement elements frames, .closeArray =>
    some (deliver (array elements.reverse) frames)
  | .afterElement elements frames, .comma => some (.value (.array elements :: frames))
  | .firstKey frames, .closeObject => some (deliver (object []) frames)
  | .firstKey frames, .text key => some (.colon [] key frames)
  | .key entries frames, .text key => some (.colon entries key frames)
  | .colon entries key frames, .colon => some (.value (.object entries key :: frames))
  | .afterEntry entries frames, .closeObject =>
    some (deliver (object entries.reverse) frames)
  | .afterEntry entries frames, .comma => some (.key entries frames)
  | _, _ => none

/-- Read a text from a state on; every round of the fuel takes one token. -/
def readFrom? (limit : Nat) : (fuel : Nat) → State → List Char → Option Json
  | 0, _, _ => none
  | fuel + 1, state, text =>
    match text.dropWhile isSpace, state with
    | [], .finished value => some value
    | [], _ => none
    | text, state =>
      match readToken? text with
      | none => none
      | some (token, rest) =>
        match step? limit state token with
        | none => none
        | some next => readFrom? limit fuel next rest

/-- Read a text that holds one value with at most `limit` nested containers. -/
def read? (limit : Nat) (text : String) : Option Json :=
  readFrom? limit (text.length + 1) (.value []) text.toList

/-- The nesting limit for documents. -/
def nestingLimit : Nat := 127

end Covenant.Json
