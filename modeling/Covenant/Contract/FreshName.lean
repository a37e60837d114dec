import Covenant.Number.Text
import Covenant.Syntax.Names
import Covenant.Text.Identifier

/-!
# Fresh names

Names for the declarations that a transformation adds.  Every fresh name
starts with an underscore and is the first in a series of a stem with
increasing numbers that does not occur in the program and has not been handed
out before.

A stem may be derived from an expression: the names and literals along its
spine are joined to one word of limited length.
-/

namespace Covenant.Contract

/-- The names that may not be handed out. -/
structure NameSupply where
  taken : List String

/-- The longest stem that is derived from an expression. -/
def maxStemLength : Nat := 20

/-- The name at a place of the series of a stem; places count from one. -/
def candidateName (stem : String) (place : Nat) : String :=
  if place ≤ 1 then "_" ++ stem else "_" ++ stem ++ Nat.repr place

/--
The first free name of a series from a place on.  A series has more free
places than there are taken names, so the fuel is never used up when it
exceeds their number.
-/
def firstFree (taken : List String) (stem : String) : (fuel : Nat) → (place : Nat) → String
  | 0, place => candidateName stem place
  | fuel + 1, place =>
    if taken.contains (candidateName stem place) then
      firstFree taken stem fuel (place + 1)
    else
      candidateName stem place

/-- A word without leading underscores and trailing digits. -/
def trimStem (word : List Char) : List Char :=
  ((word.dropWhile (· == '_')).reverse.dropWhile Char.isDigit).reverse

/-- The stem that a text gives rise to. -/
def stemOf (text : String) : String :=
  match trimStem (Text.toIdentifier text).toList with
  | [] => "ref"
  | stem => String.ofList stem

/-- The names and literals along the spine of an expression. -/
def spine : Expression → List String
  | .identifier name => [name]
  | .receiver => ["this"]
  | .literal (.string value) => [value]
  | .literal (.number value) => [Number.toText value]
  | .literal (.bool value) => [Literal.toText (.bool value)]
  | .member object name => spine object ++ [name]
  | .index object key => spine object ++ spine key
  | .call callee _ | .construct callee _ => spine callee
  | .unary _ argument | .update _ _ argument | .await argument => spine argument
  | .assign _ target _ => spine target
  | _ => []

/-- The text from which the stem of an expression is formed. -/
def stemText (expression : Expression) : String :=
  let word := (Text.toIdentifier ("-".intercalate (spine expression))).toList
  String.ofList ((word.dropWhile (· == '_')).take maxStemLength)

namespace NameSupply

/-- A supply that avoids every name of a program. -/
def ofProgram (program : Program) : NameSupply :=
  ⟨program.allNames⟩

/-- A fresh name for a text, and the supply without it. -/
def generate (supply : NameSupply) (text : String) : String × NameSupply :=
  let name := firstFree supply.taken (stemOf text) (supply.taken.length + 1) 1
  (name, ⟨name :: supply.taken⟩)

/-- A fresh name for an expression, and the supply without it. -/
def generateFor (supply : NameSupply) (expression : Expression) : String × NameSupply :=
  supply.generate (stemText expression)

end NameSupply

end Covenant.Contract
