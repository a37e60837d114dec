/-!
# UTF-16 code units

Strings of the script language are compared by their UTF-16 code units, not
by code points: a character beyond the basic plane is a pair of surrogates
and sorts before the upper end of that plane.
-/

namespace Covenant.Text

/-- The UTF-16 code units of one character. -/
def codeUnits (character : Char) : List Nat :=
  let code := character.toNat
  if code < 0x10000 then
    [code]
  else
    [0xd800 + (code - 0x10000) / 0x400, 0xdc00 + (code - 0x10000) % 0x400]

/-- The UTF-16 code units of a text. -/
def codeUnitsOf (text : String) : List Nat :=
  text.toList.flatMap codeUnits

/-- Lexicographic comparison of number sequences. -/
def compareUnits : List Nat → List Nat → Ordering
  | [], [] => .eq
  | [], _ :: _ => .lt
  | _ :: _, [] => .gt
  | left :: lefts, right :: rights =>
    (compare left right).then (compareUnits lefts rights)

/-- The order of two texts by code units. -/
def compareText (left right : String) : Ordering :=
  compareUnits (codeUnitsOf left) (codeUnitsOf right)

end Covenant.Text
