import Covenant.Number.Shortest
import Covenant.Text.Blank

/-!
# Numbers as text

The script language writes integers below `10 ^ 21` with all their digits
and every other number with the fewest digits that read back, always in
positional notation.  It reads decimal text with blanks around it, whole
hexadecimal text, and the infinities; anything else is NaN.

The inspection form differs from the language's own text on the sign of
zero, on infinities, and in that it never writes more digits than needed.
-/

namespace Covenant.Number

open Covenant.Text

/-- A minus sign where the number is negative. -/
def signed (negative : Bool) (digits : List Char) : String :=
  String.ofList (if negative then '-' :: digits else digits)

/-- The positional text of a finite number with the fewest digits that read back. -/
def shortestText (value : Dyadic) : String :=
  if value.mantissa = 0 then
    signed value.negative ['0']
  else
    signed value.negative (Decimal.shortest .up value.mantissa value.exponent).positional

/-- A number as the script language writes it. -/
def toText (number : Float) : String :=
  match dyadic? number with
  | none =>
    if number.isNaN then "NaN"
    else if isNegative number then "-Infinity"
    else "Infinity"
  | some value =>
    if value.mantissa = 0 then
      "0"
    else if value.isWhole && decide (value.wholePart < Nat.pow 10 21) then
      signed value.negative (Nat.toDigits 10 value.wholePart)
    else
      shortestText value

/-- A number as inspection shows it: the sign of zero is kept. -/
def inspect (number : Float) : String :=
  match dyadic? number with
  | none =>
    if number.isNaN then "NaN"
    else if isNegative number then "-inf"
    else "inf"
  | some value => shortestText value

/-- The value of a hexadecimal digit. -/
def hexValue? (character : Char) : Option Nat :=
  if character.isDigit then some (character.toNat - '0'.toNat)
  else if 'a' ≤ character ∧ character ≤ 'f' then some (character.toNat - 'a'.toNat + 10)
  else if 'A' ≤ character ∧ character ≤ 'F' then some (character.toNat - 'A'.toNat + 10)
  else none

/-- Fold hexadecimal digits into an integer. -/
def hexInteger? : (read : Nat) → List Char → Option Nat
  | read, [] => some read
  | read, character :: rest =>
    match hexValue? character with
    | some digit => hexInteger? (16 * read + digit) rest
    | none => none

/-- The integer of hexadecimal digits, a plus sign allowed before them. -/
def hexText? (text : List Char) : Option Nat :=
  match text with
  | '+' :: rest => if rest.isEmpty then none else hexInteger? 0 rest
  | _ => if text.isEmpty then none else hexInteger? 0 text

/-- Fold decimal digits into an integer. -/
def decimalInteger (digits : List Char) : Nat :=
  digits.foldl (fun read digit => 10 * read + (digit.toNat - '0'.toNat)) 0

/-- The integer after an exponent mark: an optional sign and at least one digit. -/
def exponentText? (text : List Char) : Option Int :=
  let (negative, digits) :=
    match text with
    | '-' :: rest => (true, rest)
    | '+' :: rest => (false, rest)
    | _ => (false, text)
  if digits.isEmpty || !digits.all Char.isDigit then
    none
  else
    some (if negative then -(decimalInteger digits : Int) else decimalInteger digits)

/--
The double nearest to a decimal.  Decimals far outside the range of doubles
are decided by their leading exponent alone.
-/
def ofDecimal (decimal : Decimal) : Float :=
  if decimal.significand = 0 then
    0.0
  else if 400 < decimal.leadingExponent then
    infinity
  else if decimal.leadingExponent < -400 then
    0.0
  else if 0 ≤ decimal.exponent then
    Float.ofScientific decimal.significand false decimal.exponent.toNat
  else
    Float.ofScientific decimal.significand true (-decimal.exponent).toNat

/-- Digits with an optional point and an optional exponent, without a sign. -/
def unsignedDecimal? (text : List Char) : Option Decimal :=
  let whole := text.takeWhile Char.isDigit
  let afterWhole := text.dropWhile Char.isDigit
  let (fraction, rest) :=
    match afterWhole with
    | '.' :: tail => (tail.takeWhile Char.isDigit, tail.dropWhile Char.isDigit)
    | _ => ([], afterWhole)
  let significand := decimalInteger (whole ++ fraction)
  if whole.isEmpty && fraction.isEmpty then
    none
  else
    match rest with
    | [] => some ⟨significand, -(fraction.length : Int)⟩
    | mark :: tail =>
      if mark = 'e' ∨ mark = 'E' then
        (exponentText? tail).map fun exponent => ⟨significand, exponent - fraction.length⟩
      else
        none

/-- The number of decimal text with an optional sign. -/
def decimalText? (text : List Char) : Option Float :=
  match text with
  | '-' :: rest => (unsignedDecimal? rest).map fun decimal => -ofDecimal decimal
  | '+' :: rest => (unsignedDecimal? rest).map ofDecimal
  | _ => (unsignedDecimal? text).map ofDecimal

/-- The number of a text without surrounding blanks. -/
def ofTrimmed (text : List Char) : Float :=
  if text = "Infinity".toList ∨ text = "+Infinity".toList then
    infinity
  else if text = "-Infinity".toList then
    -infinity
  else
    match text with
    | [] => 0.0
    | '0' :: 'x' :: digits | '0' :: 'X' :: digits =>
      match hexText? digits with
      | some integer => if integer < Nat.pow 2 64 then Float.ofNat integer else nan
      | none => nan
    | _ => (decimalText? text).getD nan

/-- The number that the script language reads from a text. -/
def ofText (text : String) : Float :=
  ofTrimmed (trimBlank text.toList)

end Covenant.Number
