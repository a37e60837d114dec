import Covenant.Json.Basic
import Covenant.Number.Text

/-!
# Numerals of the interchange notation

A numeral without point and exponent is an integer as long as it fits into 64
bits; any other numeral is a double.  Doubles are read from a 64-bit
significand: digits beyond it only move the decimal exponent, and the
significand is then scaled by one power of ten, so that a numeral with many
digits can differ from the nearest double in its last place.  A numeral
beyond the range of doubles is refused.

Doubles are written with the fewest digits that read back, positional from
`10 ^ -5` up to below `10 ^ 16` and scientific elsewhere, and always
recognizable as doubles by their point or exponent.
-/

namespace Covenant.Json

open Covenant.Number

/-- The largest significand that is read exactly. -/
def maxSignificand : Nat := Nat.pow 2 64 - 1

/-- Fold digits into a significand until the next one does not fit; the rest is left over. -/
def foldDigits : (significand : Nat) → List Char → Nat × List Char
  | significand, [] => (significand, [])
  | significand, digit :: rest =>
    let next := 10 * significand + (digit.toNat - '0'.toNat)
    if maxSignificand < next then
      (significand, digit :: rest)
    else
      foldDigits next rest

/-- The double of a power of ten up to `10 ^ 308`. -/
def powerOfTen (exponent : Nat) : Float :=
  Float.ofScientific 1 false exponent

/--
A significand scaled by a power of ten.  A quotient below the range of
doubles is formed in two steps and ends at zero; a product above the range is
refused.
-/
def scale? (significand : Float) (exponent : Int) : Option Float :=
  if 0 ≤ exponent then
    if exponent ≤ 308 then
      let value := significand * powerOfTen exponent.toNat
      if value.isInf then none else some value
    else if significand == 0.0 then
      some significand
    else
      none
  else if -308 ≤ exponent then
    some (significand / powerOfTen (-exponent).toNat)
  else if -616 ≤ exponent then
    some (significand / powerOfTen 308 / powerOfTen (-exponent - 308).toNat)
  else
    some 0.0

/-- The parts of a numeral without its sign, as written. -/
structure Numeral where
  /-- The digits before the point. -/
  whole : List Char
  /-- The digits after the point, if there is one. -/
  fraction? : Option (List Char)
  /-- The exponent after its mark, if there is one. -/
  exponent? : Option Int

/-- The double of a numeral without its sign. -/
def Numeral.toFloat? (numeral : Numeral) : Option Float :=
  let (wholeSignificand, skipped) := foldDigits 0 numeral.whole
  let fraction := numeral.fraction?.getD []
  let (significand, unread) := foldDigits wholeSignificand fraction
  let read : Int := (fraction.length : Int) - unread.length
  scale? (Float.ofNat significand) (skipped.length - read + numeral.exponent?.getD 0)

/-- The value of a numeral with a given sign. -/
def Numeral.toJson? (negative : Bool) (numeral : Numeral) : Option Json :=
  let double := numeral.toFloat?.map fun value => number (if negative then -value else value)
  let integral := numeral.fraction?.isNone && numeral.exponent?.isNone
  let magnitude := decimalInteger numeral.whole
  if !integral then
    double
  else if negative then
    if magnitude = 0 ∨ Nat.pow 2 63 < magnitude then double else some (integer (-(magnitude : Int)))
  else
    if magnitude ≤ maxSignificand then some (integer magnitude) else double

/-- Split digits off the front of a text. -/
def spanDigits (text : List Char) : List Char × List Char :=
  (text.takeWhile Char.isDigit, text.dropWhile Char.isDigit)

/-- Read a fraction after the whole part, if there is one. -/
def readFraction? : List Char → Option (Option (List Char) × List Char)
  | '.' :: text =>
    let (digits, rest) := spanDigits text
    if digits.isEmpty then none else some (some digits, rest)
  | text => some (none, text)

/-- Read an exponent, if there is one. -/
def readExponent? : List Char → Option (Option Int × List Char)
  | mark :: text =>
    if mark = 'e' ∨ mark = 'E' then
      let (negative, unsigned) :=
        match text with
        | '-' :: rest => (true, rest)
        | '+' :: rest => (false, rest)
        | _ => (false, text)
      let (digits, rest) := spanDigits unsigned
      let magnitude : Int := decimalInteger digits
      if digits.isEmpty then none
      else some (some (if negative then -magnitude else magnitude), rest)
    else
      some (none, mark :: text)
  | [] => some (none, [])

/-- Read a numeral without its sign from the front of a text. -/
def readNumeral? (text : List Char) : Option (Numeral × List Char) :=
  let (whole, afterWhole) := spanDigits text
  if whole.isEmpty || (whole.head? == some '0' && whole.length != 1) then
    none
  else
    match readFraction? afterWhole with
    | none => none
    | some (fraction?, afterFraction) =>
      match readExponent? afterFraction with
      | none => none
      | some (exponent?, rest) => some (⟨whole, fraction?, exponent?⟩, rest)

/-- Read a number with an optional minus sign from the front of a text. -/
def readNumber? (text : List Char) : Option (Json × List Char) :=
  let (negative, unsigned) :=
    match text with
    | '-' :: rest => (true, rest)
    | _ => (false, text)
  match readNumeral? unsigned with
  | none => none
  | some (numeral, rest) => (numeral.toJson? negative).map fun value => (value, rest)

/-- The text of a double that is not zero, in the notation that its size asks for. -/
def decimalText (decimal : Decimal) : List Char :=
  if -5 ≤ decimal.leadingExponent ∧ decimal.leadingExponent < 16 then
    if decimal.exponent < 0 then
      decimal.positional
    else
      decimal.positional ++ ['.', '0']
  else
    decimal.scientific

/-- The text of a double; infinities and NaN have none and are written as null. -/
def numberText (value : Float) : String :=
  match dyadic? value with
  | none => "null"
  | some exact =>
    if exact.mantissa = 0 then
      signed exact.negative ['0', '.', '0']
    else
      signed exact.negative (decimalText (Decimal.shortest .toEven exact.mantissa exact.exponent))

/-- The text of an integer. -/
def integerText (value : Int) : String :=
  signed (decide (value < 0)) (Nat.toDigits 10 value.natAbs)

end Covenant.Json
