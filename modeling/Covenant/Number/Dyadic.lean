/-!
# Exact values of binary64 numbers

A finite double is an integer multiple of a power of two.  This module reads
that exact value off the bit pattern, truncates it toward zero, and rebuilds
the double of an exactly representable value.  Everything that must not
round (integer text, remainders, 32-bit words, shortest digits) starts from
this view, so that it can be stated on integers.
-/

namespace Covenant.Number

/-- A finite double: a sign and an integer multiple of a power of two. -/
structure Dyadic where
  /-- Whether the sign bit is set, also on a zero. -/
  negative : Bool
  /-- The integer factor, below `2 ^ 53`. -/
  mantissa : Nat
  /-- The exponent of the power of two, at least `-1074`. -/
  exponent : Int
  deriving DecidableEq, Repr

/-- The exact value of a finite double; infinities and NaN have none. -/
def dyadic? (number : Float) : Option Dyadic :=
  let bits := number.toBits.toNat
  let negative := decide (Nat.pow 2 63 ≤ bits)
  let exponentField : Nat := bits / Nat.pow 2 52 % Nat.pow 2 11
  let fraction : Nat := bits % Nat.pow 2 52
  if exponentField = 2047 then
    none
  else if exponentField = 0 then
    some { negative, mantissa := fraction, exponent := -1074 }
  else
    some
      { negative
        mantissa := Nat.pow 2 52 + fraction
        exponent := (exponentField : Int) - 1075 }

/-- The double `2 ^ exponent`, for exponents from `-1074` to `1023`. -/
def powerOfTwo (exponent : Int) : Float :=
  if -1022 ≤ exponent then
    Float.ofBits (UInt64.ofNat ((exponent + 1023).toNat * Nat.pow 2 52))
  else
    Float.ofBits (UInt64.ofNat (Nat.pow 2 (exponent + 1074).toNat))

namespace Dyadic

/-- The magnitude with its fractional part dropped. -/
def wholePart (value : Dyadic) : Nat :=
  if 0 ≤ value.exponent then
    value.mantissa * Nat.pow 2 value.exponent.toNat
  else
    value.mantissa / Nat.pow 2 (-value.exponent).toNat

/-- The value truncated toward zero. -/
def truncate (value : Dyadic) : Int :=
  if value.negative then -(value.wholePart : Int) else value.wholePart

/-- Whether the value is an integer. -/
def isWhole (value : Dyadic) : Bool :=
  decide (0 ≤ value.exponent) ||
    decide (value.mantissa % Nat.pow 2 (-value.exponent).toNat = 0)

/-- The double of a value whose mantissa is below `2 ^ 53`. -/
def toFloat (value : Dyadic) : Float :=
  let magnitude := Float.ofNat value.mantissa * powerOfTwo value.exponent
  if value.negative then -magnitude else magnitude

end Dyadic

/-- The quiet NaN. -/
def nan : Float := Float.ofBits 0x7ff8000000000000

/-- Positive infinity. -/
def infinity : Float := Float.ofBits 0x7ff0000000000000

/-- Whether the sign bit of a number is set; NaN counts as unsigned. -/
def isNegative (number : Float) : Bool :=
  decide (Nat.pow 2 63 ≤ number.toBits.toNat)

/-- Whether a number is a finite integer. -/
def isWhole (number : Float) : Bool :=
  match dyadic? number with
  | some value => value.isWhole
  | none => false

end Covenant.Number
