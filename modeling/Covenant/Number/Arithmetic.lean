import Covenant.Number.Dyadic

/-!
# Remainder and power

The remainder of two numbers is exact: both operands are brought to one
power of two and divided as integers, so the result needs no rounding and
takes the sign of the dividend.  Powers follow the usual floating point
power except where the base is one in magnitude and the exponent infinite,
or the exponent is NaN: there the script language has no value.
-/

namespace Covenant.Number

/-- The exact remainder of a truncating division, with the dividend's sign. -/
def remainder (dividend divisor : Float) : Float :=
  match dyadic? dividend, dyadic? divisor with
  | some left, some right =>
    if right.mantissa = 0 then
      nan
    else
      let exponent := min left.exponent right.exponent
      let numerator := left.mantissa * Nat.pow 2 (left.exponent - exponent).toNat
      let denominator := right.mantissa * Nat.pow 2 (right.exponent - exponent).toNat
      Dyadic.toFloat ⟨left.negative, numerator % denominator, exponent⟩
  | some _, none => if divisor.isNaN then nan else dividend
  | none, _ => nan

/-- The power of a base, without a value where the limit is not unique. -/
def power (base exponent : Float) : Float :=
  if exponent.isNaN || (base.abs == 1.0 && exponent.isInf) then
    nan
  else
    Float.pow base exponent

end Covenant.Number
