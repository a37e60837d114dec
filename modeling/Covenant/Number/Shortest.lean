import Covenant.Number.Dyadic

/-!
# The fewest digits that read back

Among the decimals that round to a given double, the shortest ones have the
fewest significant digits, and of those the one nearest to the double is
taken.  The search walks the decimal grids from coarse to fine and tests the
two neighbours of the value on each grid in exact integer arithmetic; the
first grid with a neighbour inside the rounding interval wins.

An exact tie between both neighbours is resolved by the caller's rule, since
the two printed forms of a number (plain text and interchange text) disagree
on it.
-/

namespace Covenant.Number

/-- The decimal `significand * 10 ^ exponent`. -/
structure Decimal where
  /-- The significant digits, read as an integer. -/
  significand : Nat
  /-- The exponent of the power of ten. -/
  exponent : Int
  deriving DecidableEq, Repr

/-- What becomes of a value halfway between two candidates. -/
inductive Tie where
  /-- The candidate with an even last digit is taken. -/
  | toEven
  /-- The larger candidate is taken. -/
  | up
  deriving DecidableEq, Repr

/-- The exponent of the largest power of ten that is at most a positive integer. -/
def decimalLog (number : Nat) : Nat :=
  (Nat.toDigits 10 number).length - 1

/-- A positive value with the ends of its rounding interval, over one denominator. -/
structure Interval where
  /-- Numerator of the value. -/
  value : Nat
  /-- Numerator of the lower end. -/
  lower : Nat
  /-- Numerator of the upper end. -/
  upper : Nat
  /-- The common denominator. -/
  denominator : Nat
  /-- Whether the ends round to the value too. -/
  closed : Bool

/--
The interval of the reals that round to `mantissa * 2 ^ exponent`.  Below a
power of two the doubles are twice as dense, which halves the lower side.
-/
def Interval.ofDyadic (mantissa : Nat) (exponent : Int) : Interval :=
  let below := if mantissa = Nat.pow 2 52 ∧ -1074 < exponent then 1 else 2
  let scale := Nat.pow 2 (exponent - 2).toNat
  { value := 4 * mantissa * scale
    lower := (4 * mantissa - below) * scale
    upper := (4 * mantissa + 2) * scale
    denominator := Nat.pow 2 (2 - exponent).toNat
    closed := mantissa % 2 = 0 }

namespace Interval

/-- Whether the decimal `significand * 10 ^ exponent` rounds to the value. -/
def contains (interval : Interval) (significand : Nat) (exponent : Int) : Bool :=
  let candidate := significand * Nat.pow 10 exponent.toNat * interval.denominator
  let scale := Nat.pow 10 (-exponent).toNat
  if interval.closed then
    decide (interval.lower * scale ≤ candidate) && decide (candidate ≤ interval.upper * scale)
  else
    decide (interval.lower * scale < candidate) && decide (candidate < interval.upper * scale)

/-- The value divided by `10 ^ exponent`, rounded down. -/
def floorAt (interval : Interval) (exponent : Int) : Nat :=
  interval.value * Nat.pow 10 (-exponent).toNat /
    (interval.denominator * Nat.pow 10 exponent.toNat)

/--
How the value lies between the grid point `significand * 10 ^ exponent` and
the next one: below, on, or above their midpoint.
-/
def midpointOrder (interval : Interval) (significand : Nat) (exponent : Int) : Ordering :=
  compare (2 * interval.value * Nat.pow 10 (-exponent).toNat)
    ((2 * significand + 1) * (interval.denominator * Nat.pow 10 exponent.toNat))

/-- The neighbour of the value on one grid that rounds to it, the nearer of two. -/
def candidate? (interval : Interval) (tie : Tie) (exponent : Int) : Option Nat :=
  let below := interval.floorAt exponent
  match interval.contains below exponent, interval.contains (below + 1) exponent with
  | true, true =>
    match interval.midpointOrder below exponent, tie with
    | .lt, _ => some below
    | .gt, _ => some (below + 1)
    | .eq, .up => some (below + 1)
    | .eq, .toEven => if below % 2 = 0 then some below else some (below + 1)
  | true, false => some below
  | false, true => some (below + 1)
  | false, false => none

/-- The first of at most `count` grids, from `exponent` downward, with a candidate. -/
def search (interval : Interval) (tie : Tie) : (count : Nat) → (exponent : Int) → Decimal
  | 0, exponent => ⟨interval.floorAt exponent, exponent⟩
  | count + 1, exponent =>
    match interval.candidate? tie exponent with
    | some significand => ⟨significand, exponent⟩
    | none => search interval tie count (exponent - 1)

/-- The exponent of the largest power of ten that is at most the value. -/
def leadingExponent (interval : Interval) : Int :=
  if interval.denominator ≤ interval.value then
    (decimalLog (interval.value / interval.denominator) : Int)
  else
    -(decimalLog (interval.denominator / interval.value) : Int) - 1

end Interval

namespace Decimal

/-- Remove trailing zeros of the significand, at most `fuel` of them. -/
def trim : (fuel : Nat) → Decimal → Decimal
  | 0, decimal => decimal
  | fuel + 1, ⟨significand, exponent⟩ =>
    if significand ≠ 0 ∧ significand % 10 = 0 then
      trim fuel ⟨significand / 10, exponent + 1⟩
    else
      ⟨significand, exponent⟩

/-- The shortest decimal that reads back as `mantissa * 2 ^ exponent`, nearest first. -/
def shortest (tie : Tie) (mantissa : Nat) (exponent : Int) : Decimal :=
  let interval := Interval.ofDyadic mantissa exponent
  trim 32 (interval.search tie 18 interval.leadingExponent)

/-- The digits of the significand. -/
def digits (decimal : Decimal) : List Char :=
  Nat.toDigits 10 decimal.significand

/-- The decimal exponent of the first digit. -/
def leadingExponent (decimal : Decimal) : Int :=
  decimal.exponent + (decimal.digits.length : Int) - 1

/--
Positional notation: zeros fill the gap between the digits and the point, and
an integer is written without a point.
-/
def positional (decimal : Decimal) : List Char :=
  let digits := decimal.digits
  if 0 ≤ decimal.exponent then
    digits ++ List.replicate decimal.exponent.toNat '0'
  else
    let places := (-decimal.exponent).toNat
    if places < digits.length then
      digits.take (digits.length - places) ++ '.' :: digits.drop (digits.length - places)
    else
      '0' :: '.' :: (List.replicate (places - digits.length) '0' ++ digits)

/--
Scientific notation: one digit before the point, no point after a lone digit,
and an exponent that carries its sign.
-/
def scientific (decimal : Decimal) : List Char :=
  let exponent := decimal.leadingExponent
  let mark := if 0 ≤ exponent then ['e', '+'] else ['e', '-']
  let suffix := mark ++ Nat.toDigits 10 exponent.natAbs
  match decimal.digits with
  | [] => suffix
  | [digit] => digit :: suffix
  | digit :: rest => digit :: '.' :: (rest ++ suffix)

end Decimal

end Covenant.Number
