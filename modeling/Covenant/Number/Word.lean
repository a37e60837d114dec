import Covenant.Number.Dyadic

/-!
# 32-bit words of numbers

Bitwise operators read a number as a 32-bit word: the truncated value modulo
`2 ^ 32`, and zero for a number that is not finite.  A word is read back as
a signed or as an unsigned integer; both are exact doubles.
-/

namespace Covenant.Number

/-- The word of a number: its truncated value modulo `2 ^ 32`. -/
def toWord (number : Float) : BitVec 32 :=
  match dyadic? number with
  | some value => BitVec.ofInt 32 value.truncate
  | none => 0

/-- The number of a word read as a signed integer. -/
def ofSigned (word : BitVec 32) : Float :=
  Float.ofInt word.toInt

/-- The number of a word read as an unsigned integer. -/
def ofUnsigned (word : BitVec 32) : Float :=
  Float.ofNat word.toNat

/-- A shift distance: the five low bits of a number's word. -/
def toShift (number : Float) : Nat :=
  (toWord number).toNat % 32

end Covenant.Number
