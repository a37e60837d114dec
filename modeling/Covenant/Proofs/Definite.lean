import Mathlib
import Covenant.Number.Text

/-!
# Numbers other than NaN

Packing a number keeps whether it is NaN, and rounding never makes one.  So
decimal and hexadecimal integers, their negations, and the double nearest to
any decimal are numbers other than NaN: none of the steps that lead to them
multiplies zero by infinity or divides zero by zero.
-/

namespace Covenant.Number

open Float.Model Float.Model.UnpackedFloat

/-! ## Packing and rounding -/

theorem isNaN_unpack_packComponents (sign : Sign) (field : BitVec 11) (fraction : BitVec 52) :
    (UnpackedFloat.unpack .binary64 (packComponents .binary64 sign field fraction)).isNaN =
      decide (field = -1#11 ∧ fraction ≠ 0#52) := by
  rw [UnpackedFloat.unpack]
  simp only [unpackExponent_packComponents, unpackMantissa_packComponents]
  split
  · split <;> simp_all [UnpackedFloat.isNaN]
  split
  · split <;> simp_all [UnpackedFloat.isNaN]
  · simp_all [UnpackedFloat.isNaN]

/-- Only NaN is packed into a NaN. -/
theorem isNaN_unpack_pack (number : UnpackedFloat) :
    (Float.Model.pack number).unpack.isNaN = number.isNaN := by
  cases number with
  | infinity sign => cases sign <;> rfl
  | notANumber => rfl
  | zero sign => cases sign <;> rfl
  | finite sign mantissa exponent positive =>
      change (UnpackedFloat.unpack .binary64 (UnpackedFloat.pack .binary64 _)).isNaN = false
      rw [UnpackedFloat.pack]
      simp only
      split
      · exact isNaN_unpack_packComponents sign (-1#11) 0
      rename_i below
      split
      · rw [isNaN_unpack_packComponents]
        refine decide_eq_false fun both => ?_
        have field := congrArg BitVec.toNat both.1
        rw [BitVec.toNat_ofNat] at field
        change _ = 2047 at field
        change ¬ 2 ^ 11 ≤ _ at below
        omega
      · rw [isNaN_unpack_packComponents]
        exact decide_eq_false fun both => absurd both.1 (by decide)

theorem isNaN_roundWithAccuracy (sign : Sign) (mantissa : Nat) (exponent : Int)
    (accuracy : Accuracy) :
    (roundWithAccuracy .binary64 sign mantissa exponent accuracy).isNaN = false := by
  simp only [roundWithAccuracy]
  split <;> rfl

theorem isNaN_normalize (mantissa exponent : Int) (sign : Sign) :
    (Float.Model.UnpackedFloat.normalize .binary64 mantissa exponent sign).isNaN = false := by
  rw [Float.Model.UnpackedFloat.normalize]
  split
  · exact isNaN_roundWithAccuracy ..
  · rfl
  · exact isNaN_roundWithAccuracy ..

theorem isNaN_toFloat (word : UInt64) : word.toFloat.toModel.unpack.isNaN = false :=
  (isNaN_unpack_pack _).trans (isNaN_normalize ..)

/-! ## Products and quotients -/

/-- Whether an unpacked number is finite and not zero. -/
def isProper : UnpackedFloat → Bool
  | .finite _ _ _ _ => true
  | _ => false

section

variable {first second : UnpackedFloat} (definite : first.isNaN = false)
  (proper : isProper second = true)

include definite proper

theorem isNaN_mul : (UnpackedFloat.mul .binary64 first second).isNaN = false := by
  cases second with
  | finite sign mantissa exponent positive =>
      cases first with
      | notANumber => cases definite
      | infinity _ | zero _ => rfl
      | finite _ _ _ _ => exact isNaN_roundWithAccuracy ..
  | _ => cases proper

theorem isNaN_div : (UnpackedFloat.div .binary64 first second).isNaN = false := by
  cases second with
  | finite sign mantissa exponent positive =>
      cases first with
      | notANumber => cases definite
      | infinity _ | zero _ => rfl
      | finite _ _ _ _ => exact isNaN_roundWithAccuracy ..
  | _ => cases proper

end

theorem isProper_powerOfTen {power : Float}
    (among : power ∈ Float.exactlyRepresentablePowersOfTen) :
    isProper power.toModel.unpack = true := by
  have all : Float.exactlyRepresentablePowersOfTen.all fun power =>
      isProper power.toModel.unpack := by decide +kernel
  exact Array.all_eq_true'.mp all power among

/-! ## Decimals -/

theorem isNaN_ofScientific_unpacked (significand : Nat) (exponent : Int) :
    (UnpackedFloat.ofScientific .binary64 significand exponent).isNaN = false := by
  rw [UnpackedFloat.ofScientific]
  split
  · rfl
  split
  · rfl
  split
  · rfl
  split
  · exact isNaN_mul rfl rfl
  · exact isNaN_div rfl rfl

theorem isNaN_ofScientific (significand : Nat) (negative : Bool) (exponent : Nat) :
    (Float.ofScientific significand negative exponent).isNaN = false := by
  rw [Float.ofScientific]
  split
  case isTrue small =>
    have inTable : exponent < Float.exactlyRepresentablePowersOfTen.size :=
      Nat.lt_succ_of_le small.2
    have power := isProper_powerOfTen (Array.getElem_mem inTable)
    dsimp only
    split
    · exact (isNaN_unpack_pack _).trans (isNaN_div (isNaN_toFloat _) power)
    · exact (isNaN_unpack_pack _).trans (isNaN_mul (isNaN_toFloat _) power)
  case isFalse => exact (isNaN_unpack_pack _).trans (isNaN_ofScientific_unpacked ..)

theorem isNaN_zero : (0.0 : Float).isNaN = false :=
  isNaN_ofScientific ..

theorem isNaN_infinity : infinity.isNaN = false :=
  rfl

theorem isNaN_neg (number : Float) : (-number).isNaN = number.isNaN := by
  change (Float.Model.pack number.toModel.unpack.neg).unpack.isNaN = number.toModel.unpack.isNaN
  rw [isNaN_unpack_pack]
  cases number.toModel.unpack <;> rfl

theorem isNaN_ofNat (integer : Nat) : (Float.ofNat integer).isNaN = false :=
  isNaN_ofScientific integer false 0

/-- The double nearest to a decimal is no NaN, however large or small the decimal is. -/
theorem isNaN_ofDecimal (decimal : Decimal) : (ofDecimal decimal).isNaN = false := by
  rw [ofDecimal]
  split
  · exact isNaN_zero
  split
  · exact isNaN_infinity
  split
  · exact isNaN_zero
  split <;> exact isNaN_ofScientific ..

end Covenant.Number
