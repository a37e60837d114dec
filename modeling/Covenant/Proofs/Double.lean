import Mathlib
import Covenant.Number.Dyadic

/-!
# The exact values of doubles

A finite double stands for a rational number.  Whether it is an integer, and
which, is decided on its mantissa and exponent; these lemmas tell it of the
rational number.  The double of an integer below `2 ^ 53` stands for exactly
that integer.
-/

namespace Covenant.Number

namespace Dyadic

/-- The number that a sign, a mantissa and an exponent stand for. -/
def value (number : Dyadic) : ℚ :=
  (if number.negative then -1 else 1) * (number.mantissa * 2 ^ number.exponent)

variable {number : Dyadic}

/-- The magnitude of an integer is its whole part. -/
theorem magnitude_eq_wholePart (whole : number.isWhole = true) :
    (number.mantissa * 2 ^ number.exponent : ℚ) = number.wholePart := by
  obtain ⟨negative, mantissa, exponent⟩ := number
  cases exponent with
  | ofNat power => simp [wholePart]
  | negSucc power =>
      have divides : 2 ^ (power + 1) ∣ mantissa :=
        Nat.dvd_of_mod_eq_zero (by simpa [isWhole] using whole)
      simp [wholePart, Nat.cast_div divides, div_eq_mul_inv]

/-- An integer stands for what truncating it gives. -/
theorem value_eq_truncate (whole : number.isWhole = true) : number.value = number.truncate := by
  rw [value, magnitude_eq_wholePart whole, truncate]
  cases number.negative <;> simp

/-- What stands for an integer is one. -/
theorem isWhole_of_value {integer : Int} (exact : number.value = integer) :
    number.isWhole = true := by
  obtain ⟨negative, mantissa, exponent⟩ := number
  cases exponent with
  | ofNat power => simp [isWhole]
  | negSucc power =>
      have signed : (mantissa : ℚ) * (2 ^ (power + 1))⁻¹ =
          (if negative then -integer else integer : Int) := by
        simp only [value, zpow_negSucc] at exact
        cases negative <;> simp_all [neg_eq_iff_eq_neg]
      rw [mul_inv_eq_iff_eq_mul₀ (by positivity)] at signed
      have divides : (2 ^ (power + 1) : Int) ∣ mantissa :=
        ⟨_, by rw [mul_comm]; exact_mod_cast signed⟩
      simpa [isWhole] using Nat.mod_eq_zero_of_dvd (by exact_mod_cast divides)

/-- What stands for an integer is truncated to it. -/
theorem truncate_of_value {integer : Int} (exact : number.value = integer) :
    number.truncate = integer := by
  have same := value_eq_truncate (isWhole_of_value exact)
  exact_mod_cast same.symm.trans exact

/-- Truncating drops the fraction of the magnitude. -/
theorem natAbs_truncate (number : Dyadic) : number.truncate.natAbs = number.wholePart := by
  rw [truncate]
  cases number.negative <;> simp

end Dyadic

/-- A finite double stands for a rational number. -/
def StandsFor (number : Float) (value : ℚ) : Prop :=
  ∃ exact, dyadic? number = some exact ∧ exact.value = value

/-- A double stands for one number only. -/
theorem StandsFor.unique {number : Float} {value other : ℚ} (first : StandsFor number value)
    (second : StandsFor number other) : value = other := by
  obtain ⟨exact, given, rfl⟩ := first
  obtain ⟨again, same, rfl⟩ := second
  cases given.symm.trans same
  rfl

/-! ## How doubles are packed -/

section

open Float.Model Float.Model.UnpackedFloat

/-- The exact value of an unpacked double. -/
def exactOf? : UnpackedFloat → Option Dyadic
  | .finite sign mantissa exponent _ => some ⟨sign == .negative, mantissa, exponent⟩
  | .zero sign => some ⟨sign == .negative, 0, -1074⟩
  | .infinity _ | .notANumber => none

section

variable (bits : BitVec 64)

theorem toNat_unpackMantissa :
    (@unpackMantissa .binary64 bits).toNat = bits.toNat % 2 ^ 52 := by
  simp [unpackMantissa]

theorem toNat_unpackExponent :
    (@unpackExponent .binary64 bits).toNat = bits.toNat / 2 ^ 52 % 2 ^ 11 := by
  simp [unpackExponent, Nat.shiftRight_eq_div_pow]

theorem negative_unpackSign :
    (Sign.ofBitVec (@unpackSign .binary64 bits) == .negative) =
      decide (2 ^ 63 ≤ bits.toNat) := by
  have bound := bits.isLt
  have toNat : (@unpackSign .binary64 bits).toNat = bits.toNat / 2 ^ 63 := by
    simp [unpackSign, Nat.shiftRight_eq_div_pow]
    omega
  have unsigned : @unpackSign .binary64 bits = 0#1 ↔ ¬ 2 ^ 63 ≤ bits.toNat := by
    rw [← BitVec.toNat_inj, toNat, BitVec.toNat_zero]
    omega
  rw [Sign.ofBitVec]
  by_cases signed : 2 ^ 63 ≤ bits.toNat
  · rw [if_neg fun zero => unsigned.mp zero signed, decide_eq_true signed]
    rfl
  · rw [if_pos (unsigned.mpr signed), decide_eq_false signed]
    rfl

/-- The leading bit of a mantissa of full length is not stored. -/
theorem toNat_withLeading (fraction : BitVec 52) :
    (1#1 ++ fraction).toNat = 2 ^ 52 + fraction.toNat := by
  rw [BitVec.toNat_append, ← Nat.shiftLeft_add_eq_or_of_lt fraction.isLt]
  rfl

/-- The exact value of an unpacked double is told by its bits. -/
theorem exactOf?_unpack :
    exactOf? (UnpackedFloat.unpack .binary64 bits) =
      let field : Nat := bits.toNat / 2 ^ 52 % 2 ^ 11
      let fraction : Nat := bits.toNat % 2 ^ 52
      let negative := decide (2 ^ 63 ≤ bits.toNat)
      if field = 2047 then none
      else if field = 0 then some ⟨negative, fraction, -1074⟩
      else some ⟨negative, 2 ^ 52 + fraction, field - 1075⟩ := by
  have infinite : @unpackExponent .binary64 bits = -1#11 ↔
      bits.toNat / 2 ^ 52 % 2 ^ 11 = 2047 := by
    rw [← BitVec.toNat_inj, toNat_unpackExponent]
    rfl
  have small : @unpackExponent .binary64 bits = 0#11 ↔
      bits.toNat / 2 ^ 52 % 2 ^ 11 = 0 := by
    rw [← BitVec.toNat_inj, toNat_unpackExponent]
    rfl
  simp only [UnpackedFloat.unpack, infinite, small]
  split
  · split <;> rfl
  · rw [← negative_unpackSign]
    split
    · rename_i zero
      split
      · rename_i empty
        rw [← toNat_unpackMantissa, empty]
        rfl
      · rw [exactOf?, toNat_unpackMantissa, toNat_unpackExponent, zero]
        rfl
    · rw [exactOf?, toNat_withLeading, toNat_unpackMantissa, toNat_unpackExponent]
      rfl

end

/-- The exact value of a double is told by its parts. -/
theorem dyadic?_eq_exactOf? (number : Float) :
    dyadic? number = exactOf? number.toModel.unpack :=
  (exactOf?_unpack number.toModel.toBits.toBitVec).symm

/-! ## Packing -/

section

variable (sign : Sign)

/-- Packing loses nothing of a mantissa of full length and an exponent in range. -/
theorem unpack_pack {field fraction : Nat} (low : 0 < field) (high : field < 2047)
    (less : fraction < 2 ^ 52) :
    (Float.Model.pack (.finite sign (2 ^ 52 + fraction) (field - 1075) (by omega))).unpack =
      .finite sign (2 ^ 52 + fraction) (field - 1075) (by omega) := by
  have full : (2 ^ 52 + fraction).log2 = 52 :=
    (Nat.log2_eq_iff (by omega)).mpr ⟨by omega, by omega⟩
  have biased : ((field : Int) - 1075 + (1023 : Nat) + (52 : Nat)).toNat = field := by omega
  have toField : (BitVec.ofNat 11 field).toNat = field := by
    rw [BitVec.toNat_ofNat, Nat.mod_eq_of_lt (by omega)]
  have toFraction : (BitVec.ofNat 52 (2 ^ 52 + fraction)).toNat = fraction := by
    rw [BitVec.toNat_ofNat, Nat.add_mod_left, Nat.mod_eq_of_lt less]
  have finite : BitVec.ofNat 11 field ≠ -1#11 := by
    rw [ne_eq, ← BitVec.toNat_inj, toField]
    exact high.ne
  have normal : BitVec.ofNat 11 field ≠ 0#11 := by
    rw [ne_eq, ← BitVec.toNat_inj, toField]
    exact low.ne'
  have packed :
      UnpackedFloat.pack .binary64 (.finite sign (2 ^ 52 + fraction) (field - 1075) (by omega)) =
        packComponents .binary64 sign (.ofNat 11 field) (.ofNat 52 (2 ^ 52 + fraction)) := by
    refine (if_neg ?_).trans ((if_pos ?_).trans ?_)
    · change ¬ 2 ^ 11 ≤ ((field : Int) - 1075 + (1023 : Nat) + (52 : Nat)).toNat + 1
      omega
    · rw [full]
      rfl
    · change packComponents .binary64 sign
        (.ofNat 11 ((field : Int) - 1075 + (1023 : Nat) + (52 : Nat)).toNat) _ = _
      rw [biased]
  change UnpackedFloat.unpack .binary64 (UnpackedFloat.pack .binary64 _) = _
  rw [packed, UnpackedFloat.unpack]
  simp only [unpackExponent_packComponents, unpackMantissa_packComponents,
    unpackSign_packComponents, Sign.ofBitVec_toBitVec]
  rw [if_neg finite, if_neg normal]
  congr 1
  · rw [toNat_withLeading, toFraction]
  · rw [toField]
    rfl

/-- Packing keeps what has a mantissa of full length and an exponent in the normal range. -/
theorem unpack_pack_full {mantissa : Nat} {exponent : Int} (full : mantissa.log2 = 52)
    (low : -1074 ≤ exponent) (high : exponent ≤ 971) {positive : 0 < mantissa} :
    (Float.Model.pack (.finite sign mantissa exponent positive)).unpack =
      .finite sign mantissa exponent positive := by
  obtain ⟨least, less⟩ := (Nat.log2_eq_iff positive.ne').mp full
  obtain ⟨fraction, rfl⟩ := Nat.exists_eq_add_of_le least
  obtain ⟨field, biased⟩ := Int.eq_ofNat_of_zero_le (show 0 ≤ exponent + 1075 by omega)
  obtain rfl : exponent = (field : Int) - 1075 := by omega
  exact unpack_pack sign (by omega) (by omega) (by omega)

end

/-! ## Rounding what needs no rounding -/

/-- Dropping as many zeros as were appended leaves no remainder. -/
theorem shiftRight_exact (mantissa steps : Nat) :
    (ExtendedMantissa.mk (mantissa * 2 ^ steps) false false) >>> steps =
      .mk mantissa false false := by
  induction steps generalizing mantissa with
  | zero => rw [pow_zero, mul_one]; rfl
  | succ steps ih =>
      have doubled := ih (mantissa * 2)
      rw [mul_assoc, ← pow_succ'] at doubled
      change ExtendedMantissa.shiftRightOne
        (ExtendedMantissa.mk (mantissa * 2 ^ (steps + 1)) false false >>> steps) = _
      simp [doubled, ExtendedMantissa.shiftRightOne]

theorem log2_shifted {mantissa : Nat} (positive : 0 < mantissa) (steps : Nat) :
    (mantissa * 2 ^ steps).log2 = mantissa.log2 + steps := by
  obtain ⟨least, less⟩ := (Nat.log2_eq_iff positive.ne').mp rfl
  refine (Nat.log2_eq_iff (by positivity)).mpr ⟨?_, ?_⟩
  · rw [pow_add]
    exact Nat.mul_le_mul_right _ least
  · rw [Nat.add_right_comm, pow_add]
    exact Nat.mul_lt_mul_of_pos_right less (by positivity)

section

variable (sign : Sign) {mantissa : Nat} (positive : 0 < mantissa) (full : mantissa.log2 = 52)
  {exponent : Int} (low : -1074 ≤ exponent)

include positive full low

theorem shiftToTargetExponent_exact (steps : Nat) :
    shiftToTargetExponent .binary64 (mantissa * 2 ^ steps) (exponent - steps) .exact =
      (.mk mantissa false false, exponent) := by
  have target : Format.targetExponent .binary64
      (totalExponent (mantissa * 2 ^ steps) (exponent - steps)) = exponent := by
    rw [totalExponent, log2_shifted positive, full]
    change max ((((52 + steps : Nat) : Int) + 1 + (exponent - steps)) - 53) (-1074) = exponent
    omega
  have amount : (exponent - (exponent - steps)).toNat = steps := by omega
  rw [shiftToTargetExponent, target, shiftToExponent]
  simp only [amount, ExtendedMantissa.ofMantissaAndAccuracy, shiftRight_exact, sub_add_cancel]

/-- A mantissa of full length is rounded to itself, whatever zeros were appended to it. -/
theorem roundWithAccuracy_exact (steps : Nat) :
    roundWithAccuracy .binary64 sign (mantissa * 2 ^ steps) (exponent - steps) .exact =
      .finite sign mantissa exponent positive := by
  have again := shiftToTargetExponent_exact positive full low 0
  rw [pow_zero, mul_one, Nat.cast_zero, sub_zero] at again
  have rounded : (ExtendedMantissa.mk mantissa false false).roundedMantissa = mantissa := rfl
  simp only [roundWithAccuracy, shiftToTargetExponent_exact positive full low, rounded, again]
  exact dif_neg positive.ne'

end

/-! ## Doubles of integers -/

/-- What the double of an integer other than zero is unpacked to, if it needs no rounding. -/
def ofMagnitude (sign : Sign) (magnitude : Nat) (positive : 0 < magnitude) : UnpackedFloat :=
  .finite sign (magnitude * 2 ^ (52 - magnitude.log2)) (magnitude.log2 - 52) (by positivity)

section

variable {magnitude : Nat} (positive : 0 < magnitude) (small : magnitude < 2 ^ 53)

include positive small

theorem log2_le : magnitude.log2 ≤ 52 :=
  Nat.le_of_lt_succ ((Nat.log2_lt positive.ne').mpr small)

theorem log2_full : (magnitude * 2 ^ (52 - magnitude.log2)).log2 = 52 := by
  rw [log2_shifted positive]
  have := log2_le positive small
  omega

theorem ofNat_eq_ofMagnitude :
    UnpackedFloat.ofNat .binary64 magnitude = ofMagnitude .positive magnitude positive := by
  have bound := log2_le positive small
  have low : -1074 ≤ (magnitude.log2 : Int) - 52 := by omega
  have target :
      Format.targetExponent .binary64 (totalExponent magnitude 0) = magnitude.log2 - 52 := by
    change max (((magnitude.log2 : Int) + 1 + 0) - 53) (-1074) = _
    omega
  have amount : ((0 : Int) - (magnitude.log2 - 52)).toNat = 52 - magnitude.log2 := by omega
  have decreased : (0 : Int) - (52 - magnitude.log2 : Nat) = magnitude.log2 - 52 := by omega
  have rounded := roundWithAccuracy_exact .positive (by positivity) (log2_full positive small)
    low 0
  rw [pow_zero, mul_one, Nat.cast_zero, sub_zero] at rounded
  rw [UnpackedFloat.ofNat, UnpackedFloat.ofInt, UnpackedFloat.normalize,
    Int.compare_eq_gt.mpr (by omega)]
  simp only [Int.toNat_natCast, UnpackedFloat.round, target, decreaseExponent, amount, decreased,
    Nat.shiftLeft_eq, rounded]
  rfl

theorem unpack_pack_ofMagnitude (sign : Sign) :
    (Float.Model.pack (ofMagnitude sign magnitude positive)).unpack =
      ofMagnitude sign magnitude positive := by
  have bound := log2_le positive small
  exact unpack_pack_full sign (log2_full positive small) (by omega) (by omega)

theorem mul_one_ofMagnitude :
    UnpackedFloat.mul .binary64 (ofMagnitude .positive magnitude positive)
        (.finite .positive (2 ^ 52) (-52) (by positivity)) =
      ofMagnitude .positive magnitude positive := by
  have bound := log2_le positive small
  have low : -1074 ≤ (magnitude.log2 : Int) - 52 := by omega
  exact roundWithAccuracy_exact .positive (by positivity) (log2_full positive small) low 52

/-- A conversion from a decimal: the digits as they are, times the zeroth power of ten. -/
theorem unpack_ofNat :
    (Float.ofNat magnitude).toModel.unpack = ofMagnitude .positive magnitude positive := by
  have fits : magnitude < 2 ^ 53 ∧ 0 ≤ 22 := ⟨small, by omega⟩
  have product :
      Float.ofNat magnitude = magnitude.toUInt64.toFloat * .ofBits 0x3FF0000000000000 := by
    change Float.ofScientific magnitude false 0 = _
    rw [Float.ofScientific, dif_pos fits]
    rfl
  have word : magnitude.toUInt64.toNat = magnitude := by
    rw [Nat.toUInt64_eq, UInt64.toNat_ofNat', Nat.mod_eq_of_lt (by omega)]
  have first :
      magnitude.toUInt64.toFloat.toModel.unpack = ofMagnitude .positive magnitude positive := by
    change (Float.Model.pack (UnpackedFloat.ofNat .binary64 magnitude.toUInt64.toNat)).unpack = _
    rw [word, ofNat_eq_ofMagnitude positive small, unpack_pack_ofMagnitude positive small .positive]
  have second : (Float.ofBits 0x3FF0000000000000).toModel.unpack =
      .finite .positive (2 ^ 52) (-52) (by positivity) := rfl
  rw [product]
  change (Float.Model.pack (UnpackedFloat.mul .binary64 magnitude.toUInt64.toFloat.toModel.unpack
    (Float.ofBits 0x3FF0000000000000).toModel.unpack)).unpack = _
  rw [first, second, mul_one_ofMagnitude positive small,
    unpack_pack_ofMagnitude positive small .positive]

end

/-- What an unpacked double stands for is told by its sign and magnitude. -/
theorem exactOf?_ofMagnitude {magnitude : Nat} (positive : 0 < magnitude)
    (small : magnitude < 2 ^ 53) (sign : Sign) :
    ∃ exact, exactOf? (ofMagnitude sign magnitude positive) = some exact ∧
      exact.value = sign.apply magnitude := by
  have bound := log2_le positive small
  have exponent : (magnitude.log2 : Int) - 52 = -(52 - magnitude.log2 : Nat) := by omega
  refine ⟨_, rfl, ?_⟩
  have cancel : (magnitude * 2 ^ (52 - magnitude.log2) : ℚ) *
      2 ^ ((magnitude.log2 : Int) - 52) = magnitude := by
    rw [exponent, zpow_neg, zpow_natCast, mul_inv_cancel_right₀ (by positivity)]
  simp only [Dyadic.value, Nat.cast_mul, Nat.cast_pow, Nat.cast_ofNat, cancel]
  cases sign with
  | negative => simp [Sign.apply]
  | positive =>
      have unmarked : (Sign.positive == Sign.negative) = false := rfl
      simp [Sign.apply, unmarked]

/-- The double of an integer below `2 ^ 53` stands for it. -/
theorem standsFor_ofNat {magnitude : Nat} (small : magnitude < 2 ^ 53) :
    StandsFor (Float.ofNat magnitude) magnitude := by
  rcases Nat.eq_zero_or_pos magnitude with rfl | positive
  · exact ⟨⟨false, 0, -1074⟩, by rw [dyadic?_eq_exactOf?]; rfl, by simp [Dyadic.value]⟩
  · obtain ⟨exact, given, value⟩ := exactOf?_ofMagnitude positive small .positive
    refine ⟨exact, ?_, value⟩
    rw [dyadic?_eq_exactOf?, unpack_ofNat positive small, given]

theorem standsFor_neg_ofNat {magnitude : Nat} (positive : 0 < magnitude)
    (small : magnitude < 2 ^ 53) :
    StandsFor (-Float.ofNat magnitude) (-magnitude) := by
  obtain ⟨exact, given, value⟩ := exactOf?_ofMagnitude positive small .negative
  have unpacked : (-Float.ofNat magnitude).toModel.unpack =
      ofMagnitude .negative magnitude positive := by
    change (Float.Model.pack (Float.ofNat magnitude).toModel.unpack.neg).unpack = _
    rw [unpack_ofNat positive small]
    exact unpack_pack_ofMagnitude positive small .negative
  refine ⟨exact, ?_, by simpa [Sign.apply] using value⟩
  rw [dyadic?_eq_exactOf?, unpacked, given]

end

/-- The double of an integer of a magnitude below `2 ^ 53` stands for it. -/
theorem standsFor_ofInt {integer : Int} (small : integer.natAbs < 2 ^ 53) :
    StandsFor (Float.ofInt integer) integer := by
  cases integer with
  | ofNat magnitude => exact standsFor_ofNat small
  | negSucc magnitude =>
      rw [Int.cast_negSucc]
      exact standsFor_neg_ofNat (Nat.succ_pos magnitude) small

end Covenant.Number
