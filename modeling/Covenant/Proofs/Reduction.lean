import Covenant.Number.Arithmetic
import Covenant.Number.Word
import Covenant.Proofs.Double
import Covenant.Proofs.Order

/-!
# Reduction to a word in floating arithmetic

The word of a number can be found without integers of arbitrary size:
truncate the number, take its Euclidean remainder by `2 ^ 32`, and cast.  Each
of these steps is exact, however large the number is: the truncated value
fits its mantissa, the remainder fits the mantissa of the number or of the
modulus, the sum that makes it nonnegative is an integer below `2 ^ 32`, and
so the cast neither rounds nor saturates.
-/

namespace Covenant.Number

open Float.Model Float.Model.UnpackedFloat

/-! ## The steps -/

/-- A number truncated toward zero. -/
def truncated (number : Float) : Float :=
  match dyadic? number with
  | some value =>
    if 0 ≤ value.exponent then number else Dyadic.toFloat ⟨value.negative, value.wholePart, 0⟩
  | none => number

/-- The remainder that takes the sign of the divisor's magnitude. -/
def euclideanRemainder (dividend divisor : Float) : Float :=
  if remainder dividend divisor < 0.0 then remainder dividend divisor + divisor.abs
  else remainder dividend divisor

/-- The number of words. -/
def wordCount : Float := 4294967296.0

/-- The word of a number in floating arithmetic. -/
def reducedWord (number : Float) : UInt32 :=
  if number.isFinite then (euclideanRemainder (truncated number) wordCount).toUInt32 else 0

/-! ## Exact values -/

variable {number : Float} {value : Dyadic}

theorem exact_bounds (exact : dyadic? number = some value) :
    value.mantissa < 2 ^ 53 ∧ -1074 ≤ value.exponent ∧ value.exponent ≤ 971 ∧
      (value.mantissa = 0 → value.exponent = -1074) := by
  rw [dyadic?_eq_exactOf?, Float.Model.unpack, exactOf?_unpack] at exact
  dsimp only at exact
  split at exact
  · cases exact
  split at exact <;> cases exact <;> dsimp only <;> omega

/-- The sign that a mark stands for. -/
def signOf (negative : Bool) : Sign :=
  if negative then .negative else .positive

theorem eq_finite_of_exactOf? {unpacked : UnpackedFloat} (exact : exactOf? unpacked = some value)
    (positive : 0 < value.mantissa) :
    unpacked = .finite (signOf value.negative) value.mantissa value.exponent positive := by
  cases unpacked with
  | finite sign mantissa exponent positive =>
      cases exact
      cases sign <;> rfl
  | zero sign =>
      cases exact
      exact absurd positive (lt_irrefl 0)
  | infinity _ | notANumber => cases exact

theorem eq_zero_of_exactOf? {unpacked : UnpackedFloat} (exact : exactOf? unpacked = some value)
    (zero : value.mantissa = 0) : ∃ sign, unpacked = .zero sign := by
  cases unpacked with
  | finite sign mantissa exponent positive =>
      cases exact
      exact absurd zero positive.ne'
  | zero sign => exact ⟨sign, rfl⟩
  | infinity _ | notANumber => cases exact

/-! ## The double of an exact value -/

theorem unpack_powerOfTwo {exponent : Int} (low : -1022 ≤ exponent) (high : exponent ≤ 1023) :
    (powerOfTwo exponent).toModel.unpack =
      .finite .positive (2 ^ 52) (exponent - 52) (by positivity) := by
  obtain ⟨field, biased⟩ := Int.eq_ofNat_of_zero_le (show 0 ≤ exponent + 1023 by omega)
  have word : (UInt64.ofNat (field * 2 ^ 52)).toBitVec.toNat = field * 2 ^ 52 := by
    change (UInt64.ofNat (field * 2 ^ 52)).toNat = field * 2 ^ 52
    rw [UInt64.toNat_ofNat', Nat.mod_eq_of_lt (by omega)]
  have fields : field * 2 ^ 52 / 2 ^ 52 % 2 ^ 11 = field ∧ field * 2 ^ 52 % 2 ^ 52 = 0 ∧
      ¬ 2 ^ 63 ≤ field * 2 ^ 52 := by omega
  have exact : exactOf? (UnpackedFloat.unpack .binary64 (UInt64.ofNat (field * 2 ^ 52)).toBitVec) =
      some ⟨false, 2 ^ 52 + 0, field - 1075⟩ := by
    rw [exactOf?_unpack, word]
    dsimp only
    rw [fields.1, fields.2.1, decide_eq_false fields.2.2, if_neg (by omega), if_neg (by omega)]
  have unpacked := eq_finite_of_exactOf? exact (by positivity)
  have shape : powerOfTwo exponent =
      .ofModel (.pack (UnpackedFloat.unpack .binary64
        (UInt64.ofNat (field * 2 ^ 52)).toBitVec)) := by
    rw [powerOfTwo, if_pos low, biased]
    rfl
  have moved : exponent - 52 = (field : Int) - 1075 := by omega
  rw [shape, unpacked]
  simp only [moved]
  exact unpack_pack .positive (by omega) (by omega) (by positivity)

section

variable (small : value.mantissa < 2 ^ 53) (low : -1022 ≤ value.exponent)
  (high : value.exponent ≤ 971)

include small low high

/-- The double of a magnitude has its mantissa shifted to full length. -/
theorem unpack_magnitude (positive : 0 < value.mantissa) :
    (Float.ofNat value.mantissa * powerOfTwo value.exponent).toModel.unpack =
      .finite .positive (value.mantissa * 2 ^ (52 - value.mantissa.log2))
        (value.exponent + value.mantissa.log2 - 52) (by positivity) := by
  have bound := log2_le positive small
  have full := log2_full positive small
  have rounded := roundWithAccuracy_exact .positive (by positivity) full
    (show -1074 ≤ value.exponent + value.mantissa.log2 - 52 by omega) 52
  have exponents : (value.mantissa.log2 - 52 : Int) + (value.exponent - 52) =
      value.exponent + value.mantissa.log2 - 52 - (52 : Nat) := by omega
  change (Float.Model.pack (UnpackedFloat.mul .binary64
    (Float.ofNat value.mantissa).toModel.unpack
    (powerOfTwo value.exponent).toModel.unpack)).unpack = _
  rw [unpack_ofNat positive small, unpack_powerOfTwo low (by omega), ofMagnitude]
  change (Float.Model.pack (roundWithAccuracy .binary64 .positive _ _ .exact)).unpack = _
  rw [exponents, rounded]
  exact unpack_pack_full .positive full (by omega) (by omega)

omit small in
theorem unpack_magnitude_zero (zero : value.mantissa = 0) :
    (Float.ofNat value.mantissa * powerOfTwo value.exponent).toModel.unpack = .zero .positive := by
  change (Float.Model.pack (UnpackedFloat.mul .binary64
    (Float.ofNat value.mantissa).toModel.unpack
    (powerOfTwo value.exponent).toModel.unpack)).unpack = _
  have nothing : (Float.ofNat 0).toModel.unpack = .zero .positive := rfl
  rw [zero, nothing, unpack_powerOfTwo low (by omega)]
  change (Float.Model.pack (.zero (.positive * .positive))).unpack = _
  rfl

theorem unpack_toFloat (positive : 0 < value.mantissa) :
    value.toFloat.toModel.unpack =
      .finite (signOf value.negative) (value.mantissa * 2 ^ (52 - value.mantissa.log2))
        (value.exponent + value.mantissa.log2 - 52) (by positivity) := by
  have magnitude := unpack_magnitude small low high positive
  rw [Dyadic.toFloat]
  cases value.negative with
  | false => exact magnitude
  | true =>
      have bound := log2_le positive small
      change (Float.Model.pack
        (Float.ofNat value.mantissa * powerOfTwo value.exponent).toModel.unpack.neg).unpack = _
      rw [magnitude]
      exact unpack_pack_full .negative (log2_full positive small) (by omega) (by omega)

/-- An exact value in the normal range is the value of its double. -/
theorem standsFor_toFloat : StandsFor value.toFloat value.value := by
  rcases Nat.eq_zero_or_pos value.mantissa with zero | positive
  · have magnitude := unpack_magnitude_zero low high zero
    refine ⟨⟨value.negative, 0, -1074⟩, ?_, by simp [Dyadic.value, zero]⟩
    rw [dyadic?_eq_exactOf?, Dyadic.toFloat]
    cases value.negative with
    | false => exact (congrArg exactOf? magnitude).trans rfl
    | true =>
        change exactOf? (Float.Model.pack
          (Float.ofNat value.mantissa * powerOfTwo value.exponent).toModel.unpack.neg).unpack = _
        rw [magnitude]
        rfl
  · refine ⟨_, by rw [dyadic?_eq_exactOf?, unpack_toFloat small low high positive]; rfl, ?_⟩
    have bound := log2_le positive small
    have cancel : (value.mantissa * 2 ^ (52 - value.mantissa.log2) : ℚ) *
        2 ^ (value.exponent + value.mantissa.log2 - 52) = value.mantissa * 2 ^ value.exponent := by
      have moved : value.exponent + value.mantissa.log2 - 52 =
          value.exponent - (52 - value.mantissa.log2 : Nat) := by omega
      rw [moved, zpow_sub₀ two_ne_zero, zpow_natCast, mul_div_assoc', mul_right_comm,
        mul_div_cancel_right₀ _ (by positivity)]
    have sign : (signOf value.negative == .negative) = value.negative := by
      cases value.negative <;> rfl
    simp only [Dyadic.value, Nat.cast_mul, Nat.cast_pow, Nat.cast_ofNat, cancel, sign]

end

/-- The double of an integer in a smaller unit. -/
theorem standsFor_scaled (negative : Bool) {magnitude steps : Nat}
    (small : magnitude * 2 ^ steps < 2 ^ 53) (low : steps ≤ 1022) :
    StandsFor (Dyadic.toFloat ⟨negative, magnitude * 2 ^ steps, -steps⟩)
      (if negative then -(magnitude : Int) else magnitude : Int) := by
  have stands : StandsFor (Dyadic.toFloat ⟨negative, magnitude * 2 ^ steps, -steps⟩)
      (Dyadic.value ⟨negative, magnitude * 2 ^ steps, -steps⟩) :=
    standsFor_toFloat small (show (-1022 : Int) ≤ -steps by omega)
      (show (-steps : Int) ≤ 971 by omega)
  have cancel : ((magnitude * 2 ^ steps : Nat) : ℚ) * 2 ^ (-steps : Int) = magnitude := by
    rw [Nat.cast_mul, Nat.cast_pow, Nat.cast_ofNat, zpow_neg, zpow_natCast,
      mul_inv_cancel_right₀ (by positivity)]
  convert stands using 1
  rw [Dyadic.value, cancel]
  cases negative <;> simp

/-! ## Truncation -/

/-- Truncation is exact. -/
theorem standsFor_truncated (exact : dyadic? number = some value) :
    StandsFor (truncated number) value.truncate := by
  obtain ⟨small, -, -, -⟩ := exact_bounds exact
  simp only [truncated, exact]
  split
  case isTrue whole =>
    have isWhole : value.isWhole = true := by simp [Dyadic.isWhole, whole]
    exact ⟨value, exact, Dyadic.value_eq_truncate isWhole⟩
  case isFalse fractional =>
    have least : value.wholePart < 2 ^ 53 := by
      rw [Dyadic.wholePart, if_neg fractional]
      exact (Nat.div_le_self _ _).trans_lt small
    have stands := standsFor_scaled value.negative
      (show value.wholePart * 2 ^ 0 < 2 ^ 53 by rwa [pow_zero, mul_one]) (by decide)
    rw [pow_zero, mul_one] at stands
    exact stands

/-! ## Remainder -/

theorem dyadic?_wordCount : dyadic? wordCount = some ⟨false, 2 ^ 52, -20⟩ := by
  decide +kernel

/-- The double of a signed zero stands for zero. -/
theorem standsFor_zero (negative : Bool) : StandsFor (Dyadic.toFloat ⟨negative, 0, -1074⟩) 0 := by
  refine ⟨⟨negative, 0, -1074⟩, ?_, by simp [Dyadic.value]⟩
  cases negative <;> decide +kernel

/-- The parts of an integer's double. -/
theorem StandsFor.parts {integer : Int} (stands : StandsFor number integer) :
    ∃ negative mantissa exponent integral,
      dyadic? number = some ⟨negative, mantissa, exponent⟩ ∧
      (mantissa * 2 ^ exponent : ℚ) = (integral : Nat) ∧
      integer = if negative then -(integral : Int) else integral := by
  obtain ⟨value, exact, same⟩ := stands
  exact ⟨_, _, _, _, exact, Dyadic.magnitude_eq_wholePart (Dyadic.isWhole_of_value same),
    (Dyadic.truncate_of_value same).symm⟩

/-- What is an integer is zero, or its exponent is not below what its mantissa makes up for. -/
theorem exponent_of_integral {mantissa integral : Nat} {exponent : Int}
    (magnitude : (mantissa * 2 ^ exponent : ℚ) = integral) (small : mantissa < 2 ^ 53)
    (positive : 0 < mantissa) : -52 ≤ exponent := by
  by_contra low
  obtain ⟨steps, deep⟩ := Int.eq_ofNat_of_zero_le (show 0 ≤ -exponent by omega)
  have divides : mantissa = integral * 2 ^ steps := by
    rw [← neg_eq_iff_eq_neg.mpr deep.symm, zpow_neg, zpow_natCast] at magnitude
    rw [mul_inv_eq_iff_eq_mul₀ (by positivity)] at magnitude
    exact_mod_cast magnitude
  have large : 2 ^ 53 ≤ 2 ^ steps := Nat.pow_le_pow_right (by decide) (by omega)
  have least := Nat.le_of_dvd positive ⟨integral, divides.trans (mul_comm _ _)⟩
  omega

/--
The number of words and an integer in units of `2 ^ (-steps)`, the smaller of
their last places.
-/
theorem common_unit {mantissa integral : Nat} {exponent : Int}
    (magnitude : (mantissa * 2 ^ exponent : ℚ) = integral) :
    ∃ steps : Nat, min exponent (-20) = -(steps : Int) ∧
      mantissa * 2 ^ (exponent - min exponent (-20)).toNat = integral * 2 ^ steps ∧
      2 ^ 52 * 2 ^ (-20 - min exponent (-20)).toNat = 2 ^ 32 * 2 ^ steps := by
  obtain ⟨steps, unit⟩ := Int.eq_ofNat_of_zero_le (show 0 ≤ -min exponent (-20) by omega)
  obtain ⟨above, moved⟩ := Int.eq_ofNat_of_zero_le (show 0 ≤ exponent - min exponent (-20) by omega)
  refine ⟨steps, by omega, ?_, ?_⟩
  · have rational : (mantissa * 2 ^ above : ℚ) = integral * 2 ^ steps := by
      have place : (above : Int) = exponent + steps := by omega
      rw [← magnitude, ← zpow_natCast 2 above, place, zpow_add₀ two_ne_zero, zpow_natCast,
        mul_assoc]
    rw [moved, Int.toNat_natCast]
    exact_mod_cast rational
  · rw [← pow_add, ← pow_add]
    congr 1
    omega

/-- The remainder by the number of words is exact. -/
theorem standsFor_remainder {integer : Int} (stands : StandsFor number integer) :
    StandsFor (remainder number wordCount) (integer.tmod (2 ^ 32) : Int) := by
  obtain ⟨negative, mantissa, exponent, integral, exact, magnitude, rfl⟩ := stands.parts
  obtain ⟨small, -, most, ofZero⟩ := exact_bounds exact
  obtain ⟨steps, unit, scaled, modulus⟩ := common_unit magnitude
  have reading : remainder number wordCount =
      Dyadic.toFloat ⟨negative, mantissa * 2 ^ (exponent - min exponent (-20)).toNat %
        (2 ^ 52 * 2 ^ (-20 - min exponent (-20)).toNat), min exponent (-20)⟩ := by
    rw [remainder, exact, dyadic?_wordCount]
    rfl
  rw [reading, scaled, modulus, Nat.mul_mod_mul_right, unit]
  dsimp only at small most ofZero
  rcases Nat.eq_zero_or_pos mantissa with rfl | positive
  · have zero : integral = 0 := by
      rw [Nat.cast_zero, zero_mul] at magnitude
      exact_mod_cast magnitude.symm
    have deep : -(steps : Int) = -1074 := by
      rw [← unit, ofZero rfl]
      rfl
    rw [deep, zero, Nat.zero_mod, zero_mul, Nat.cast_zero, neg_zero, ite_self]
    exact_mod_cast standsFor_zero negative
  have least := exponent_of_integral magnitude small positive
  have fits : integral % 2 ^ 32 * 2 ^ steps < 2 ^ 53 := by
    rcases le_or_gt (-20) exponent with coarse | fine
    · have last : steps = 20 := by omega
      rw [last]
      omega
    · have own : (exponent - min exponent (-20)).toNat = 0 := by omega
      rw [own, pow_zero, mul_one] at scaled
      exact (Nat.mul_le_mul_right _ (Nat.mod_le _ _)).trans_lt (scaled ▸ small)
  have rest : (if negative then -(integral : Int) else integral).tmod (2 ^ 32) =
      if negative then -((integral % 2 ^ 32 : Nat) : Int) else (integral % 2 ^ 32 : Nat) := by
    cases negative with
    | false => rfl
    | true => exact Int.neg_tmod _ _
  rw [rest]
  exact standsFor_scaled negative fits (by omega)

/-! ## The nonnegative remainder -/

/-- An integer is below zero just if its double is. -/
theorem lt_zero_iff {integer : Int} (stands : StandsFor number integer) :
    number < 0.0 ↔ integer < 0 := by
  obtain ⟨value, exact, same⟩ := stands
  rw [lt_iff_order?, order?, show (0.0 : Float).toModel.unpack = .zero .positive from rfl]
  rw [dyadic?_eq_exactOf?] at exact
  rw [← Int.cast_lt_zero (R := ℚ), ← same, Dyadic.value]
  rcases Nat.eq_zero_or_pos value.mantissa with nothing | positive
  · obtain ⟨sign, zero⟩ := eq_zero_of_exactOf? exact nothing
    rw [zero, nothing]
    simp [Float.Model.UnpackedFloat.compare]
  · rw [eq_finite_of_exactOf? exact positive]
    have magnitude : (0 : ℚ) < value.mantissa * 2 ^ value.exponent := by positivity
    cases value.negative with
    | false => simp [signOf, Float.Model.UnpackedFloat.compare, magnitude.le]
    | true => simp [signOf, Float.Model.UnpackedFloat.compare, magnitude]

/-- Bringing an integer into the shape of a double loses nothing, in whatever unit it is given. -/
theorem normalize_scaled {magnitude : Nat} (positive : 0 < magnitude) (small : magnitude < 2 ^ 53)
    (steps : Nat) :
    normalize .binary64 (magnitude * 2 ^ steps : Nat) (-steps) .positive =
      ofMagnitude .positive magnitude positive := by
  have bound := log2_le positive small
  have full := log2_full positive small
  have low : -1074 ≤ (magnitude.log2 : Int) - 52 := by omega
  have scaled : 0 < magnitude * 2 ^ steps := by positivity
  have target : Format.targetExponent .binary64 (totalExponent (magnitude * 2 ^ steps) (-steps)) =
      magnitude.log2 - 52 := by
    rw [totalExponent, log2_shifted positive]
    change max ((((magnitude.log2 + steps : Nat) : Int) + 1 + -steps) - 53) (-1074) = _
    omega
  rw [UnpackedFloat.normalize, Int.compare_eq_gt.mpr (by omega)]
  simp only [Int.toNat_natCast, UnpackedFloat.round, target, decreaseExponent, Nat.shiftLeft_eq]
  -- The unit is too coarse for a mantissa of full length, or it is too fine.
  rcases le_total steps (52 - magnitude.log2) with coarse | fine
  · have rounded := roundWithAccuracy_exact .positive (by positivity) full low 0
    have amount : (-(steps : Int) - (magnitude.log2 - 52)).toNat = 52 - magnitude.log2 - steps := by
      omega
    have exponent : -(steps : Int) - (52 - magnitude.log2 - steps : Nat) = magnitude.log2 - 52 := by
      omega
    rw [pow_zero, mul_one, Nat.cast_zero, sub_zero] at rounded
    rw [amount, exponent, mul_assoc, ← pow_add, Nat.add_sub_of_le coarse, rounded]
    rfl
  · have rounded := roundWithAccuracy_exact .positive (by positivity) full low
      (steps - (52 - magnitude.log2))
    have amount : (-(steps : Int) - (magnitude.log2 - 52)).toNat = 0 := by omega
    have exponent :
        (magnitude.log2 : Int) - 52 - (steps - (52 - magnitude.log2) : Nat) = -steps := by
      omega
    rw [mul_assoc, ← pow_add, Nat.add_sub_of_le fine, exponent] at rounded
    rw [amount, pow_zero, mul_one, Nat.cast_zero, sub_zero, rounded]
    rfl

theorem abs_wordCount : wordCount.abs = wordCount := by
  decide +kernel

theorem unpack_wordCount :
    wordCount.toModel.unpack = .finite .positive (2 ^ 52) (-20) (by positivity) := by
  have exact := dyadic?_wordCount
  rw [dyadic?_eq_exactOf?] at exact
  exact eq_finite_of_exactOf? exact (by positivity)

/-- A negative remainder plus the number of words is exact. -/
theorem standsFor_add_wordCount {integer : Int} (stands : StandsFor number integer)
    (least : -2 ^ 32 < integer) (negative : integer < 0) :
    StandsFor (number + wordCount) (integer + 2 ^ 32 : Int) := by
  obtain ⟨sign, mantissa, exponent, integral, exact, magnitude, rfl⟩ := stands.parts
  obtain ⟨steps, unit, scaled, count⟩ := common_unit magnitude
  cases sign with
  | false => exact absurd negative (by simp only [Bool.false_eq_true, if_false]; omega)
  | true =>
      rw [if_pos rfl] at least negative ⊢
      have positive : 0 < mantissa := by
        rw [Nat.pos_iff_ne_zero]
        rintro rfl
        rw [Nat.cast_zero, zero_mul] at magnitude
        have zero : integral = 0 := by exact_mod_cast magnitude.symm
        omega
      rw [dyadic?_eq_exactOf?] at exact
      have unpacked := eq_finite_of_exactOf? exact positive
      obtain ⟨sum, total⟩ := Int.eq_ofNat_of_zero_le (show 0 ≤ -(integral : Int) + 2 ^ 32 by omega)
      have mantissas : -((integral * 2 ^ steps : Nat) : Int) + (2 ^ 32 * 2 ^ steps : Nat) =
          (sum * 2 ^ steps : Nat) := by
        push_cast
        rw [← neg_mul, ← add_mul]
        congr 1
      have added : (number + wordCount).toModel.unpack = ofMagnitude .positive sum (by omega) := by
        rw [← unpack_pack_ofMagnitude (by omega) (by omega),
          ← normalize_scaled (by omega) (by omega) steps, ← mantissas, ← scaled, ← count, ← unit]
        change (Float.Model.pack (UnpackedFloat.add .binary64 number.toModel.unpack
          wordCount.toModel.unpack)).unpack = _
        rw [unpacked, unpack_wordCount]
        simp only [UnpackedFloat.add, decreaseExponent, Nat.shiftLeft_eq]
        rfl
      obtain ⟨value, given, same⟩ :=
        exactOf?_ofMagnitude (show 0 < sum by omega) (by omega) .positive
      rw [total]
      exact ⟨value, by rw [dyadic?_eq_exactOf?, added, given], same⟩

/-- The Euclidean remainder by the number of words is exact. -/
theorem standsFor_euclideanRemainder {integer : Int} (stands : StandsFor number integer) :
    StandsFor (euclideanRemainder number wordCount) (integer % 2 ^ 32 : Int) := by
  have rest := standsFor_remainder stands
  have euclidean : integer % 2 ^ 32 =
      if integer.tmod (2 ^ 32) < 0 then integer.tmod (2 ^ 32) + 2 ^ 32
      else integer.tmod (2 ^ 32) := by
    rw [Int.tmod_eq_emod]
    split <;> split <;> omega
  rw [euclideanRemainder, abs_wordCount, euclidean]
  by_cases negative : integer.tmod (2 ^ 32) < 0
  · rw [if_pos ((lt_zero_iff rest).mpr negative), if_pos negative]
    exact standsFor_add_wordCount rest (Int.lt_tmod_of_pos _ (by decide)) negative
  · rw [if_neg fun below => negative ((lt_zero_iff rest).mp below), if_neg negative]
    exact rest

/-! ## The cast -/

theorem shiftRight_mantissa (extended : ExtendedMantissa) (steps : Nat) :
    (extended >>> steps).mantissa = extended.mantissa / 2 ^ steps := by
  induction steps with
  | zero => exact (Nat.div_one _).symm
  | succ steps ih =>
      change (extended >>> steps).mantissa / 2 = _
      rw [ih, Nat.div_div_eq_div_mul, pow_succ]

/-- Reading a finite number as an integer truncates it. -/
theorem toInt_unpack (exact : dyadic? number = some value) (least most : Int) :
    number.toModel.unpack.toInt least most = value.truncate := by
  rw [dyadic?_eq_exactOf?] at exact
  rcases Nat.eq_zero_or_pos value.mantissa with zero | positive
  · obtain ⟨sign, unpacked⟩ := eq_zero_of_exactOf? exact zero
    rw [unpacked, Dyadic.truncate, Dyadic.wholePart, zero, Nat.zero_mul, Nat.zero_div, ite_self,
      Nat.cast_zero, neg_zero, ite_self]
    rfl
  · rw [eq_finite_of_exactOf? exact positive]
    have magnitude :
        (ExtendedMantissa.ofMantissaAndAccuracy (value.mantissa <<< (value.exponent - 0).toNat)
          .exact >>> (0 - (value.exponent - (value.exponent - 0).toNat)).toNat).mantissa =
          value.wholePart := by
      rw [shiftRight_mantissa, Dyadic.wholePart, ExtendedMantissa.ofMantissaAndAccuracy,
        Nat.shiftLeft_eq, sub_zero]
      split
      case isTrue whole =>
        rw [Int.toNat_of_nonneg whole, sub_self, sub_zero, Int.toNat_zero, pow_zero, Nat.div_one]
        rfl
      case isFalse fractional =>
        rw [Int.toNat_of_nonpos (by omega), pow_zero, mul_one, Nat.cast_zero, sub_zero, zero_sub]
        rfl
    change (signOf value.negative).apply _ = _
    rw [magnitude, Dyadic.truncate]
    cases value.negative <;> rfl

/-- The cast of an integer below the number of words neither rounds nor saturates. -/
theorem toNat_toUInt32 {integer : Nat} (stands : StandsFor number integer)
    (small : integer < 2 ^ 32) : number.toUInt32.toNat = integer := by
  obtain ⟨value, exact, same⟩ := stands
  have truncated : value.truncate = integer :=
    Dyadic.truncate_of_value (by exact_mod_cast same)
  change (UInt32.ofNatClamp (number.toModel.unpack.toInt 0 (UInt32.size - 1)).toNat).toNat = _
  rw [toInt_unpack exact, truncated, Int.toNat_natCast]
  exact UInt32.toNat_ofNatClamp_of_lt small

theorem isFinite_eq_isSome_dyadic? (number : Float) :
    number.isFinite = (dyadic? number).isSome := by
  change number.toModel.unpack.isFinite = _
  rw [dyadic?_eq_exactOf?]
  cases number.toModel.unpack <;> rfl

/-- The word found in floating arithmetic is the word. -/
theorem reducedWord_eq_toWord (number : Float) : (reducedWord number).toBitVec = toWord number := by
  rw [reducedWord, toWord, isFinite_eq_isSome_dyadic?]
  cases exact : dyadic? number with
  | none => rfl
  | some value =>
      obtain ⟨rest, reduced⟩ := Int.eq_ofNat_of_zero_le (Int.emod_nonneg value.truncate
        (show (2 ^ 32 : Int) ≠ 0 by decide))
      have below := Int.emod_lt_of_pos value.truncate (show (0 : Int) < 2 ^ 32 by decide)
      have stands := standsFor_euclideanRemainder (standsFor_truncated exact)
      rw [reduced] at stands below
      refine BitVec.eq_of_toNat_eq ?_
      rw [BitVec.toNat_ofInt]
      change (euclideanRemainder (truncated number) wordCount).toUInt32.toNat = _
      rw [toNat_toUInt32 (by exact_mod_cast stands) (by exact_mod_cast below)]
      change rest = (value.truncate % 2 ^ 32).toNat
      rw [reduced]
      rfl

end Covenant.Number
