import Covenant.Literal.Operator
import Covenant.Proofs.Reduction

/-!
# Bitwise operators

The bits of a word are those of the integer that it is read as, the sign
standing in all places beyond the last one.  So the bitwise operators on words
are those on integers, and the shifts are products and quotients by powers of
two.  All results fit a double, and the distance of a shift is below 32.
-/

namespace Covenant.Number

/-! ## Bits -/

/-- Integers with the same bits are equal. -/
theorem eq_of_testBit {left right : Int}
    (same : ∀ place, left.testBit place = right.testBit place) : left = right := by
  -- A place beyond both magnitudes tells the signs.
  have beyond (magnitude other : Nat) :
      magnitude.testBit (magnitude + other) = false :=
    Nat.testBit_lt_two_pow ((Nat.le_add_right _ _).trans_lt Nat.lt_two_pow_self)
  cases left with
  | ofNat left =>
      cases right with
      | ofNat right => exact congrArg _ (Nat.eq_of_testBit_eq same)
      | negSucc right =>
          have sign : left.testBit (left + right) = !right.testBit (left + right) := same _
          rw [beyond, add_comm, beyond] at sign
          cases sign
  | negSucc left =>
      cases right with
      | ofNat right =>
          have sign : (!left.testBit (left + right)) = right.testBit (left + right) := same _
          rw [beyond, add_comm, beyond] at sign
          cases sign
      | negSucc right =>
          exact congrArg _ (Nat.eq_of_testBit_eq fun place => Bool.not_inj (same place))

variable {width : Nat} (word other : BitVec width)

/-- The bits of a word's signed value: those of the word, and its sign beyond them. -/
theorem testBit_toInt (place : Nat) :
    word.toInt.testBit place = if place < width then word.getLsbD place else word.msb := by
  rw [BitVec.toInt_eq_msb_cond]
  cases sign : word.msb with
  | false =>
      change word.toNat.testBit place = _
      rw [BitVec.testBit_toNat]
      split
      · rfl
      · exact BitVec.getLsbD_of_ge _ _ (by omega)
  | true =>
      have negated : (word.toNat : Int) - (2 ^ width : Nat) = Int.negSucc (~~~word).toNat := by
        rw [BitVec.toNat_not]
        have := word.isLt
        omega
      rw [if_pos rfl, negated]
      change (!(~~~word).toNat.testBit place) = _
      rw [BitVec.testBit_toNat, BitVec.getLsbD_not]
      split <;> simp_all

theorem toInt_and : (word &&& other).toInt = word.toInt.land other.toInt := by
  refine eq_of_testBit fun place => ?_
  rw [Int.testBit_land, testBit_toInt, testBit_toInt, testBit_toInt]
  split
  · exact BitVec.getLsbD_and
  · exact BitVec.msb_and

theorem toInt_or : (word ||| other).toInt = word.toInt.lor other.toInt := by
  refine eq_of_testBit fun place => ?_
  rw [Int.testBit_lor, testBit_toInt, testBit_toInt, testBit_toInt]
  split
  · exact BitVec.getLsbD_or
  · exact BitVec.msb_or

theorem toInt_xor : (word ^^^ other).toInt = word.toInt.xor other.toInt := by
  refine eq_of_testBit fun place => ?_
  rw [Int.testBit_lxor, testBit_toInt, testBit_toInt, testBit_toInt]
  split
  · exact BitVec.getLsbD_xor
  · exact BitVec.msb_xor

theorem toInt_not (positive : 0 < width) : (~~~word).toInt = word.toInt.lnot := by
  refine eq_of_testBit fun place => ?_
  rw [Int.testBit_lnot, testBit_toInt, testBit_toInt]
  split
  case isTrue inside => rw [BitVec.getLsbD_not, decide_eq_true inside, Bool.true_and]
  case isFalse => rw [BitVec.msb_not, decide_eq_true positive, Bool.true_and]

/-- A shift to the left multiplies, up to the number of words. -/
theorem toInt_shiftLeft (distance : Nat) :
    (word <<< distance).toInt = (word.toInt * 2 ^ distance).bmod (2 ^ width) := by
  rw [BitVec.toInt_shiftLeft, Nat.shiftLeft_eq, BitVec.toInt_eq_toNat_bmod, Int.bmod_mul_bmod]
  norm_cast

/-- A shift to the right divides the signed value and rounds down. -/
theorem toInt_sshiftRight (distance : Nat) :
    (word.sshiftRight distance).toInt = word.toInt / 2 ^ distance := by
  rw [BitVec.toInt_sshiftRight, Int.shiftRight_eq_div_pow]
  norm_cast

/-- A shift to the right without sign divides the unsigned value and rounds down. -/
theorem toNat_ushiftRight (distance : Nat) :
    (word >>> distance).toNat = word.toNat / 2 ^ distance := by
  rw [BitVec.toNat_ushiftRight, Nat.shiftRight_eq_div_pow]

end Covenant.Number

namespace Covenant

open Number

/-! ## Reduction -/

/-- A rational number rounded toward zero. -/
def truncation (value : ℚ) : Int :=
  if value < 0 then ⌈value⌉ else ⌊value⌋

/-- The whole part of a magnitude is the greatest integer in it. -/
theorem floor_magnitude (value : Number.Dyadic) :
    ⌊(value.mantissa * 2 ^ value.exponent : ℚ)⌋ = value.wholePart := by
  obtain ⟨negative, mantissa, exponent⟩ := value
  cases exponent with
  | ofNat power =>
      have whole : (mantissa * 2 ^ Int.ofNat power : ℚ) = (mantissa * 2 ^ power : Nat) := by simp
      rw [whole, Int.floor_natCast]
      rfl
  | negSucc power =>
      have quotient :
          (mantissa * 2 ^ Int.negSucc power : ℚ) = mantissa / (2 ^ (power + 1) : Nat) := by
        rw [zpow_negSucc, ← div_eq_mul_inv, Nat.cast_pow, Nat.cast_ofNat]
      rw [quotient, Rat.floor_natCast_div_natCast]
      rfl

/-- Dropping the fraction of an exact value rounds it toward zero. -/
theorem truncation_value (value : Number.Dyadic) : truncation value.value = value.truncate := by
  have floor := floor_magnitude value
  have magnitude : (0 : ℚ) ≤ value.mantissa * 2 ^ value.exponent := by positivity
  rw [Number.Dyadic.value, Number.Dyadic.truncate, truncation]
  cases value.negative with
  | false => simp only [Bool.false_eq_true, if_false, one_mul, if_neg magnitude.not_gt, floor]
  | true =>
      simp only [if_true, neg_one_mul, Int.ceil_neg, floor]
      split
      · rfl
      case isFalse vanishing =>
        have zero : (value.mantissa * 2 ^ value.exponent : ℚ) = 0 := by linarith
        rw [← floor, zero]
        rfl

/--
What the reduction of a number of a truncated value to a word does, step by
step: each step gives the double of the integer that it should, the last one
is in the range of the cast, and the cast gives the word.
-/
structure ReducesExactly (number : Float) (integer : Int) : Prop where
  truncated : StandsFor (truncated number) integer
  remainder : StandsFor (remainder (Number.truncated number) wordCount)
    (integer.tmod (2 ^ 32) : Int)
  euclidean : StandsFor (euclideanRemainder (Number.truncated number) wordCount)
    (integer % 2 ^ 32 : Int)
  fits : 0 ≤ integer % 2 ^ 32 ∧ integer % 2 ^ 32 < 2 ^ 32
  cast : (reducedWord number).toBitVec = toWord number
  unsigned : (toWord number).toNat = integer % 2 ^ 32
  signed : (toWord number).toInt % 2 ^ 32 = integer % 2 ^ 32
  signedFits : -2 ^ 31 ≤ (toWord number).toInt ∧ (toWord number).toInt < 2 ^ 31

theorem reducesExactly {number : Float} {value : ℚ} (stands : StandsFor number value) :
    ReducesExactly number (truncation value) := by
  obtain ⟨value, exact, rfl⟩ := stands
  rw [truncation_value]
  have whole := standsFor_truncated exact
  exact
    { truncated := whole
      remainder := standsFor_remainder whole
      euclidean := standsFor_euclideanRemainder whole
      fits := ⟨Int.emod_nonneg _ (by decide), Int.emod_lt_of_pos _ (by decide)⟩
      cast := reducedWord_eq_toWord number
      unsigned := by
        rw [toWord, exact, BitVec.toNat_ofInt]
        exact Int.toNat_of_nonneg (Int.emod_nonneg _ (by decide))
      signed := by
        rw [toWord, exact, BitVec.toInt_ofInt]
        exact Int.bmod_emod
      signedFits := ⟨BitVec.le_toInt _, BitVec.toInt_lt⟩ }

theorem exists_standsFor {number : Float} (finite : number.isFinite = true) :
    ∃ value, StandsFor number value := by
  rw [isFinite_eq_isSome_dyadic?, Option.isSome_iff_exists] at finite
  obtain ⟨value, exact⟩ := finite
  exact ⟨_, value, exact, rfl⟩

theorem toWord_of_not_finite {number : Float} (infinite : number.isFinite = false) :
    reducedWord number = 0 ∧ toWord number = 0 := by
  have word : reducedWord number = 0 := by rw [reducedWord, infinite, if_neg Bool.false_ne_true]
  exact ⟨word, by rw [← reducedWord_eq_toWord, word]; rfl⟩

/-! ## Operators -/

namespace Literal

/-- The integer that an operand's word is read as with a sign. -/
def signed (operand : Literal) : Int :=
  (toWord operand.toNumber).toInt

/-- The integer that an operand's word is read as without a sign. -/
def unsigned (operand : Literal) : Nat :=
  (toWord operand.toNumber).toNat

/-- A literal is the double of an integer, and that double stands for exactly the integer. -/
def IsInteger (literal : Literal) (integer : Int) : Prop :=
  literal = .number (Float.ofInt integer) ∧ StandsFor (Float.ofInt integer) integer

theorem isInteger_ofSigned {word : BitVec 32} {integer : Int} (read : word.toInt = integer) :
    IsInteger (.number (ofSigned word)) integer := by
  have least := BitVec.le_toInt word
  have most := word.toInt_lt
  subst read
  exact ⟨rfl, standsFor_ofInt (by omega)⟩

theorem isInteger_ofUnsigned {word : BitVec 32} {integer : Nat} (read : word.toNat = integer) :
    IsInteger (.number (ofUnsigned word)) integer := by
  have most := word.isLt
  subst read
  exact ⟨rfl, standsFor_ofInt (by omega)⟩

end Literal

namespace BinaryOperator

open Literal

/-- The result of an operator is the double of an integer. -/
def Gives (operator : BinaryOperator) (left right : Literal) (integer : Int) : Prop :=
  ∃ result, operator.result? left right = some result ∧ result.IsInteger integer

/--
What the operators on words give for two operands.  The distance of a shift is
the right operand's unsigned value modulo 32.
-/
structure OperatesExactly (left right : Literal) : Prop where
  bitAnd : bitAnd.Gives left right (left.signed.land right.signed)
  bitOr : bitOr.Gives left right (left.signed.lor right.signed)
  bitXor : bitXor.Gives left right (left.signed.xor right.signed)
  bitNot : (UnaryOperator.bitNot.apply left).IsInteger left.signed.lnot
  shl : shl.Gives left right ((left.signed * 2 ^ (right.unsigned % 32)).bmod (2 ^ 32))
  shr : shr.Gives left right (left.signed / 2 ^ (right.unsigned % 32))
  ushr : ushr.Gives left right (left.unsigned / 2 ^ (right.unsigned % 32) : Nat)

theorem operatesExactly (left right : Literal) : OperatesExactly left right where
  bitAnd := ⟨_, rfl, isInteger_ofSigned (toInt_and _ _)⟩
  bitOr := ⟨_, rfl, isInteger_ofSigned (toInt_or _ _)⟩
  bitXor := ⟨_, rfl, isInteger_ofSigned (toInt_xor _ _)⟩
  bitNot := isInteger_ofSigned (toInt_not _ (by decide))
  shl := ⟨_, rfl, isInteger_ofSigned (toInt_shiftLeft _ _)⟩
  shr := ⟨_, rfl, isInteger_ofSigned (toInt_sshiftRight _ _)⟩
  ushr := ⟨_, rfl, isInteger_ofUnsigned (toNat_ushiftRight _ _)⟩

/--
Bitwise operators are exact arithmetic on 32-bit words.  Every finite number is
reduced to the word of its truncated value, each step of the reduction in
floating arithmetic being exact; all other numbers have the word zero.  The
operators give what the same operations on the integers of the words give.
-/
theorem bitwise_operators_exact :
    (∀ number : Float, number.isFinite = true →
      ∃ value, StandsFor number value ∧ ReducesExactly number (truncation value)) ∧
    (∀ number : Float, number.isFinite = false → reducedWord number = 0 ∧ toWord number = 0) ∧
    ∀ left right : Literal, OperatesExactly left right := by
  refine ⟨fun number finite => ?_, fun number => toWord_of_not_finite, operatesExactly⟩
  obtain ⟨value, stands⟩ := exists_standsFor finite
  exact ⟨value, stands, reducesExactly stands⟩

end BinaryOperator

end Covenant
