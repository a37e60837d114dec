import Covenant.Number.Text

/-!
# The text of a number

A finite number is written as a numeral: digits, or digits with a point
between two of them, after a minus sign if the number is negative.  Infinities
and NaN are written as words.
-/

namespace Covenant.Number

/-- Digits, or digits with a point between two of them. -/
inductive IsNumeral : List Char → Prop where
  | whole {digits : List Char} (nonempty : digits ≠ [])
      (areDigits : ∀ digit ∈ digits, digit.isDigit = true) : IsNumeral digits
  | pointed {whole fraction : List Char} (nonempty : whole ≠ [])
      (areDigits : ∀ digit ∈ whole, digit.isDigit = true) (follows : fraction ≠ [])
      (follow : ∀ digit ∈ fraction, digit.isDigit = true) : IsNumeral (whole ++ '.' :: fraction)

/-- A numeral begins with a digit. -/
theorem IsNumeral.starts {text : List Char} (numeral : IsNumeral text) :
    ∃ digit tail, text = digit :: tail ∧ digit.isDigit = true := by
  cases numeral with
  | whole nonempty areDigits =>
      rcases List.exists_cons_of_ne_nil nonempty with ⟨digit, tail, rfl⟩
      exact ⟨digit, tail, rfl, areDigits digit List.mem_cons_self⟩
  | pointed nonempty areDigits =>
      rcases List.exists_cons_of_ne_nil nonempty with ⟨digit, tail, rfl⟩
      exact ⟨digit, _, rfl, areDigits digit List.mem_cons_self⟩

theorem isNumeral_toDigits (number : Nat) : IsNumeral (Nat.toDigits 10 number) :=
  .whole Nat.toDigits_ne_nil fun _ => Nat.isDigit_of_mem_toDigits (by decide) (by decide)

theorem Decimal.isDigit_of_mem_digits {decimal : Decimal} :
    ∀ digit ∈ decimal.digits, digit.isDigit = true :=
  fun _ => Nat.isDigit_of_mem_toDigits (by decide) (by decide)

theorem isDigit_of_mem_replicate {count : Nat} :
    ∀ digit ∈ List.replicate count '0', digit.isDigit = true := by
  intro digit among
  rw [List.eq_of_mem_replicate among]
  rfl

/-- Digits with zeros before or after them are digits. -/
theorem isDigit_of_mem_append {first second : List Char}
    (former : ∀ digit ∈ first, digit.isDigit = true)
    (latter : ∀ digit ∈ second, digit.isDigit = true) :
    ∀ digit ∈ first ++ second, digit.isDigit = true := by
  intro digit among
  rcases List.mem_append.mp among with among | among
  · exact former digit among
  · exact latter digit among

/-- Positional notation is a numeral. -/
theorem Decimal.isNumeral_positional (decimal : Decimal) : IsNumeral decimal.positional := by
  have some : 0 < decimal.digits.length := Nat.length_toDigits_pos
  unfold positional
  split
  case isTrue =>
    refine .whole (by simp [List.ne_nil_of_length_pos some]) ?_
    exact isDigit_of_mem_append isDigit_of_mem_digits isDigit_of_mem_replicate
  case isFalse fractional =>
    dsimp only
    split
    case isTrue short =>
      refine .pointed ?_ ?_ ?_ ?_
      · exact List.ne_nil_of_length_pos (by rw [List.length_take]; omega)
      · exact fun digit among => isDigit_of_mem_digits digit (List.mem_of_mem_take among)
      · exact List.ne_nil_of_length_pos (by rw [List.length_drop]; omega)
      · exact fun digit among => isDigit_of_mem_digits digit (List.mem_of_mem_drop among)
    case isFalse =>
      refine .pointed (List.cons_ne_nil '0' []) (List.forall_mem_singleton.mpr rfl) ?_ ?_
      · exact List.ne_nil_of_length_pos (by rw [List.length_append]; omega)
      · exact isDigit_of_mem_append isDigit_of_mem_replicate isDigit_of_mem_digits

/-- A finite number is written as a numeral, after a sign only if it is negative. -/
theorem toText_of_dyadic? {number : Float} {value : Dyadic} (finite : dyadic? number = some value) :
    ∃ negative digits, toText number = signed negative digits ∧ IsNumeral digits ∧
      (negative = true → value.negative = true) := by
  rw [toText, finite]
  dsimp only
  split
  case isTrue => exact ⟨false, ['0'], rfl, isNumeral_toDigits 0, nofun⟩
  split
  case isTrue => exact ⟨value.negative, _, rfl, isNumeral_toDigits _, id⟩
  case isFalse nonzero _ =>
    rw [shortestText, if_neg nonzero]
    exact ⟨value.negative, _, rfl, Decimal.isNumeral_positional _, id⟩

/-- Whether a number is finite, with its sign bit clear. -/
def isUnsigned (number : Float) : Bool :=
  (dyadic? number).isSome && !isNegative number

/-- The sign of a number's exact value is its sign bit. -/
theorem negative_of_dyadic? {number : Float} {value : Dyadic}
    (finite : dyadic? number = some value) : value.negative = isNegative number := by
  unfold dyadic? at finite
  dsimp only at finite
  split at finite
  · cases finite
  split at finite
  all_goals
    cases finite
    rfl

/-- A finite number without a sign is written as a numeral. -/
theorem isNumeral_toText {number : Float} (isUnsigned : isUnsigned number = true) :
    IsNumeral (toText number).toList := by
  simp only [Number.isUnsigned, Bool.and_eq_true, Option.isSome_iff_exists,
    Bool.not_eq_eq_eq_not, Bool.not_true] at isUnsigned
  rcases isUnsigned with ⟨⟨value, finite⟩, unsigned⟩
  rcases toText_of_dyadic? finite with ⟨negative, digits, written, numeral, sign⟩
  have positive : negative = false := by
    refine Bool.eq_false_iff.mpr fun isNegative => ?_
    rw [← negative_of_dyadic? finite, sign isNegative] at unsigned
    cases unsigned
  rw [written, signed, positive, String.toList_ofList]
  exact numeral

end Covenant.Number
