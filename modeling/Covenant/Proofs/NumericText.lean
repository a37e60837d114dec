import Covenant.Literal.Basic
import Covenant.Proofs.Definite

/-!
# Which texts are numbers

A text converts to a number other than NaN just if it is in numeric notation,
blanks around it aside: it may be empty, name infinity, or be in hexadecimal or
decimal notation.  What may stand after `0x` is less and more than hexadecimal
digits: the integer has to fit into 64 bits, and a plus sign is let through.
-/

namespace Covenant.Number

open Covenant.Text

/-! ## The grammar -/

/-- One or more characters of a class. -/
def AreSome (isIn : Char → Bool) (text : List Char) : Prop :=
  text ≠ [] ∧ ∀ character ∈ text, isIn character = true

/-- An optional sign. -/
inductive IsSign : List Char → Prop where
  | none : IsSign []
  | plus : IsSign ['+']
  | minus : IsSign ['-']

/-- Decimal digits with an optional point, at least one digit among them. -/
inductive IsSignificand : List Char → Prop where
  | whole {digits : List Char} (areDigits : AreSome Char.isDigit digits) : IsSignificand digits
  | pointed {whole fraction : List Char} (areDigits : AreSome Char.isDigit (whole ++ fraction)) :
      IsSignificand (whole ++ '.' :: fraction)

/-- An optional exponent: a mark, an optional sign and at least one digit. -/
inductive IsExponent : List Char → Prop where
  | none : IsExponent []
  | marked {mark : Char} {sign digits : List Char} (marks : mark = 'e' ∨ mark = 'E')
      (isSign : IsSign sign) (areDigits : AreSome Char.isDigit digits) :
      IsExponent (mark :: (sign ++ digits))

/-- Decimal notation without a sign. -/
def IsMagnitude (text : List Char) : Prop :=
  ∃ significand exponent, IsSignificand significand ∧ IsExponent exponent ∧
    text = significand ++ exponent

/-- Decimal notation. -/
def IsDecimal (text : List Char) : Prop :=
  ∃ sign magnitude, IsSign sign ∧ IsMagnitude magnitude ∧ text = sign ++ magnitude

/-- Whether a character is a hexadecimal digit. -/
def isHexDigit (character : Char) : Bool :=
  character.isDigit || decide ('a' ≤ character ∧ character ≤ 'f') ||
    decide ('A' ≤ character ∧ character ≤ 'F')

/-- The integer that hexadecimal digits stand for. -/
def hexInteger (digits : List Char) : Nat :=
  digits.foldl (fun read digit => 16 * read + (hexValue? digit).getD 0) 0

/--
The numeric notation, up to what may stand after `0x`: nothing at all, infinity
with an optional sign, hexadecimal notation, or decimal notation.
-/
inductive IsNumeric (isHex : List Char → Prop) : List Char → Prop where
  | empty : IsNumeric isHex []
  | infinite {sign : List Char} (isSign : IsSign sign) :
      IsNumeric isHex (sign ++ "Infinity".toList)
  | hexadecimal {mark : Char} {digits : List Char} (marks : mark = 'x' ∨ mark = 'X')
      (hex : isHex digits) : IsNumeric isHex ('0' :: mark :: digits)
  | decimal {text : List Char} (isDecimal : IsDecimal text) : IsNumeric isHex text

/--
What is read after `0x`: hexadecimal digits of an integer that fits into 64
bits, and a plus sign may stand before them.
-/
def IsReadableHex (text : List Char) : Prop :=
  ∃ plus digits, (plus = [] ∨ plus = ['+']) ∧ AreSome isHexDigit digits ∧
    hexInteger digits < 2 ^ 64 ∧ text = plus ++ digits

/-! ## Hexadecimal digits -/

theorem isSome_hexValue? (character : Char) :
    (hexValue? character).isSome = isHexDigit character := by
  rw [hexValue?, isHexDigit]
  split
  · simp_all
  split
  · simp_all
  split <;> simp_all

theorem hexInteger?_eq_some_iff {read value : Nat} {digits : List Char} :
    hexInteger? read digits = some value ↔
      (∀ digit ∈ digits, isHexDigit digit = true) ∧
        value = digits.foldl (fun read digit => 16 * read + (hexValue? digit).getD 0) read := by
  induction digits generalizing read with
  | nil =>
      rw [hexInteger?, Option.some.injEq]
      exact ⟨fun same => ⟨nofun, same.symm⟩, fun both => both.2.symm⟩
  | cons digit digits ih =>
      have known := isSome_hexValue? digit
      rw [List.forall_mem_cons, ← known, List.foldl_cons]
      cases found : hexValue? digit with
      | none =>
          rw [hexInteger?, found]
          simp
      | some number =>
          rw [hexInteger?, found]
          simp only [ih, Option.isSome_some, true_and, Option.getD_some]

theorem hexText?_of_unsigned {text : List Char} (unsigned : ∀ rest, text ≠ '+' :: rest) :
    hexText? text = if text.isEmpty then none else hexInteger? 0 text := by
  unfold hexText?
  split
  · exact absurd rfl (unsigned _)
  · rfl

theorem hexDigits_eq_some_iff {text : List Char} {value : Nat} :
    (if text.isEmpty then none else hexInteger? 0 text) = some value ↔
      AreSome isHexDigit text ∧ value = hexInteger text := by
  cases text with
  | nil => simp [AreSome]
  | cons first rest =>
      rw [List.isEmpty_cons, if_neg Bool.false_ne_true, hexInteger?_eq_some_iff, AreSome,
        hexInteger]
      simp

/-- What is read after `0x`. -/
theorem hexText?_eq_some_iff {text : List Char} {value : Nat} :
    hexText? text = some value ↔
      ∃ plus digits, (plus = [] ∨ plus = ['+']) ∧ AreSome isHexDigit digits ∧
        value = hexInteger digits ∧ text = plus ++ digits := by
  constructor
  · intro reads
    by_cases signed : ∃ rest, text = '+' :: rest
    · obtain ⟨rest, rfl⟩ := signed
      obtain ⟨digits, number⟩ := hexDigits_eq_some_iff.mp reads
      exact ⟨['+'], rest, .inr rfl, digits, number, rfl⟩
    · rw [hexText?_of_unsigned fun rest same => signed ⟨rest, same⟩] at reads
      obtain ⟨digits, number⟩ := hexDigits_eq_some_iff.mp reads
      exact ⟨[], text, .inl rfl, digits, number, rfl⟩
  · rintro ⟨plus, digits, rfl | rfl, some, number, rfl⟩
    · have unsigned : ∀ rest, text ≠ '+' :: rest := by
        rintro rest rfl
        exact absurd (some.2 '+' List.mem_cons_self) (by decide)
      rw [hexText?_of_unsigned unsigned]
      exact hexDigits_eq_some_iff.mpr ⟨some, number⟩
    · exact hexDigits_eq_some_iff.mpr ⟨some, number⟩

/-! ## Decimal notation -/

variable {text : List Char}

theorem takeWhile_isDigit_append {digits rest : List Char}
    (areDigits : ∀ digit ∈ digits, digit.isDigit = true)
    (ends : ∀ next ∈ rest.head?, next.isDigit = false) :
    (digits ++ rest).takeWhile Char.isDigit = digits ∧
      (digits ++ rest).dropWhile Char.isDigit = rest := by
  rw [List.takeWhile_append_of_pos areDigits, List.dropWhile_append_of_pos areDigits]
  cases rest with
  | nil => simp
  | cons next rest => simp [ends next rfl]

/-- Digits after a sign, if there are any and nothing else. -/
def magnitudeText? (negative : Bool) (digits : List Char) : Option Int :=
  if digits.isEmpty || !digits.all Char.isDigit then none
  else some (if negative then -(decimalInteger digits : Int) else decimalInteger digits)

theorem isSome_magnitudeText? {negative : Bool} :
    (magnitudeText? negative text).isSome = true ↔ AreSome Char.isDigit text := by
  rw [magnitudeText?, AreSome]
  split
  case isTrue other => grind
  case isFalse digits => grind

theorem exponentText?_of_unsigned (unsigned : ∀ rest, text ≠ '-' :: rest ∧ text ≠ '+' :: rest) :
    exponentText? text = magnitudeText? false text := by
  unfold exponentText?
  split
  rename_i split
  split at split
  · exact absurd rfl (unsigned _).1
  · exact absurd rfl (unsigned _).2
  · cases split
    rfl

/-- What is read after an exponent mark. -/
theorem isSome_exponentText? :
    (exponentText? text).isSome = true ↔
      ∃ sign digits, IsSign sign ∧ AreSome Char.isDigit digits ∧ text = sign ++ digits := by
  constructor
  · intro reads
    by_cases minus : ∃ rest, text = '-' :: rest
    · obtain ⟨rest, rfl⟩ := minus
      exact ⟨['-'], rest, .minus, isSome_magnitudeText?.mp reads, rfl⟩
    by_cases plus : ∃ rest, text = '+' :: rest
    · obtain ⟨rest, rfl⟩ := plus
      exact ⟨['+'], rest, .plus, isSome_magnitudeText?.mp reads, rfl⟩
    rw [exponentText?_of_unsigned fun rest =>
      ⟨fun same => minus ⟨rest, same⟩, fun same => plus ⟨rest, same⟩⟩] at reads
    exact ⟨[], text, .none, isSome_magnitudeText?.mp reads, rfl⟩
  · rintro ⟨sign, digits, isSign, areDigits, rfl⟩
    cases isSign with
    | none =>
        have unsigned : ∀ rest, digits ≠ '-' :: rest ∧ digits ≠ '+' :: rest := by
          refine fun rest => ⟨?_, ?_⟩ <;>
          · rintro rfl
            exact absurd (areDigits.2 _ List.mem_cons_self) (by decide)
        rw [List.nil_append, exponentText?_of_unsigned unsigned]
        exact isSome_magnitudeText?.mpr areDigits
    | plus => exact isSome_magnitudeText?.mpr areDigits
    | minus => exact isSome_magnitudeText?.mpr areDigits

/-- The decimal of digits before and after a point, and of what follows them. -/
def decimalOf? (whole fraction rest : List Char) : Option Decimal :=
  let significand := decimalInteger (whole ++ fraction)
  if whole.isEmpty && fraction.isEmpty then
    none
  else
    match rest with
    | [] => some ⟨significand, -(fraction.length : Int)⟩
    | mark :: tail =>
      if mark = 'e' ∨ mark = 'E' then
        (exponentText? tail).map fun exponent => ⟨significand, exponent - fraction.length⟩
      else
        none

theorem isSome_decimalOf? {whole fraction rest : List Char} :
    (decimalOf? whole fraction rest).isSome = true ↔
      whole ++ fraction ≠ [] ∧ IsExponent rest := by
  unfold decimalOf?
  dsimp only
  split
  case isTrue neither =>
    refine iff_of_false Bool.false_ne_true fun both => both.1 ?_
    simpa using neither
  case isFalse some =>
    have nonempty : whole ++ fraction ≠ [] := by simpa using some
    rw [and_iff_right nonempty]
    cases rest with
    | nil => exact iff_of_true rfl .none
    | cons mark tail =>
        dsimp only
        split
        case isTrue marks =>
          rw [Option.isSome_map, isSome_exponentText?]
          constructor
          · rintro ⟨sign, digits, isSign, areDigits, rfl⟩
            exact .marked marks isSign areDigits
          · rintro (_ | ⟨_, isSign, areDigits⟩)
            exact ⟨_, _, isSign, areDigits, rfl⟩
        case isFalse unmarked =>
          refine iff_of_false Bool.false_ne_true ?_
          rintro (_ | ⟨marks, _, _⟩)
          exact unmarked marks

theorem unsignedDecimal?_pointed {tail : List Char}
    (pointed : text.dropWhile Char.isDigit = '.' :: tail) :
    unsignedDecimal? text =
      decimalOf? (text.takeWhile Char.isDigit) (tail.takeWhile Char.isDigit)
        (tail.dropWhile Char.isDigit) := by
  rw [unsignedDecimal?, pointed]
  rfl

theorem unsignedDecimal?_whole (whole : ∀ tail, text.dropWhile Char.isDigit ≠ '.' :: tail) :
    unsignedDecimal? text =
      decimalOf? (text.takeWhile Char.isDigit) [] (text.dropWhile Char.isDigit) := by
  rw [unsignedDecimal?]
  dsimp only
  split
  case h_1 tail pointed => exact absurd pointed (whole tail)
  case h_2 => rfl

/-- An exponent goes on neither with digits nor with a point. -/
theorem IsExponent.ends (exponent : IsExponent text) :
    ∀ next ∈ text.head?, next.isDigit = false ∧ next ≠ '.' := by
  rintro next found
  rcases exponent with _ | ⟨rfl | rfl, _, _⟩ <;> cases found <;> decide

theorem isDigit_of_mem_takeWhile :
    ∀ digit ∈ text.takeWhile Char.isDigit, digit.isDigit = true :=
  fun _ => List.mem_takeWhile_imp

/-- Decimal notation without a sign is what is read as such. -/
theorem isSome_unsignedDecimal? : (unsignedDecimal? text).isSome = true ↔ IsMagnitude text := by
  have parts := List.takeWhile_append_dropWhile (p := Char.isDigit) (l := text)
  constructor
  · intro reads
    by_cases point : ∃ tail, text.dropWhile Char.isDigit = '.' :: tail
    · obtain ⟨tail, pointed⟩ := point
      rw [unsignedDecimal?_pointed pointed, isSome_decimalOf?] at reads
      obtain ⟨nonempty, exponent⟩ := reads
      refine ⟨_, _, .pointed ⟨nonempty, ?_⟩, exponent, ?_⟩
      · exact List.forall_mem_append.mpr ⟨isDigit_of_mem_takeWhile, isDigit_of_mem_takeWhile⟩
      · rw [List.append_assoc, List.cons_append, List.takeWhile_append_dropWhile, ← pointed, parts]
    · have whole : ∀ tail, text.dropWhile Char.isDigit ≠ '.' :: tail :=
        fun tail same => point ⟨tail, same⟩
      rw [unsignedDecimal?_whole whole, isSome_decimalOf?, List.append_nil] at reads
      exact ⟨_, _, .whole ⟨reads.1, isDigit_of_mem_takeWhile⟩, reads.2, parts.symm⟩
  · rintro ⟨significand, exponent, isSignificand, isExponent, rfl⟩
    have ends (next : Char) (first : next ∈ exponent.head?) := isExponent.ends next first
    cases isSignificand with
    | whole areDigits =>
        obtain ⟨taken, left⟩ :=
          takeWhile_isDigit_append areDigits.2 fun next first => (ends next first).1
        have whole : ∀ tail, (significand ++ exponent).dropWhile Char.isDigit ≠ '.' :: tail := by
          intro tail same
          rw [left] at same
          exact (ends '.' (by rw [same]; rfl)).2 rfl
        rw [unsignedDecimal?_whole whole, isSome_decimalOf?, taken, left, List.append_nil]
        exact ⟨areDigits.1, isExponent⟩
    | @pointed whole fraction areDigits =>
        obtain ⟨wholeDigits, fractionDigits⟩ := List.forall_mem_append.mp areDigits.2
        have point : ∀ next ∈ ('.' :: (fraction ++ exponent)).head?, next.isDigit = false := by
          rintro next ⟨⟩
          rfl
        obtain ⟨taken, left⟩ := takeWhile_isDigit_append wholeDigits point
        obtain ⟨takenAfter, leftAfter⟩ :=
          takeWhile_isDigit_append fractionDigits fun next first => (ends next first).1
        rw [List.append_assoc, List.cons_append, unsignedDecimal?_pointed left,
          isSome_decimalOf?, taken, takenAfter, leftAfter]
        exact ⟨areDigits.1, isExponent⟩

/-- What begins with a sign is no decimal notation without one. -/
theorem IsMagnitude.unsigned (magnitude : IsMagnitude text) (rest : List Char) :
    text ≠ '-' :: rest ∧ text ≠ '+' :: rest := by
  have starts : ∀ first ∈ text.head?, first.isDigit = true ∨ first = '.' := by
    obtain ⟨significand, exponent, isSignificand, isExponent, rfl⟩ := magnitude
    cases isSignificand with
    | whole areDigits =>
        obtain ⟨first, digits, rfl⟩ := List.exists_cons_of_ne_nil areDigits.1
        rintro next ⟨⟩
        exact .inl (areDigits.2 first List.mem_cons_self)
    | @pointed whole fraction areDigits =>
        cases whole with
        | nil =>
            rintro next ⟨⟩
            exact .inr rfl
        | cons first digits =>
            rintro next ⟨⟩
            exact .inl (areDigits.2 first List.mem_cons_self)
  refine ⟨?_, ?_⟩ <;>
  · rintro rfl
    exact absurd (starts _ rfl) (by decide)

theorem decimalText?_of_unsigned (unsigned : ∀ rest, text ≠ '-' :: rest ∧ text ≠ '+' :: rest) :
    decimalText? text = (unsignedDecimal? text).map ofDecimal := by
  unfold decimalText?
  split
  · exact absurd rfl (unsigned _).1
  · exact absurd rfl (unsigned _).2
  · rfl

/-- Decimal notation is what is read as such. -/
theorem isSome_decimalText? : (decimalText? text).isSome = true ↔ IsDecimal text := by
  constructor
  · intro reads
    by_cases minus : ∃ rest, text = '-' :: rest
    · obtain ⟨rest, rfl⟩ := minus
      rw [decimalText?, Option.isSome_map, isSome_unsignedDecimal?] at reads
      exact ⟨['-'], rest, .minus, reads, rfl⟩
    by_cases plus : ∃ rest, text = '+' :: rest
    · obtain ⟨rest, rfl⟩ := plus
      rw [decimalText?, Option.isSome_map, isSome_unsignedDecimal?] at reads
      exact ⟨['+'], rest, .plus, reads, rfl⟩
    rw [decimalText?_of_unsigned fun rest =>
      ⟨fun same => minus ⟨rest, same⟩, fun same => plus ⟨rest, same⟩⟩, Option.isSome_map,
      isSome_unsignedDecimal?] at reads
    exact ⟨[], text, .none, reads, rfl⟩
  · rintro ⟨sign, magnitude, isSign, isMagnitude, rfl⟩
    have reads := isSome_unsignedDecimal?.mpr isMagnitude
    cases isSign with
    | none =>
        rw [List.nil_append, decimalText?_of_unsigned isMagnitude.unsigned, Option.isSome_map]
        exact reads
    | plus | minus =>
        rw [List.singleton_append, decimalText?, Option.isSome_map]
        exact reads

theorem isNaN_of_decimalText? {number : Float} (reads : decimalText? text = some number) :
    number.isNaN = false := by
  unfold decimalText? at reads
  split at reads <;> rw [Option.map_eq_some_iff] at reads <;> obtain ⟨decimal, -, rfl⟩ := reads
  · rw [isNaN_neg, isNaN_ofDecimal]
  · exact isNaN_ofDecimal decimal
  · exact isNaN_ofDecimal decimal

/-- The characters of decimal notation. -/
theorem IsDecimal.characters (decimal : IsDecimal text) :
    ∀ character ∈ text, character.isDigit = true ∨ character ∈ ['+', '-', '.', 'e', 'E'] := by
  obtain ⟨sign, _, isSign, ⟨significand, exponent, isSignificand, isExponent, rfl⟩, rfl⟩ := decimal
  have signs {sign : List Char} (isSign : IsSign sign) : ∀ character ∈ sign,
      character.isDigit = true ∨ character ∈ ['+', '-', '.', 'e', 'E'] := by
    cases isSign <;> simp
  rw [List.forall_mem_append, List.forall_mem_append]
  refine ⟨signs isSign, ?_, ?_⟩
  · cases isSignificand with
    | whole areDigits => exact fun digit among => .inl (areDigits.2 digit among)
    | pointed areDigits =>
        obtain ⟨whole, fraction⟩ := List.forall_mem_append.mp areDigits.2
        rw [List.forall_mem_append, List.forall_mem_cons]
        exact ⟨fun digit among => .inl (whole digit among), .inr (by decide),
          fun digit among => .inl (fraction digit among)⟩
  · cases isExponent with
    | none => exact nofun
    | marked marks isSign areDigits =>
        rw [List.forall_mem_cons, List.forall_mem_append]
        exact ⟨.inr (by rcases marks with rfl | rfl <;> decide), signs isSign,
          fun digit among => .inl (areDigits.2 digit among)⟩

/-! ## Texts -/

/-- The words for infinity are one word behind the signs. -/
theorem signed_infinity :
    "+Infinity".toList = ['+'] ++ "Infinity".toList ∧
      "-Infinity".toList = ['-'] ++ "Infinity".toList := by
  decide

/-- Infinity is not written with a digit at the front. -/
theorem ne_infinity_of_digit {sign rest : List Char} (isSign : IsSign sign) :
    '0' :: rest ≠ sign ++ "Infinity".toList := by
  rw [show "Infinity".toList = 'I' :: "nfinity".toList from rfl]
  cases isSign <;> simp

/-- What may stand after `0x` does not matter to a text that does not begin with it. -/
theorem isNumeric_of_not_hexadecimal {isHex isOtherHex : List Char → Prop}
    (other : ∀ mark digits, mark = 'x' ∨ mark = 'X' → text ≠ '0' :: mark :: digits) :
    IsNumeric isHex text ↔ IsNumeric isOtherHex text := by
  have transfer {isHex isOtherHex : List Char → Prop} (numeric : IsNumeric isHex text) :
      IsNumeric isOtherHex text := by
    cases numeric with
    | empty => exact .empty
    | infinite isSign => exact .infinite isSign
    | hexadecimal marks _ => exact absurd rfl (other _ _ marks)
    | decimal decimal => exact .decimal decimal
  exact ⟨transfer, transfer⟩

/-- What follows `0x` decides whether a text that begins with it is numeric. -/
theorem isNumeric_hexadecimal {isHex : List Char → Prop} {mark : Char} {digits : List Char}
    (marks : mark = 'x' ∨ mark = 'X') :
    IsNumeric isHex ('0' :: mark :: digits) ↔ isHex digits := by
  refine ⟨fun numeric => ?_, .hexadecimal marks⟩
  generalize same : '0' :: mark :: digits = text at numeric
  cases numeric with
  | empty => cases same
  | infinite isSign => exact absurd same (ne_infinity_of_digit isSign)
  | hexadecimal _ hex =>
      cases same
      exact hex
  | decimal decimal =>
      subst same
      have among := decimal.characters mark (List.mem_cons_of_mem _ List.mem_cons_self)
      rcases marks with rfl | rfl <;> exact absurd among (by decide)

/-- The number of a text that is no word for infinity. -/
def ofFinite (text : List Char) : Float :=
  match text with
  | [] => 0.0
  | '0' :: 'x' :: digits | '0' :: 'X' :: digits =>
    match hexText? digits with
    | some integer => if integer < Nat.pow 2 64 then Float.ofNat integer else nan
    | none => nan
  | _ => (decimalText? text).getD nan

theorem ofTrimmed_of_finite (finite : ∀ sign, IsSign sign → text ≠ sign ++ "Infinity".toList) :
    ofTrimmed text = ofFinite text := by
  have unsigned := finite [] .none
  rw [List.nil_append] at unsigned
  have positive : ¬ (text = "Infinity".toList ∨ text = "+Infinity".toList) := by
    rw [signed_infinity.1]
    exact not_or.mpr ⟨unsigned, finite ['+'] .plus⟩
  have negative : ¬ text = "-Infinity".toList := by
    rw [signed_infinity.2]
    exact finite ['-'] .minus
  unfold ofTrimmed
  exact (if_neg positive).trans (if_neg negative)

theorem isNaN_ofTrimmed_hex {mark : Char} (marks : mark = 'x' ∨ mark = 'X')
    (digits : List Char) :
    (ofTrimmed ('0' :: mark :: digits)).isNaN = false ↔ IsReadableHex digits := by
  have reading : ofTrimmed ('0' :: mark :: digits) =
      match hexText? digits with
      | some integer => if integer < Nat.pow 2 64 then Float.ofNat integer else nan
      | none => nan := by
    rw [ofTrimmed_of_finite fun sign isSign => ne_infinity_of_digit isSign]
    rcases marks with rfl | rfl <;> rfl
  rw [reading]
  constructor
  · intro definite
    cases reads : hexText? digits with
    | none =>
        rw [reads] at definite
        cases definite
    | some integer =>
        obtain ⟨plus, rest, isPlus, areDigits, rfl, rfl⟩ := hexText?_eq_some_iff.mp reads
        refine ⟨plus, rest, isPlus, areDigits, ?_, rfl⟩
        by_contra large
        simp only [reads, if_neg (show ¬ hexInteger rest < Nat.pow 2 64 from large)] at definite
        cases definite
  · rintro ⟨plus, rest, isPlus, areDigits, small, rfl⟩
    rw [hexText?_eq_some_iff.mpr ⟨plus, rest, isPlus, areDigits, rfl, rfl⟩]
    simp only [if_pos (show hexInteger rest < Nat.pow 2 64 from small)]
    exact isNaN_ofNat _

/-- A text without blanks around it is a number just if it is in numeric notation. -/
theorem isNaN_ofTrimmed : (ofTrimmed text).isNaN = false ↔ IsNumeric IsReadableHex text := by
  by_cases infinite : ∃ sign, IsSign sign ∧ text = sign ++ "Infinity".toList
  · obtain ⟨sign, isSign, rfl⟩ := infinite
    refine iff_of_true ?_ (.infinite isSign)
    cases isSign with
    | none | plus => exact isNaN_infinity
    | minus => exact (isNaN_neg _).trans isNaN_infinity
  by_cases empty : text = []
  · rw [empty]
    exact iff_of_true isNaN_zero .empty
  by_cases hex : ∃ mark digits, (mark = 'x' ∨ mark = 'X') ∧ text = '0' :: mark :: digits
  · obtain ⟨mark, digits, marks, rfl⟩ := hex
    rw [isNaN_ofTrimmed_hex marks, isNumeric_hexadecimal marks]
  have reading : ofTrimmed text = (decimalText? text).getD nan := by
    rw [ofTrimmed_of_finite fun sign isSign same => infinite ⟨sign, isSign, same⟩]
    unfold ofFinite
    split
    · exact absurd rfl empty
    · exact absurd ⟨'x', _, .inl rfl, rfl⟩ hex
    · exact absurd ⟨'X', _, .inr rfl, rfl⟩ hex
    · rfl
  have numeric : IsNumeric IsReadableHex text ↔ IsDecimal text := by
    refine ⟨fun numeric => ?_, .decimal⟩
    cases numeric with
    | empty => exact absurd rfl empty
    | infinite isSign => exact absurd ⟨_, isSign, rfl⟩ infinite
    | hexadecimal marks _ => exact absurd ⟨_, _, marks, rfl⟩ hex
    | decimal decimal => exact decimal
  rw [reading, numeric, ← isSome_decimalText?]
  cases reads : decimalText? text with
  | none => exact iff_of_false (by decide) (by decide)
  | some number => exact iff_of_true (isNaN_of_decimalText? reads) rfl

end Covenant.Number

namespace Covenant.Literal

open Number Text

/--
A text converts to a number other than NaN just if it is in numeric notation,
blanks around it aside.
-/
theorem isNaN_toNumber_string (text : String) :
    (string text).toNumber.isNaN = false ↔ IsNumeric IsReadableHex (trimBlank text.toList) :=
  isNaN_ofTrimmed

/--
Up to hexadecimal notation the numbers are the texts of the language's own
notation, in which hexadecimal digits and nothing else stand after `0x`.
-/
theorem isNaN_toNumber_string_of_not_hexadecimal (text : String)
    (other : ∀ mark digits, mark = 'x' ∨ mark = 'X' →
      trimBlank text.toList ≠ '0' :: mark :: digits) :
    (string text).toNumber.isNaN = false ↔
      IsNumeric (AreSome isHexDigit) (trimBlank text.toList) :=
  (isNaN_toNumber_string text).trans (isNumeric_of_not_hexadecimal other)

-- The two ways in which hexadecimal notation departs from that.
example : (string "0x+1f").toNumber = 31.0 := by decide +kernel

example : (string "0x10000000000000000").toNumber.isNaN = true := by decide +kernel

end Covenant.Literal
