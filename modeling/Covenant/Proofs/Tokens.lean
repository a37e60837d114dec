import Covenant.Json.Reader
import Covenant.Json.Writer

/-!
# Tokens read back

Every word that the writer puts down is read as one token, whatever follows
it: a text between its quotes, a punctuation mark, and a number that is not
followed by a character that could go on with it.  The numerals themselves
are read with a bounded significand, so that not every double is read back
from its own text; those that are say so.
-/

namespace Covenant.Json

/-! ## Texts -/

theorem hexValue?_hexDigit {digit : Nat} (small : digit < 16) :
    Number.hexValue? (Text.hexDigit digit) = some digit :=
  (by decide : ∀ digit : Fin 16, Number.hexValue? (Text.hexDigit digit) = some digit.val)
    ⟨digit, small⟩

/-- Four hexadecimal digits are read as the number they were written for. -/
theorem codeUnit?_hexDigits {number : Nat} (small : number < 0x10000) :
    codeUnit? (Text.hexDigit (number / 0x1000 % 0x10)) (Text.hexDigit (number / 0x100 % 0x10))
      (Text.hexDigit (number / 0x10 % 0x10)) (Text.hexDigit (number % 0x10)) = some number := by
  have digits (place : Nat) : place % 0x10 < 16 := Nat.mod_lt place (by decide)
  simp only [codeUnit?, Number.hexInteger?, hexValue?_hexDigit (digits _), Option.some.injEq]
  omega

/-- A character of a text is read back from the way it is written. -/
theorem readText?_writeChar (read : List Char) (character : Char) (rest : List Char) :
    readText? read (writeChar character ++ rest) = readText? (character :: read) rest := by
  unfold writeChar
  split
  case h_8 plainQuote plainBackslash _ _ _ _ _ =>
    split
    case isTrue control =>
      have code : codeUnit? _ _ _ _ = some character.toNat :=
        codeUnit?_hexDigits (Nat.lt_trans control (by decide))
      have below : ¬ 0xd800 ≤ character.toNat := by omega
      have above : ¬ 0xdc00 ≤ character.toNat := by omega
      simp [Text.hexDigits, readText?, code, below, above, Char.ofNat_toNat]
    case isFalse visible =>
      rw [List.singleton_append, readText?]
      · rw [if_neg visible]
      all_goals simp_all
  all_goals simp [readText?, escapedChar?]

/-- The characters of a text are read back up to the closing quote. -/
theorem readText?_flatMap_writeChar (read text rest : List Char) :
    readText? read (text.flatMap writeChar ++ '"' :: rest) =
      some (String.ofList (read.reverse ++ text), rest) := by
  induction text generalizing read with
  | nil => simp [readText?]
  | cons character text ih =>
      rw [List.flatMap_cons, List.append_assoc, readText?_writeChar, ih]
      simp

/-! ## Numerals -/

/-- What comes next does not go on with a numeral. -/
def EndsNumeral (rest : List Char) : Prop :=
  ∀ next ∈ rest.head?, next.isDigit = false ∧ next ≠ '.' ∧ next ≠ 'e' ∧ next ≠ 'E'

theorem EndsNumeral.nil : EndsNumeral [] := by
  intro next found
  cases found

theorem EndsNumeral.cons {next : Char} {rest : List Char}
    (ends : next.isDigit = false ∧ next ≠ '.' ∧ next ≠ 'e' ∧ next ≠ 'E') :
    EndsNumeral (next :: rest) := by
  intro found same
  cases same
  exact ends

variable {rest : List Char}

theorem spanDigits_append (ends : EndsNumeral rest) (text : List Char) :
    spanDigits (text ++ rest) = ((spanDigits text).1, (spanDigits text).2 ++ rest) := by
  induction text with
  | nil =>
      cases rest with
      | nil => rfl
      | cons next rest =>
          have stops : next.isDigit = false := (ends next rfl).1
          simp [spanDigits, stops]
  | cons digit text ih =>
      simp only [spanDigits, Prod.mk.injEq] at ih
      cases isDigit : digit.isDigit <;>
        simp [spanDigits, isDigit, ih]

theorem readFraction?_append (ends : EndsNumeral rest) {text unread : List Char}
    {fraction? : Option (List Char)} (reads : readFraction? text = some (fraction?, unread)) :
    readFraction? (text ++ rest) = some (fraction?, unread ++ rest) := by
  unfold readFraction? at reads
  split at reads
  case h_1 text =>
    simp only at reads
    split at reads
    case isTrue => cases reads
    case isFalse digits =>
      cases reads
      simp [readFraction?, spanDigits_append ends, digits]
  case h_2 other =>
    cases reads
    refine readFraction?.eq_2 _ fun tail shape => ?_
    cases text with
    | nil => exact (ends '.' (by rw [List.nil_append] at shape; rw [shape]; rfl)).2.1 rfl
    | cons head text => exact other text (by cases shape; rfl)

/-- What an exponent says after its mark and its sign. -/
def readMagnitude? (negative : Bool) (text : List Char) : Option (Option Int × List Char) :=
  let magnitude : Int := Number.decimalInteger (spanDigits text).1
  if (spanDigits text).1.isEmpty then none
  else some (some (if negative then -magnitude else magnitude), (spanDigits text).2)

theorem readExponent?_of_unmarked {mark : Char} (text : List Char)
    (unmarked : ¬ (mark = 'e' ∨ mark = 'E')) :
    readExponent? (mark :: text) = some (none, mark :: text) :=
  if_neg unmarked

theorem readExponent?_negative {mark : Char} (text : List Char)
    (marks : mark = 'e' ∨ mark = 'E') :
    readExponent? (mark :: '-' :: text) = readMagnitude? true text :=
  if_pos marks

theorem readExponent?_positive {mark : Char} (text : List Char)
    (marks : mark = 'e' ∨ mark = 'E') :
    readExponent? (mark :: '+' :: text) = readMagnitude? false text :=
  if_pos marks

theorem readExponent?_unsigned {mark digit : Char} (text : List Char)
    (marks : mark = 'e' ∨ mark = 'E') (minus : digit ≠ '-') (plus : digit ≠ '+') :
    readExponent? (mark :: digit :: text) = readMagnitude? false (digit :: text) := by
  simp [readExponent?, readMagnitude?, marks, minus, plus]

theorem readMagnitude?_append (ends : EndsNumeral rest) {negative : Bool}
    {text unread : List Char} {exponent? : Option Int}
    (reads : readMagnitude? negative text = some (exponent?, unread)) :
    readMagnitude? negative (text ++ rest) = some (exponent?, unread ++ rest) := by
  unfold readMagnitude? at reads ⊢
  rw [spanDigits_append ends]
  dsimp only at reads ⊢
  split at reads
  case isTrue => cases reads
  case isFalse digits =>
    cases reads
    rw [if_neg digits]

theorem readExponent?_append (ends : EndsNumeral rest) {text unread : List Char}
    {exponent? : Option Int} (reads : readExponent? text = some (exponent?, unread)) :
    readExponent? (text ++ rest) = some (exponent?, unread ++ rest) := by
  match text with
  | [] =>
      cases reads
      cases rest with
      | nil => rfl
      | cons next rest =>
          have stops := ends next rfl
          exact readExponent?_of_unmarked rest (not_or.mpr stops.2.2)
  | mark :: text =>
      by_cases marks : mark = 'e' ∨ mark = 'E'
      · match text with
        | [] => simp [readExponent?, marks, spanDigits] at reads
        | sign :: text =>
            by_cases minus : sign = '-'
            · subst minus
              rw [readExponent?_negative text marks] at reads
              rw [List.cons_append, List.cons_append, readExponent?_negative _ marks,
                readMagnitude?_append ends reads]
            · by_cases plus : sign = '+'
              · subst plus
                rw [readExponent?_positive text marks] at reads
                rw [List.cons_append, List.cons_append, readExponent?_positive _ marks,
                  readMagnitude?_append ends reads]
              · rw [readExponent?_unsigned text marks minus plus] at reads
                rw [List.cons_append, List.cons_append, readExponent?_unsigned _ marks minus plus,
                  ← List.cons_append, readMagnitude?_append ends reads]
      · rw [readExponent?_of_unmarked text marks] at reads
        cases reads
        exact readExponent?_of_unmarked _ marks

/-- A numeral is read back in front of whatever ends it. -/
theorem readNumeral?_append (ends : EndsNumeral rest) {text unread : List Char}
    {numeral : Numeral} (reads : readNumeral? text = some (numeral, unread)) :
    readNumeral? (text ++ rest) = some (numeral, unread ++ rest) := by
  unfold readNumeral? at reads
  simp only at reads
  split at reads
  case isTrue => cases reads
  case isFalse whole =>
    split at reads
    case h_1 => cases reads
    case h_2 fraction? afterFraction fraction =>
      split at reads
      case h_1 => cases reads
      case h_2 exponent? unread' exponent =>
        cases reads
        rw [readNumeral?, spanDigits_append ends]
        simp only [if_neg whole, readFraction?_append ends fraction,
          readExponent?_append ends exponent]

/-- What a number says after its sign. -/
def readSigned? (negative : Bool) (text : List Char) : Option (Json × List Char) :=
  (readNumeral? text).bind fun read => (read.1.toJson? negative).map fun value => (value, read.2)

theorem readNumber?_negative (text : List Char) :
    readNumber? ('-' :: text) = readSigned? true text := by
  simp only [readNumber?, readSigned?]
  cases readNumeral? text <;> rfl

theorem readNumber?_unsigned {digit : Char} (text : List Char) (minus : digit ≠ '-') :
    readNumber? (digit :: text) = readSigned? false (digit :: text) := by
  rw [readNumber?.eq_2 _ fun _ shape => minus (List.cons.inj shape).1]
  simp only [readSigned?]
  cases readNumeral? (digit :: text) <;> rfl

theorem readSigned?_append (ends : EndsNumeral rest) {negative : Bool} {text unread : List Char}
    {value : Json} (reads : readSigned? negative text = some (value, unread)) :
    readSigned? negative (text ++ rest) = some (value, unread ++ rest) := by
  rcases Option.bind_eq_some_iff.mp reads with ⟨⟨numeral, left⟩, numeralReads, valued⟩
  rcases Option.map_eq_some_iff.mp valued with ⟨_, worth, rfl, rfl⟩
  rw [readSigned?, readNumeral?_append ends numeralReads, Option.bind_some, worth]
  rfl

/-- A number is read back in front of whatever ends it. -/
theorem readNumber?_append (ends : EndsNumeral rest) {text unread : List Char} {value : Json}
    (reads : readNumber? text = some (value, unread)) :
    readNumber? (text ++ rest) = some (value, unread ++ rest) := by
  match text with
  | [] => cases reads
  | sign :: text =>
      by_cases minus : sign = '-'
      · subst minus
        rw [readNumber?_negative] at reads
        rw [List.cons_append, readNumber?_negative, readSigned?_append ends reads]
      · rw [readNumber?_unsigned text minus] at reads
        rw [List.cons_append, readNumber?_unsigned _ minus, ← List.cons_append,
          readSigned?_append ends reads]

/-- A number starts with a digit or a minus sign. -/
theorem exists_cons_of_readNumber? {text unread : List Char} {value : Json}
    (reads : readNumber? text = some (value, unread)) :
    ∃ head tail, text = head :: tail ∧ (head = '-' ∨ head.isDigit = true) := by
  match text with
  | [] => cases reads
  | head :: tail =>
      refine ⟨head, tail, rfl, ?_⟩
      by_cases minus : head = '-'
      · exact .inl minus
      · rw [readNumber?_unsigned tail minus] at reads
        cases isDigit : head.isDigit with
        | true => exact .inr rfl
        | false => simp [readSigned?, readNumeral?, spanDigits, isDigit] at reads

/-! ## Tokens -/

/-- A word that is read as a token in front of whatever cannot go on with a numeral. -/
structure Token.Word (token : Token) (word : List Char) : Prop where
  starts : ∃ head tail, word = head :: tail ∧ isSpace head = false
  reads : ∀ rest, EndsNumeral rest → readToken? (word ++ rest) = some (token, rest)

namespace Token

theorem word_openArray : openArray.Word ['['] :=
  ⟨⟨'[', [], rfl, rfl⟩, fun _ _ => rfl⟩

theorem word_closeArray : closeArray.Word [']'] :=
  ⟨⟨']', [], rfl, rfl⟩, fun _ _ => rfl⟩

theorem word_openObject : openObject.Word ['\x7b'] :=
  ⟨⟨'\x7b', [], rfl, rfl⟩, fun _ _ => rfl⟩

theorem word_closeObject : closeObject.Word ['\x7d'] :=
  ⟨⟨'\x7d', [], rfl, rfl⟩, fun _ _ => rfl⟩

theorem word_comma : comma.Word [','] :=
  ⟨⟨',', [], rfl, rfl⟩, fun _ _ => rfl⟩

theorem word_colon : colon.Word [':'] :=
  ⟨⟨':', [], rfl, rfl⟩, fun _ _ => rfl⟩

theorem word_null : (scalar null).Word "null".toList :=
  ⟨⟨'n', "ull".toList, rfl, rfl⟩, fun _ _ => rfl⟩

theorem word_bool (value : Bool) :
    (scalar (bool value)).Word (if value then "true" else "false").toList :=
  match value with
  | true => ⟨⟨'t', "rue".toList, rfl, rfl⟩, fun _ _ => rfl⟩
  | false => ⟨⟨'f', "alse".toList, rfl, rfl⟩, fun _ _ => rfl⟩

/-- A text between its quotes is one token, whatever characters it holds. -/
theorem word_text (value : String) : (text value).Word (writeText value).toList := by
  have shape : (writeText value).toList = '"' :: (value.toList.flatMap writeChar ++ ['"']) :=
    String.toList_ofList
  refine ⟨⟨'"', _, shape, rfl⟩, fun rest _ => ?_⟩
  have reads := readText?_flatMap_writeChar [] value.toList rest
  rw [shape]
  simp [readToken?, reads, String.ofList_toList]

end Token

/-- A double that is read back from its own text. -/
def ReadsBack (value : Float) : Prop :=
  readNumber? (numberText value).toList = some (number value, [])

/-- The text of a double that is read back is one token. -/
theorem ReadsBack.word {value : Float} (reads : ReadsBack value) :
    (Token.scalar (number value)).Word (numberText value).toList := by
  rcases exists_cons_of_readNumber? reads with ⟨head, tail, shape, start⟩
  have ne (mark : Char) (other : (mark == '-' || mark.isDigit) = false) : head ≠ mark := by
    grind
  constructor
  · exact ⟨head, tail, shape, by simp [isSpace, ne]⟩
  · intro rest ends
    have appended := readNumber?_append ends reads
    rw [shape, List.cons_append] at appended ⊢
    rw [readToken?.eq_11, appended]
    · rfl
    -- No other token begins like a number.
    all_goals
      intro tail' same
      exact ne _ rfl (List.cons.inj same).1

end Covenant.Json
