import Mathlib.Tactic.Tauto
import Covenant.Interchange.Operator
import Covenant.Syntax.Printer
import Covenant.Proofs.Numeral
import Covenant.Proofs.Quotation

/-!
# The tokens of an expression

What stands at the front of a text can be told without the rest of it: where an
expression begins, a token by itself, an operator, or an opening mark; after an
expression, the link by which it becomes a part of a longer one; in an object,
the key of a property.

Every token that is printed is told from the front of a text in which no word
or numeral goes on after it.
-/

namespace Covenant

/-! ## Letters and digits -/

namespace Text

variable {character : Char}

theorem isUpper_iff : character.isUpper = true ↔ 'A' ≤ character ∧ character ≤ 'Z' :=
  decide_eq_true_iff

theorem isLower_iff : character.isLower = true ↔ 'a' ≤ character ∧ character ≤ 'z' :=
  Bool.and_eq_true_iff.trans (and_congr decide_eq_true_iff decide_eq_true_iff)

theorem isDigit_iff : character.isDigit = true ↔ '0' ≤ character ∧ character ≤ '9' :=
  Bool.and_eq_true_iff.trans (and_congr decide_eq_true_iff decide_eq_true_iff)

theorem isAlpha_iff :
    character.isAlpha = true ↔ character.isUpper = true ∨ character.isLower = true :=
  Bool.or_eq_true_iff

end Text

namespace Grammar

open Text (isWordChar isWordStart isIdentifierName readQuoted? IsMark)

/-! ## Words and numerals -/

/-- The digits after a point. -/
def fraction? : List Char → Option (List Char × List Char)
  | '.' :: digit :: rest =>
    if digit.isDigit then
      some (digit :: rest.takeWhile Char.isDigit, rest.dropWhile Char.isDigit)
    else
      none
  | _ => none

/-- The longest numeral at the front of a text, and what stands after it. -/
def numeral (text : List Char) : List Char × List Char :=
  match fraction? (text.dropWhile Char.isDigit) with
  | some (fraction, rest) => (text.takeWhile Char.isDigit ++ '.' :: fraction, rest)
  | none => (text.takeWhile Char.isDigit, text.dropWhile Char.isDigit)

/-- No word or numeral in front of a text goes on in it. -/
structure Ends (text : List Char) : Prop where
  word : ∀ character ∈ text.head?, isWordChar character = false
  fraction : fraction? text = none

/-- A word or numeral ends where another character stands than a point. -/
theorem ends_cons {mark : Char} (notWord : isWordChar mark = false) (notPoint : mark ≠ '.')
    (rest : List Char) : Ends (mark :: rest) := by
  refine ⟨?_, ?_⟩
  · rintro character ⟨⟩
    exact notWord
  · unfold fraction?
    split
    case h_1 shape => exact absurd (List.cons.inj shape).1 notPoint
    case h_2 => rfl

theorem isWordChar_of_isDigit {character : Char} (isDigit : character.isDigit = true) :
    isWordChar character = true := by
  simp [isWordChar, Char.isAlphanum, isDigit]

theorem isWordChar_of_isWordStart {character : Char} (opens : isWordStart character = true) :
    isWordChar character = true := by
  simp only [isWordStart, isWordChar, Char.isAlphanum, Bool.or_eq_true, beq_iff_eq] at opens ⊢
  tauto

/-- A run of characters of a kind ends where one of another kind stands. -/
theorem takeWhile_append_of_head {kind : Char → Bool} {run rest : List Char}
    (areKind : ∀ character ∈ run, kind character = true)
    (other : ∀ character ∈ rest.head?, kind character = false) :
    (run ++ rest).takeWhile kind = run ∧ (run ++ rest).dropWhile kind = rest := by
  rw [List.takeWhile_append_of_pos areKind, List.dropWhile_append_of_pos areKind]
  cases rest with
  | nil => simp
  | cons character rest =>
      have stops : kind character = false := other character rfl
      simp [stops]

theorem Ends.word_append {word rest : List Char} (ends : Ends rest)
    (isWord : ∀ character ∈ word, isWordChar character = true) :
    (word ++ rest).takeWhile isWordChar = word ∧ (word ++ rest).dropWhile isWordChar = rest :=
  takeWhile_append_of_head isWord ends.word

theorem Ends.digits_append {digits rest : List Char} (ends : Ends rest)
    (areDigits : ∀ digit ∈ digits, digit.isDigit = true) :
    (digits ++ rest).takeWhile Char.isDigit = digits ∧
      (digits ++ rest).dropWhile Char.isDigit = rest := by
  refine takeWhile_append_of_head areDigits fun character first => ?_
  refine Bool.eq_false_iff.mpr fun isDigit => ?_
  have isWord := isWordChar_of_isDigit isDigit
  rw [ends.word character first] at isWord
  cases isWord

/-- A numeral is told from what follows it. -/
theorem numeral_append {digits rest : List Char} (isNumeral : Number.IsNumeral digits)
    (ends : Ends rest) : numeral (digits ++ rest) = (digits, rest) := by
  cases isNumeral with
  | whole nonempty areDigits =>
      rcases ends.digits_append areDigits with ⟨taken, dropped⟩
      rw [numeral, taken, dropped, ends.fraction]
  | @pointed whole fraction nonempty areDigits follows follow =>
      rcases List.exists_cons_of_ne_nil follows with ⟨digit, tail, rfl⟩
      have point : ∀ character ∈ ('.' :: digit :: (tail ++ rest)).head?,
          character.isDigit = false := by
        rintro character ⟨⟩
        rfl
      rcases takeWhile_append_of_head areDigits point with ⟨taken, dropped⟩
      rcases ends.digits_append fun next among =>
        follow next (List.mem_cons_of_mem digit among) with ⟨inner, outer⟩
      have first : digit.isDigit = true := follow digit List.mem_cons_self
      rw [List.append_assoc, List.cons_append, List.cons_append, numeral, taken, dropped]
      simp only [fraction?, first, if_true, inner, outer]

/-! ## Where an expression begins -/

/-- What stands at the front of an expression. -/
inductive Lead where
  /-- An expression of a single token, or an array or object without contents. -/
  | atom (expression : Expression)
  /-- An operator before its operand. -/
  | operator (operator : UnaryOperator)
  /-- The opening mark of an expression in parentheses. -/
  | parenthesis
  /-- The opening mark of an array. -/
  | bracket
  /-- The opening mark of an object. -/
  | brace

/-- Words that are no identifiers where an expression begins. -/
def reservedWords : List String :=
  ["typeof", "void", "this", "undefined", "null", "true", "false"]

/-- What a word at the front of an expression is. -/
def Lead.ofWord (word : String) : Lead :=
  match word with
  | "typeof" => .operator .typeOf
  | "void" => .operator .void
  | "this" => .atom .receiver
  | "undefined" => .atom (.literal .undefined)
  | "null" => .atom (.literal .null)
  | "true" => .atom (.literal (.bool true))
  | "false" => .atom (.literal (.bool false))
  | name => .atom (.identifier name)

/-- The marks and operators at the front of an expression. -/
def signLead? : List Char → Option (Lead × List Char)
  | '(' :: rest => some (.parenthesis, rest)
  | '[' :: ']' :: rest => some (.atom (.array []), rest)
  | '[' :: rest => some (.bracket, rest)
  | '\x7b' :: '\x7d' :: rest => some (.atom (.record []), rest)
  | '\x7b' :: ' ' :: rest => some (.brace, rest)
  | '!' :: rest => some (.operator .not, rest)
  | '-' :: rest => some (.operator .minus, rest)
  | '+' :: rest => some (.operator .plus, rest)
  | '~' :: rest => some (.operator .bitNot, rest)
  | _ => none

/--
What stands at the front of an expression, after blanks, and what stands after
it.  Which number a numeral is worth is left open.
-/
def lead? (worth : String → Float) : List Char → Option (Lead × List Char)
  | [] => none
  | first :: rest =>
    if first = ' ' then
      lead? worth rest
    else if first.isDigit then
      let (digits, after) := numeral (first :: rest)
      some (.atom (.literal (.number (worth (String.ofList digits)))), after)
    else if isWordStart first then
      some (.ofWord (String.ofList ((first :: rest).takeWhile isWordChar)),
        (first :: rest).dropWhile isWordChar)
    else if IsMark first then
      (readQuoted? (first :: rest)).map fun (text, after) =>
        (.atom (.literal (.string text)), after)
    else
      signLead? (first :: rest)

section

variable {worth : String → Float} {rest : List Char}

@[simp]
theorem lead?_blank : lead? worth (' ' :: rest) = lead? worth rest := by
  simp [lead?]

/-- A word that is not reserved is an identifier. -/
theorem Lead.ofWord_of_not_reserved {word : String} (free : word ∉ reservedWords) :
    ofWord word = .atom (.identifier word) := by
  unfold ofWord
  split
  case h_8 => rfl
  all_goals exact absurd (by decide) free

theorem exists_cons_of_isIdentifierName {name : String} (isName : isIdentifierName name = true) :
    ∃ first tail, name.toList = first :: tail ∧ isWordStart first = true ∧
      ∀ character ∈ name.toList, isWordChar character = true := by
  unfold isIdentifierName at isName
  split at isName
  · cases isName
  case h_2 first tail shape =>
    rw [Bool.and_eq_true, List.all_eq_true] at isName
    refine ⟨first, tail, shape, isName.1, ?_⟩
    rw [shape, List.forall_mem_cons]
    exact ⟨isWordChar_of_isWordStart isName.1, isName.2⟩

/-- A character that opens a word is neither a blank nor a digit. -/
theorem not_blank_of_isWordStart {first : Char} (opens : isWordStart first = true) :
    first ≠ ' ' ∧ first.isDigit = false := by
  constructor
  · rintro rfl
    cases opens
  · refine Bool.eq_false_iff.mpr fun isDigit => ?_
    have digit := Text.isDigit_iff.mp isDigit
    simp only [isWordStart, Bool.or_eq_true, beq_iff_eq, Text.isAlpha_iff, Text.isUpper_iff,
      Text.isLower_iff] at opens
    rcases opens with (letter | rfl) | rfl
    · simp only [Char.le_def, UInt32.le_iff_toNat_le, Char.reduceVal, UInt32.reduceToNat]
        at letter digit
      omega
    all_goals cases isDigit

/-- A word is told from what follows it. -/
theorem lead?_word {name : String} (isName : isIdentifierName name = true) (ends : Ends rest) :
    lead? worth (name.toList ++ rest) = some (.ofWord name, rest) := by
  rcases exists_cons_of_isIdentifierName isName with ⟨first, tail, shape, opens, areWord⟩
  rcases not_blank_of_isWordStart opens with ⟨notBlank, notDigit⟩
  rcases ends.word_append areWord with ⟨taken, dropped⟩
  have form : name.toList ++ rest = first :: (tail ++ rest) := by rw [shape, List.cons_append]
  rw [form] at taken dropped ⊢
  rw [lead?, if_neg notBlank, notDigit, if_neg Bool.false_ne_true, if_pos opens, taken, dropped,
    String.ofList_toList]

/-- A numeral is told from what follows it. -/
theorem lead?_number {number : Float} (isUnsigned : Number.isUnsigned number = true)
    (ends : Ends rest) :
    lead? worth ((Number.toText number).toList ++ rest) =
      some (.atom (.literal (.number (worth (Number.toText number)))), rest) := by
  have isNumeral := Number.isNumeral_toText isUnsigned
  have told := numeral_append isNumeral ends
  rcases isNumeral.starts with ⟨digit, tail, shape, isDigit⟩
  have notBlank : digit ≠ ' ' := by
    rintro rfl
    cases isDigit
  have form : (Number.toText number).toList ++ rest = digit :: (tail ++ rest) := by
    rw [shape, List.cons_append]
  rw [form] at told ⊢
  rw [lead?, if_neg notBlank, if_pos isDigit, told]
  simp only [String.ofList_toList]

theorem exists_cons_of_quote (text : String) (rest : List Char) :
    ∃ mark tail, (Text.quote text).toList ++ rest = mark :: tail ∧ IsMark mark := by
  rw [Text.quote, String.toList_ofList, Text.quoteChars, List.cons_append]
  exact ⟨_, _, rfl, Text.isMark_quoteMark text.toList⟩

/-- A quoted text is told from what follows it. -/
theorem lead?_quote (text : String) :
    lead? worth ((Text.quote text).toList ++ rest) =
      some (.atom (.literal (.string text)), rest) := by
  have told := Text.readQuoted?_quote text rest
  rcases exists_cons_of_quote text rest with ⟨mark, tail, form, isMark⟩
  rw [form] at told ⊢
  have other : mark ≠ ' ' ∧ mark.isDigit = false ∧ isWordStart mark = false := by
    rcases isMark with rfl | rfl <;> decide
  rw [lead?, if_neg other.1, other.2.1, other.2.2, if_neg Bool.false_ne_true,
    if_neg Bool.false_ne_true, if_pos isMark, told, Option.map_some]

/-- An operator is told from the blank or the operand after it. -/
theorem lead?_operator (operator : UnaryOperator) (operand : String) :
    lead? worth (operator.symbol.toList ++ ((operator.gap operand).toList ++ rest)) =
      some (.operator operator, (operator.gap operand).toList ++ rest) := by
  have blank : Ends (' ' :: rest) := ends_cons rfl (by decide) rest
  have told (word : String) (isName : isIdentifierName word = true) :
      lead? worth (word.toList ++ ' ' :: rest) = some (.ofWord word, ' ' :: rest) :=
    lead?_word isName blank
  cases operator with
  | typeOf => simpa [UnaryOperator.symbol, UnaryOperator.gap, Lead.ofWord] using told "typeof" rfl
  | void => simpa [UnaryOperator.symbol, UnaryOperator.gap, Lead.ofWord] using told "void" rfl
  | _ => rfl

/-- The mark of an array with elements is told from one without. -/
theorem lead?_bracket (inside : rest.head? ≠ some ']') :
    lead? worth ('[' :: rest) = some (.bracket, rest) := by
  cases rest with
  | nil => rfl
  | cons next rest =>
      have other : next ≠ ']' := fun same => inside (by rw [same, List.head?_cons])
      rw [lead?, if_neg (by decide), if_neg (by decide), if_neg (by decide), if_neg (by decide)]
      simp [signLead?, other]

end

/-! ## Where an expression may go on -/

/-- An operator between two operands. -/
inductive Joint where
  | binary (operator : BinaryOperator)
  | logical (operator : LogicalOperator)

namespace Joint

/-- The token of an operator. -/
def symbol : Joint → String
  | binary operator => operator.symbol
  | logical operator => operator.symbol

/-- The expression that an operator makes of two operands. -/
def join (joint : Joint) (left right : Expression) : Expression :=
  match joint with
  | binary operator => .binary operator left right
  | logical operator => .logical operator left right

/-- All operators between two operands. -/
def all : List Joint :=
  BinaryOperator.all.map binary ++ LogicalOperator.all.map logical

end Joint

/-- What makes an expression a part of a longer one that begins with it. -/
inductive Link where
  /-- A call without arguments. -/
  | noArguments
  /-- The opening mark of the arguments of a call. -/
  | arguments
  /-- The opening mark of a computed key. -/
  | key
  /-- A property by its name. -/
  | member (name : String)
  /-- An operator before its right operand. -/
  | joint (joint : Joint)
  /-- The mark after the test of a choice. -/
  | choice
  /-- The comma after an expression of a sequence. -/
  | comma

/-- The link with a sign that stands between blanks. -/
def Link.ofSign? (sign : List Char) : Option Link :=
  if sign = ['?'] then
    some .choice
  else
    (Joint.all.find? fun joint => joint.symbol.toList == sign).map .joint

/-- How the expression before a text goes on in it, and what stands after that. -/
def follow? : List Char → Option (Link × List Char)
  | '(' :: ')' :: rest => some (.noArguments, rest)
  | '(' :: rest => some (.arguments, rest)
  | '[' :: rest => some (.key, rest)
  | '.' :: rest =>
    some (.member (String.ofList (rest.takeWhile isWordChar)), rest.dropWhile isWordChar)
  | ',' :: ' ' :: rest => some (.comma, rest)
  | ' ' :: rest =>
    match rest.dropWhile (· != ' ') with
    | ' ' :: after => (Link.ofSign? (rest.takeWhile (· != ' '))).map fun link => (link, after)
    | _ => none
  | _ => none

section

variable {rest : List Char}

/-- An operator between blanks is told from what follows it. -/
theorem follow?_joint (joint : Joint) (rest : List Char) :
    follow? (' ' :: (joint.symbol.toList ++ ' ' :: rest)) = some (.joint joint, rest) := by
  cases joint with
  | binary operator => cases operator <;> rfl
  | logical operator => cases operator <;> rfl

theorem follow?_choice (rest : List Char) :
    follow? (' ' :: '?' :: ' ' :: rest) = some (.choice, rest) :=
  rfl

theorem follow?_comma (rest : List Char) : follow? (',' :: ' ' :: rest) = some (.comma, rest) :=
  rfl

/-- A name after a point is told from what follows it. -/
theorem follow?_member {name : String} (isName : isIdentifierName name = true) (ends : Ends rest) :
    follow? ('.' :: (name.toList ++ rest)) = some (.member name, rest) := by
  rcases exists_cons_of_isIdentifierName isName with ⟨_, _, _, _, areWord⟩
  rcases ends.word_append areWord with ⟨taken, dropped⟩
  rw [follow?, taken, dropped, String.ofList_toList]

/-- The mark of a call with arguments is told from one without. -/
theorem follow?_arguments (inside : rest.head? ≠ some ')') :
    follow? ('(' :: rest) = some (.arguments, rest) := by
  cases rest with
  | nil => rfl
  | cons next rest =>
      have other : next ≠ ')' := fun same => inside (by rw [same, List.head?_cons])
      simp [follow?, other]

/-- No operator opens with a mark that ends a part. -/
theorem Link.ofSign?_of_mark {mark : Char} (ends : mark = '\x7d' ∨ mark = ':')
    (tail : List Char) : ofSign? (mark :: tail) = none := by
  have other : ∀ joint ∈ Joint.all, joint.symbol.toList.head? ≠ some mark := by
    rcases ends with rfl | rfl <;> decide
  have notChoice : mark ≠ '?' := by rcases ends with rfl | rfl <;> decide
  rw [ofSign?, if_neg (by simp [notChoice]), Option.map_eq_none_iff, List.find?_eq_none]
  intro joint among same
  exact other joint among (by rw [beq_iff_eq.mp same, List.head?_cons])

end

/-! ## Where an expression ends -/

/-- The expression before a text ends with it, as does its last token. -/
structure Closes (text : List Char) : Prop where
  ends : Ends text
  noLink : follow? text = none

theorem Closes.ne_some {text : List Char} {found : Link × List Char} (closes : Closes text) :
    follow? text ≠ some found := by
  rw [closes.noLink]
  nofun

theorem closes_nil : Closes [] :=
  ⟨⟨nofun, rfl⟩, rfl⟩

/-- A name may stand after a point. -/
theorem ends_point {name : String} (isName : isIdentifierName name = true) (rest : List Char) :
    Ends ('.' :: (name.toList ++ rest)) := by
  rcases exists_cons_of_isIdentifierName isName with ⟨first, tail, shape, opens, _⟩
  refine ⟨?_, ?_⟩
  · rintro character ⟨⟩
    rfl
  · rw [shape, List.cons_append, fraction?, (not_blank_of_isWordStart opens).2]
    rfl

theorem closes_parenthesis (rest : List Char) : Closes (')' :: rest) :=
  ⟨ends_cons rfl (by decide) rest, rfl⟩

theorem closes_bracket (rest : List Char) : Closes (']' :: rest) :=
  ⟨ends_cons rfl (by decide) rest, rfl⟩

/-- A blank before a mark that ends a part begins no link. -/
theorem closes_mark {mark : Char} (closes : mark = '\x7d' ∨ mark = ':') (rest : List Char) :
    Closes (' ' :: mark :: rest) := by
  refine ⟨ends_cons rfl (by decide) _, ?_⟩
  have notBlank : (mark != ' ') = true := by rcases closes with rfl | rfl <;> rfl
  rw [follow?]
  split
  case h_1 =>
    rw [List.takeWhile_cons, if_pos notBlank, Link.ofSign?_of_mark closes]
    rfl
  case h_2 => rfl

/-! ## Keys -/

/-- The key at the front of a property, and what stands after its colon. -/
def key? : List Char → Option (String × List Char)
  | [] => none
  | first :: rest =>
    let token :=
      if isWordStart first then
        some (String.ofList ((first :: rest).takeWhile isWordChar),
          (first :: rest).dropWhile isWordChar)
      else
        readQuoted? (first :: rest)
    token.bind fun (key, after) =>
      match after with
      | ':' :: ' ' :: value => some (key, value)
      | _ => none

/-- A key is told from what follows it, be it a name or quoted. -/
theorem key?_keyText (property : Property) (rest : List Char) :
    key? (property.keyText.toList ++ ':' :: ' ' :: rest) = some (property.key, rest) := by
  unfold Property.keyText
  split
  case isTrue isName =>
    rcases exists_cons_of_isIdentifierName isName with ⟨first, tail, shape, opens, areWord⟩
    have ends : Ends (':' :: ' ' :: rest) := ends_cons rfl (by decide) _
    rcases ends.word_append areWord with ⟨taken, dropped⟩
    have form : property.key.toList ++ ':' :: ' ' :: rest =
        first :: (tail ++ ':' :: ' ' :: rest) := by
      rw [shape, List.cons_append]
    rw [form] at taken dropped ⊢
    simp only [key?, if_pos opens, taken, dropped, String.ofList_toList, Option.bind_some]
  case isFalse =>
    rcases exists_cons_of_quote property.key (':' :: ' ' :: rest) with ⟨mark, tail, form, isMark⟩
    have told := Text.readQuoted?_quote property.key (':' :: ' ' :: rest)
    rw [form] at told ⊢
    have notWord : isWordStart mark = false := by rcases isMark with rfl | rfl <;> rfl
    simp only [key?, notWord, Bool.false_eq_true, if_false, told, Option.bind_some]

end Grammar

end Covenant
