import Covenant.Proofs.Tokens
import Covenant.Text.Quoted

/-!
# Quoted text reads back

A quoted text is read from its opening mark up to the first closing mark that
is not escaped.  Whatever text was quoted, the reader comes to the end of the
written form and has the text again.  What stands between the marks is on one
line: control characters occur only as escapes.
-/

namespace Covenant.Text

/-- A character that may open and close a quoted text. -/
def IsMark (mark : Char) : Prop :=
  mark = '\'' ∨ mark = '"'

instance : DecidablePred IsMark :=
  fun mark => inferInstanceAs (Decidable (mark = '\'' ∨ mark = '"'))

/-- The character that a character after a backslash stands for by itself. -/
def escaped? : Char → Option Char
  | '\\' => some '\\'
  | 'n' => some '\n'
  | 'r' => some '\r'
  | 't' => some '\t'
  | '\'' => some '\''
  | '"' => some '"'
  | _ => none

/-- The character with a code of four hexadecimal digits; a surrogate is none. -/
def numbered? (first second third fourth : Char) : Option Char :=
  (Json.codeUnit? first second third fourth).bind fun code =>
    if code.isValidChar then some (Char.ofNat code) else none

/--
Read plain characters and escapes up to the first mark that is not escaped.  A
control character is not plain.
-/
def readTo? (mark : Char) : List Char → Option (List Char × List Char)
  | [] => none
  | '\\' :: 'u' :: first :: second :: third :: fourth :: rest =>
    (numbered? first second third fourth).bind fun character =>
      (readTo? mark rest).map fun (text, rest) => (character :: text, rest)
  | '\\' :: letter :: rest =>
    (escaped? letter).bind fun character =>
      (readTo? mark rest).map fun (text, rest) => (character :: text, rest)
  | character :: rest =>
    if character = mark then
      some ([], rest)
    else if character = '\\' ∨ isControl character = true then
      none
    else
      (readTo? mark rest).map fun (text, rest) => (character :: text, rest)

/-- Read a text between quotes of either kind from the front of a text. -/
def readQuoted? : List Char → Option (String × List Char)
  | [] => none
  | mark :: rest =>
    if IsMark mark then
      (readTo? mark rest).map fun (text, rest) => (String.ofList text, rest)
    else
      none

/-! ## The forms in which a character is written -/

theorem isMark_quoteMark (text : List Char) : IsMark (quoteMark text) := by
  unfold quoteMark
  split
  · exact .inr rfl
  · exact .inl rfl

/-- A character is written with a letter, with four digits, or as it is. -/
theorem escape_cases {mark : Char} (isMark : IsMark mark) (character : Char) :
    (∃ letter, escape mark character = ['\\', letter] ∧ escaped? letter = some character) ∨
      (escape mark character = '\\' :: 'u' :: hexDigits character.toNat ∧
        isControl character = true) ∨
      (escape mark character = [character] ∧ character ≠ mark ∧
        ¬ (character = '\\' ∨ isControl character = true)) := by
  by_cases backslash : character = '\\'
  · exact .inl ⟨'\\', by simp [escape, backslash], by rw [backslash]; rfl⟩
  by_cases newline : character = '\n'
  · exact .inl ⟨'n', by simp [escape, newline], by rw [newline]; rfl⟩
  by_cases carriageReturn : character = '\r'
  · exact .inl ⟨'r', by simp [escape, carriageReturn], by rw [carriageReturn]; rfl⟩
  by_cases tab : character = '\t'
  · exact .inl ⟨'t', by simp [escape, tab], by rw [tab]; rfl⟩
  by_cases quotes : character = mark
  · subst quotes
    refine .inl ⟨character, by simp [escape, *], ?_⟩
    rcases isMark with rfl | rfl <;> rfl
  by_cases control : isControl character = true
  · exact .inr (.inl ⟨by simp [escape, *], control⟩)
  · exact .inr (.inr ⟨by simp [escape, *], quotes, not_or.mpr ⟨backslash, control⟩⟩)

/-! ## What is written is read -/

theorem numbered?_hexDigits {character : Char} (control : isControl character = true) :
    numbered? (hexDigit (character.toNat / 0x1000 % 0x10))
      (hexDigit (character.toNat / 0x100 % 0x10)) (hexDigit (character.toNat / 0x10 % 0x10))
      (hexDigit (character.toNat % 0x10)) = some character := by
  have small : character.toNat < 0x10000 := by
    simp only [isControl, Bool.or_eq_true, Bool.and_eq_true, decide_eq_true_eq] at control
    omega
  have valid : character.toNat.isValidChar := character.valid
  rw [numbered?, Json.codeUnit?_hexDigits small, Option.bind_some, if_pos valid,
    Char.ofNat_toNat]

/-- A character between quotes is read back from the way it is written. -/
theorem readTo?_escape {mark : Char} (isMark : IsMark mark) (character : Char)
    (rest : List Char) :
    readTo? mark (escape mark character ++ rest) =
      (readTo? mark rest).map fun (text, rest) => (character :: text, rest) := by
  rcases escape_cases isMark character with
    ⟨letter, written, stands⟩ | ⟨written, control⟩ | ⟨written, unmarked, plain⟩
  · have unnumbered : letter ≠ 'u' := by
      rintro rfl
      cases stands
    rw [written, List.cons_append, List.singleton_append, readTo?, stands, Option.bind_some]
    simp [unnumbered]
  · rw [written]
    simp [hexDigits, readTo?, numbered?_hexDigits control]
  · rw [written, List.singleton_append, readTo?, if_neg unmarked, if_neg plain]
    all_goals simp_all

/-- The characters between quotes are read back up to the closing mark. -/
theorem readTo?_flatMap_escape {mark : Char} (isMark : IsMark mark) (text rest : List Char) :
    readTo? mark (text.flatMap (escape mark) ++ mark :: rest) = some (text, rest) := by
  induction text with
  | nil => rcases isMark with rfl | rfl <;> simp [readTo?]
  | cons character text ih =>
      rw [List.flatMap_cons, List.append_assoc, readTo?_escape isMark, ih, Option.map_some]

/-- A quoted text is read back in front of anything. -/
theorem readQuoted?_quote (text : String) (rest : List Char) :
    readQuoted? ((quote text).toList ++ rest) = some (text, rest) := by
  have isMark := isMark_quoteMark text.toList
  rw [quote, String.toList_ofList, quoteChars, List.cons_append, List.append_assoc,
    List.singleton_append, readQuoted?, if_pos isMark, readTo?_flatMap_escape isMark,
    Option.map_some]
  simp only [String.ofList_toList]

/-! ## Nothing between the marks is a control character -/

theorem isControl_hexDigit {digit : Nat} (small : digit < 16) :
    isControl (hexDigit digit) = false :=
  (by decide : ∀ digit : Fin 16, isControl (hexDigit digit.val) = false) ⟨digit, small⟩

theorem isControl_of_escaped? {letter character : Char}
    (stands : escaped? letter = some character) : isControl letter = false := by
  unfold escaped? at stands
  split at stands <;> first | rfl | cases stands

theorem isControl_of_mem_escape {mark character written : Char} (isMark : IsMark mark)
    (among : written ∈ escape mark character) : isControl written = false := by
  have digits (place : Nat) : isControl (hexDigit (place % 0x10)) = false :=
    isControl_hexDigit (Nat.mod_lt place (by decide))
  rcases escape_cases isMark character with
    ⟨letter, form, stands⟩ | ⟨form, _⟩ | ⟨form, _, plain⟩
  · rw [form, List.mem_cons, List.mem_singleton] at among
    rcases among with rfl | rfl
    · rfl
    · exact isControl_of_escaped? stands
  · simp only [form, hexDigits, List.mem_cons, List.not_mem_nil, or_false] at among
    rcases among with rfl | rfl | rfl | rfl | rfl | rfl
    · rfl
    · rfl
    all_goals exact digits _
  · rw [form, List.mem_singleton] at among
    exact among ▸ Bool.eq_false_iff.mpr (not_or.mp plain).2

theorem isControl_of_mem_quote {text : String} {written : Char}
    (among : written ∈ (quote text).toList) : isControl written = false := by
  have isMark := isMark_quoteMark text.toList
  have opens : isControl (quoteMark text.toList) = false := by
    rcases isMark with shape | shape <;> rw [shape] <;> rfl
  rw [quote, String.toList_ofList, quoteChars, List.mem_cons, List.mem_append,
    List.mem_singleton, List.mem_flatMap] at among
  rcases among with rfl | ⟨character, _, inside⟩ | rfl
  · exact opens
  · exact isControl_of_mem_escape isMark inside
  · exact opens

/--
Quoting is reversible: a quoted text is read back to its end, it holds no
control character, and so different texts have different quoted forms.
-/
theorem quote_reversible :
    (∀ text, readQuoted? (quote text).toList = some (text, [])) ∧
      (∀ text, ∀ character ∈ (quote text).toList, isControl character = false) ∧
      Function.Injective quote := by
  have reads (text : String) : readQuoted? (quote text).toList = some (text, []) := by
    simpa using readQuoted?_quote text []
  refine ⟨reads, fun _ _ => isControl_of_mem_quote, ?_⟩
  intro first second same
  have texts : some (first, []) = some (second, ([] : List Char)) := by
    rw [← reads first, same, reads second]
  exact congrArg Prod.fst (Option.some.inj texts)

end Covenant.Text
