import Covenant.Proofs.Freshness
import Covenant.Proofs.Lexeme
import Covenant.Proofs.Mention

/-!
# Names in series

A fresh name is an underscore and a stem, with a number after it from the
second place of its series on.  Every request for a name is met: the search
ends at the first place of the series that is not taken, neither from the
beginning nor by an earlier request.  Stems are words, whatever text or
expression they were derived from.
-/

namespace Covenant

namespace Text

/-- A letter, a digit, an underscore, or a dollar sign. -/
def IsNameChar (character : Char) : Prop :=
  ('A' ≤ character ∧ character ≤ 'Z') ∨ ('a' ≤ character ∧ character ≤ 'z') ∨
    ('0' ≤ character ∧ character ≤ '9') ∨ character = '_' ∨ character = '$'

/-- The characters that may stand in a name are those that are kept in one. -/
theorem isWordChar_iff {character : Char} :
    isWordChar character = true ↔ IsNameChar character := by
  simp only [isWordChar, IsNameChar, Char.isAlphanum, Bool.or_eq_true, beq_iff_eq, isAlpha_iff,
    isUpper_iff, isLower_iff, isDigit_iff]
  tauto

/-- Raising a letter leaves it a letter. -/
theorem isNameChar_toUpper {character : Char} (keeps : IsNameChar character) :
    IsNameChar character.toUpper := by
  unfold Char.toUpper
  split
  case isTrue lower =>
    refine .inl ?_
    simp [Char.le_def, UInt32.le_iff_toNat_le] at lower ⊢
    omega
  case isFalse => exact keeps

theorem isNameChar_of_mem_joinWords {character : Char} : (afterBreak : Bool) → (text : List Char) →
    character ∈ joinWords afterBreak text → IsNameChar character
  | _, [], among => nomatch among
  | afterBreak, head :: rest, among => by
      rw [joinWords] at among
      split at among
      case isTrue keeps =>
        rcases List.mem_cons.mp among with rfl | among
        · cases afterBreak with
          | false => exact isWordChar_iff.mp keeps
          | true => exact isNameChar_toUpper (isWordChar_iff.mp keeps)
        · exact isNameChar_of_mem_joinWords false rest among
      case isFalse => exact isNameChar_of_mem_joinWords true rest among

/-- Any text is turned into characters that may stand in a name. -/
theorem isNameChar_of_mem_identifierChars {character : Char} : (text : List Char) →
    character ∈ identifierChars text → IsNameChar character
  | [], among => nomatch among
  | head :: rest, among => by
      rw [identifierChars] at among
      split at among
      case isTrue opens =>
        rcases List.mem_cons.mp among with rfl | among
        · exact isWordChar_iff.mp (Bool.and_eq_true_iff.mp opens).1
        · exact isNameChar_of_mem_joinWords false rest among
      case isFalse => exact isNameChar_of_mem_identifierChars rest among

theorem isNameChar_of_isDigit {character : Char} (isDigit : character.isDigit = true) :
    IsNameChar character :=
  isWordChar_iff.mp (by simp [isWordChar, Char.isAlphanum, isDigit])

end Text

open Text (IsNameChar)

namespace Contract

/-! ## Stems and series -/

theorem mem_of_mem_trimStem {character : Char} {word : List Char}
    (among : character ∈ trimStem word) : character ∈ word := by
  rw [trimStem, List.mem_reverse] at among
  have untrimmed := (List.dropWhile_sublist _).subset among
  exact (List.dropWhile_sublist _).subset (List.mem_reverse.mp untrimmed)

/-- A word of at least one character that may stand in a name. -/
def IsWord (word : List Char) : Prop :=
  word ≠ [] ∧ ∀ character ∈ word, IsNameChar character

/-- Every text gives rise to a stem that is a word. -/
theorem isWord_stemOf (text : String) : IsWord (stemOf text).toList := by
  unfold stemOf
  split
  case h_1 =>
    have areWord : "ref".toList.all Text.isWordChar = true := by decide
    refine ⟨by decide, fun character among => Text.isWordChar_iff.mp ?_⟩
    exact List.all_eq_true.mp areWord character among
  case h_2 nonempty =>
    rw [String.toList_ofList]
    refine ⟨nonempty, fun character among => ?_⟩
    have inIdentifier := mem_of_mem_trimStem among
    rw [Text.toIdentifier, String.toList_ofList] at inIdentifier
    exact Text.isNameChar_of_mem_identifierChars _ inIdentifier

/-- A name of the form in which names are handed out: an underscore and a word. -/
def IsCoinage (name : String) : Prop :=
  ∃ word, name.toList = '_' :: word ∧ IsWord word

theorem isCoinage_candidateName {stem : String} (isWord : IsWord stem.toList) (place : Nat) :
    IsCoinage (candidateName stem place) := by
  unfold candidateName
  split
  case isTrue => exact ⟨stem.toList, by simp, isWord⟩
  case isFalse =>
    refine ⟨stem.toList ++ Nat.toDigits 10 place, by simp [Nat.repr_eq_ofList_toDigits], ?_, ?_⟩
    · simp [isWord.1]
    · intro character among
      rcases List.mem_append.mp among with inStem | inNumber
      · exact isWord.2 character inStem
      · exact Text.isNameChar_of_isDigit
          (Nat.isDigit_of_mem_toDigits (by decide) (by decide) inNumber)

/-- The first name of the series of a stem that is not taken. -/
structure IsFirstFree (taken : List String) (stem name : String) : Prop where
  free : name ∉ taken
  first : ∃ place, 0 < place ∧ name = candidateName stem place ∧
    ∀ earlier, 0 < earlier → earlier < place → candidateName stem earlier ∈ taken

theorem IsFirstFree.congr {taken other : List String} {stem name : String}
    (same : ∀ known, known ∈ taken ↔ known ∈ other) (isFirst : IsFirstFree taken stem name) :
    IsFirstFree other stem name := by
  rcases isFirst with ⟨free, place, counts, named, passed⟩
  refine ⟨fun known => free ((same name).mpr known), place, counts, named, ?_⟩
  exact fun earlier from_ before => (same _).mp (passed earlier from_ before)

/-- A search has passed only taken names when it ends. -/
theorem exists_place_of_firstFree (taken : List String) (stem : String) : ∀ fuel place,
    ∃ stop, place ≤ stop ∧ firstFree taken stem fuel place = candidateName stem stop ∧
      ∀ earlier, place ≤ earlier → earlier < stop → candidateName stem earlier ∈ taken := by
  intro fuel
  induction fuel with
  | zero =>
      intro place
      exact ⟨place, Nat.le_refl place, rfl, fun earlier from_ before => by omega⟩
  | succ fuel induction =>
      intro place
      rw [firstFree]
      split
      case isTrue occupied =>
        rcases induction (place + 1) with ⟨stop, onwards, ends, passed⟩
        refine ⟨stop, Nat.le_of_succ_le onwards, ends, fun earlier from_ before => ?_⟩
        rcases Nat.eq_or_lt_of_le from_ with rfl | later
        · simpa using occupied
        · exact passed earlier later before
      case isFalse =>
        exact ⟨place, Nat.le_refl place, rfl, fun earlier from_ before => by omega⟩

/-! ## Requests -/

/-- What a fresh name is asked for. -/
inductive Request where
  /-- A name for a text. -/
  | forText (text : String)
  /-- A name for an expression. -/
  | forExpression (expression : Expression)

/-- The stem of the name that is asked for. -/
def Request.stem : Request → String
  | forText text => stemOf text
  | forExpression expression => stemOf (stemText expression)

namespace NameSupply

/-- A fresh name as requested, and the supply without it. -/
def serve (supply : NameSupply) : Request → String × NameSupply
  | .forText text => supply.generate text
  | .forExpression expression => supply.generateFor expression

/-- The names that requests in turn are met with. -/
def serveAll (supply : NameSupply) : List Request → List String
  | [] => []
  | request :: rest => (supply.serve request).1 :: (supply.serve request).2.serveAll rest

/-- A request is met as one for the text that its stem comes from. -/
theorem exists_generate_of_serve (supply : NameSupply) (request : Request) :
    ∃ text, supply.serve request = supply.generate text ∧ request.stem = stemOf text := by
  cases request with
  | forText text => exact ⟨text, by rw [serve], by rw [Request.stem]⟩
  | forExpression expression =>
      exact ⟨stemText expression, by rw [serve, generateFor], by rw [Request.stem]⟩

/-- A request is met with the first free name of its series. -/
theorem isFirstFree_serve (supply : NameSupply) (request : Request) :
    IsFirstFree supply.taken request.stem (supply.serve request).1 := by
  rcases supply.exists_generate_of_serve request with ⟨text, met, stem⟩
  rcases exists_place_of_firstFree supply.taken (stemOf text) (supply.taken.length + 1) 1 with
    ⟨place, counts, ends, passed⟩
  rw [met, stem]
  exact ⟨(supply.generate_fresh text).free, place, counts, ends, passed⟩

/-- A request is met with an underscore and a word. -/
theorem isCoinage_serve (supply : NameSupply) (request : Request) :
    IsCoinage (supply.serve request).1 := by
  rcases supply.exists_generate_of_serve request with ⟨text, _, stem⟩
  rcases (supply.isFirstFree_serve request).first with ⟨place, _, named, _⟩
  rw [named, stem]
  exact isCoinage_candidateName (isWord_stemOf text) place

/-- The name that a request is met with is taken from then on. -/
theorem taken_serve (supply : NameSupply) (request : Request) :
    (supply.serve request).2.taken = (supply.serve request).1 :: supply.taken := by
  rcases supply.exists_generate_of_serve request with ⟨text, met, _⟩
  rw [met, generate_taken]

theorem length_serveAll (requests : List Request) :
    ∀ supply : NameSupply, (supply.serveAll requests).length = requests.length := by
  induction requests with
  | nil => exact fun supply => rfl
  | cons request rest induction =>
      intro supply
      rw [serveAll, List.length_cons, List.length_cons, induction]

/-- The request at an index is met after those before it. -/
theorem serveAll_get? (requests : List Request) : ∀ (supply : NameSupply) (index : Nat)
    (request : Request), requests[index]? = some request →
      ∃ name, (supply.serveAll requests)[index]? = some name ∧ IsCoinage name ∧
        IsFirstFree (supply.taken ++ (supply.serveAll requests).take index) request.stem name := by
  induction requests with
  | nil =>
      intro supply index request asked
      cases asked
  | cons first rest induction =>
      intro supply index request asked
      cases index with
      | zero =>
          cases asked
          refine ⟨(supply.serve first).1, rfl, supply.isCoinage_serve first, ?_⟩
          rw [List.take_zero, List.append_nil]
          exact supply.isFirstFree_serve first
      | succ index =>
          rcases induction (supply.serve first).2 index request asked with
            ⟨name, served, coined, isFirst⟩
          refine ⟨name, served, coined, isFirst.congr fun known => ?_⟩
          rw [taken_serve, serveAll, List.take_succ_cons]
          simp only [List.mem_append, List.mem_cons]
          tauto

/-- No request is met with a name that is taken. -/
theorem not_mem_of_serveAll {requests : List Request} {supply : NameSupply} {name : String}
    (served : name ∈ supply.serveAll requests) : name ∉ supply.taken := by
  rcases List.mem_iff_getElem?.mp served with ⟨index, found⟩
  rcases List.getElem?_eq_some_iff.mp found with ⟨within, _⟩
  rw [length_serveAll] at within
  rcases serveAll_get? requests supply index _ (List.getElem?_eq_getElem within) with
    ⟨handed, handedOut, _, isFirst⟩
  cases handedOut.symm.trans found
  exact fun taken => isFirst.free (List.mem_append_left _ taken)

end NameSupply

/--
Every request for a fresh name is met: with an underscore and a word, with a
name that was neither taken nor handed out before, and with the first such name
of its series.  A supply for a program hands out no name that it mentions.
-/
theorem requests_met :
    (∀ (taken : List String) (requests : List Request) (index : Nat) (request : Request),
      requests[index]? = some request →
        ∃ name, ((⟨taken⟩ : NameSupply).serveAll requests)[index]? = some name ∧ IsCoinage name ∧
          IsFirstFree (taken ++ ((⟨taken⟩ : NameSupply).serveAll requests).take index)
            request.stem name) ∧
      ∀ (program : Program) (requests : List Request),
        ∀ name ∈ (NameSupply.ofProgram program).serveAll requests, ¬ program.Mentions name := by
  refine ⟨fun taken requests => NameSupply.serveAll_get? requests ⟨taken⟩, ?_⟩
  intro program requests name served mentioned
  exact NameSupply.not_mem_of_serveAll served (program.mem_allNames.mpr mentioned)

/-- Three requests in turn: for a text, for an expression, and for a text with the same stem. -/
def threeRequests : List Request :=
  [.forText "price 1", .forExpression (.member (.identifier "input") "price"),
    .forText "input-price"]

/-- The last of three requests is met in the second place of its series. -/
theorem requests_met_third :
    (∃ name, ((⟨["_price"]⟩ : NameSupply).serveAll threeRequests)[2]? = some name ∧
        name = "_inputPrice2" ∧ IsCoinage name ∧
        IsFirstFree ["_price", "_price2", "_inputPrice"] "inputPrice" name) ∧
      ¬ (⟨[.labeled "_price" .empty]⟩ : Program).Mentions "_price2" := by
  have served : (⟨["_price"]⟩ : NameSupply).serveAll threeRequests =
      ["_price2", "_inputPrice", "_inputPrice2"] := by decide +kernel
  constructor
  · rcases requests_met.1 ["_price"] threeRequests 2 (.forText "input-price") rfl with
      ⟨name, met, coined, isFirst⟩
    have stem : (Request.forText "input-price").stem = "inputPrice" := by decide +kernel
    rw [stem] at isFirst
    rw [served] at met isFirst
    exact ⟨name, by rw [served]; exact met, (Option.some.inj met).symm, coined, isFirst⟩
  · refine requests_met.2 _ threeRequests _ ?_
    have taken : NameSupply.ofProgram ⟨[.labeled "_price" .empty]⟩ = ⟨["_price"]⟩ := rfl
    rw [taken, served]
    exact List.mem_cons_self

end Contract

end Covenant
