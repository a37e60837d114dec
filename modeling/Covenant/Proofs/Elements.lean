import Covenant.Machine.Session
import Covenant.Proofs.Double
import Covenant.Proofs.Freshness
import Covenant.Proofs.Matching

/-!
# What is written to an array reads back

A key of an array is its length, an index, or neither.  An element that is set
reads back, and the array grows to hold it; a length that is set cuts the
array or fills it up.  What cannot be set is refused before the array is
changed, and what is neither a length nor an index is not kept at all.
-/

namespace Covenant.Machine

/-! ## Indices -/

theorem decimalInteger_toDigits (number : Nat) :
    Number.decimalInteger (Nat.toDigits 10 number) = number := by
  rw [Number.decimalInteger, ← Nat.ofDigitChars_eq_foldl]
  exact Nat.ofDigitChars_ten_toDigits

/-- The keys that denote elements are the numerals of the numbers up to the greatest index. -/
theorem arrayIndex?_eq_some_iff {key : String} {index : Nat} :
    arrayIndex? key = some index ↔ index ≤ maxArrayIndex ∧ key = Nat.repr index := by
  constructor
  · intro denoted
    rw [arrayIndex?] at denoted
    split at denoted
    · rename_i canonical
      cases denoted
      simp only [Bool.and_eq_true, decide_eq_true_eq, beq_iff_eq] at canonical
      obtain ⟨⟨_, small⟩, same⟩ := canonical
      exact ⟨small, String.toList_inj.mp (by rw [Nat.toList_repr, same])⟩
    · cases denoted
  · rintro ⟨small, rfl⟩
    have digits : (Nat.toDigits 10 index).all Char.isDigit = true :=
      List.all_eq_true.mpr fun digit member =>
        Nat.isDigit_of_mem_toDigits (by decide) (by decide) member
    simp [arrayIndex?, Nat.toList_repr, decimalInteger_toDigits, digits, small]

theorem arrayIndex?_eq_none_iff {key : String} :
    arrayIndex? key = none ↔ ∀ index ≤ maxArrayIndex, key ≠ Nat.repr index := by
  rw [Option.eq_none_iff_forall_ne_some]
  simp only [ne_eq, arrayIndex?_eq_some_iff, not_and]

theorem repr_ne_length (index : Nat) : Nat.repr index ≠ "length" := by
  intro same
  have digits := congrArg String.toList same
  rw [Nat.toList_repr] at digits
  have first : 'l' ∈ Nat.toDigits 10 index := by
    rw [digits]
    decide
  exact absurd (Nat.isDigit_of_mem_toDigits (by decide) (by decide) first) (by decide)

/-! ## Lengths -/

/-- The lengths that a number can stand for are the integers up to the greatest index and one. -/
theorem arrayLength?_eq_some_iff {number : Float} {length : Nat} :
    arrayLength? number = some length ↔
      Number.StandsFor number length ∧ length ≤ maxArrayIndex + 1 := by
  constructor
  · intro denoted
    rw [arrayLength?] at denoted
    split at denoted
    · rename_i exact given
      split at denoted
      · rename_i fits
        cases denoted
        simp only [Bool.and_eq_true, decide_eq_true_eq] at fits
        obtain ⟨⟨whole, nonnegative⟩, small⟩ := fits
        refine ⟨⟨exact, given, ?_⟩, small⟩
        rw [Number.Dyadic.value_eq_truncate whole, ← Number.Dyadic.natAbs_truncate,
          Nat.cast_natAbs, abs_of_nonneg nonnegative]
      · cases denoted
    · cases denoted
  · rintro ⟨⟨exact, given, value⟩, small⟩
    have integral : exact.value = (length : Int) := by rw [value, Int.cast_natCast]
    have truncated := Number.Dyadic.truncate_of_value integral
    have wholePart : exact.wholePart = length := by
      rw [← Number.Dyadic.natAbs_truncate, truncated, Int.natAbs_natCast]
    rw [arrayLength?, given]
    simp [Number.Dyadic.isWhole_of_value integral, truncated, wholePart, small]

/-- A number is written with no array, so that its value alone decides on the length. -/
theorem resolveLength_number (store : Store) (array : ArrayAddress) (number : Float) :
    store.resolveLength array (.number number) =
      match arrayLength? number with
      | none => .error (.fault (.range .invalidLength))
      | some length =>
        if maxArrayLength < length then .error (.fault (.range (.lengthTooLarge length)))
        else .ok (.resize array length) := by
  have apart : Value.isWrittenWith store array (.number number) = false := by
    rw [Value.isWrittenWith]
    cases store.depthBound <;> rfl
  rw [Store.resolveLength, apart]
  rfl

/-! ## Elements -/

section

variable (elements : Array Value) (index length position : Nat) (value : Value)

theorem size_resizeElements : (resizeElements length elements).size = length := by
  grind [resizeElements]

theorem getElem?_resizeElements :
    (resizeElements length elements)[position]? =
      if position < length then some (elements[position]?.getD .undefined) else none := by
  grind [resizeElements]

theorem size_setElement :
    (setElement index value elements).size = max elements.size (index + 1) := by
  grind [setElement, size_resizeElements]

theorem getElem?_setElement :
    (setElement index value elements)[position]? =
      if position = index then some value
      else if position < max elements.size index then some (elements[position]?.getD .undefined)
      else none := by
  grind [setElement, size_resizeElements, getElem?_resizeElements]

end

/-! ## What a write does -/

/-- No cell is changed but one array. -/
structure OnlyChanges (array : ArrayAddress) (before after : Store) : Prop where
  frames : after.frames = before.frames
  objects : after.objects = before.objects
  closures : after.closures = before.closures
  count : after.arrays.size = before.arrays.size
  others : ∀ other, other ≠ array → after.elements other = before.elements other

/-- The element of an array at an index is set to a value. -/
structure SetsElement (before after : Store) (array : ArrayAddress) (index : Nat) (value : Value) :
    Prop where
  /-- The element reads back. -/
  reads : after.property (.array array) (Nat.repr index) = .ok value
  /-- Any key but that of the element and the length reads as before. -/
  unaffected : ∀ key, key ≠ "length" → key ≠ Nat.repr index →
    after.property (.array array) key = before.property (.array array) key
  /-- Every other element that there was is there as it was. -/
  kept : ∀ other < (before.elements array).size, other ≠ index →
    (after.elements array)[other]? = (before.elements array)[other]?
  /-- A gap is filled. -/
  filled : ∀ gap, (before.elements array).size ≤ gap → gap < index →
    (after.elements array)[gap]? = some .undefined
  /-- The array has grown as far as needed, and no further. -/
  size : (after.elements array).size = max (before.elements array).size (index + 1)
  length : after.property (.array array) "length" =
    .ok (.number (Float.ofNat (max (before.elements array).size (index + 1))))
  elsewhere : OnlyChanges array before after

/-- The length of an array is set. -/
structure SetsLength (before after : Store) (array : ArrayAddress) (length : Nat) : Prop where
  size : (after.elements array).size = length
  /-- The length reads back, as a number that stands for it. -/
  reads : ∃ number, after.property (.array array) "length" = .ok (.number number) ∧
    Number.StandsFor number length
  /-- Below the length every index reads as before, and above it none has an element. -/
  below : ∀ index < length,
    after.property (.array array) (Nat.repr index) = before.property (.array array) (Nat.repr index)
  above : ∀ index, length ≤ index →
    after.property (.array array) (Nat.repr index) = .ok .undefined
  /-- The elements up to the length are kept. -/
  kept : ∀ index < min (before.elements array).size length,
    (after.elements array)[index]? = (before.elements array)[index]?
  /-- Where the array was shorter it is filled up. -/
  filled : ∀ gap, (before.elements array).size ≤ gap → gap < length →
    (after.elements array)[gap]? = some .undefined
  elsewhere : OnlyChanges array before after

theorem property_index (store : Store) (array : ArrayAddress) {index : Nat}
    (small : index ≤ maxArrayIndex) :
    store.property (.array array) (Nat.repr index) =
      .ok ((store.elements array)[index]?.getD .undefined) := by
  rw [Store.property, arrayProperty, if_neg (repr_ne_length index),
    arrayIndex?_eq_some_iff.mpr ⟨small, rfl⟩]
  rfl

/-- Nothing but the length is read under a key that is no index. -/
theorem property_other (store : Store) (array : ArrayAddress) {key : String}
    (unlike : key ≠ "length") (none : arrayIndex? key = none) :
    store.property (.array array) key = .ok .undefined := by
  rw [Store.property, arrayProperty, if_neg unlike, none]
  rfl

theorem property_length (store : Store) (array : ArrayAddress) :
    store.property (.array array) "length" =
      .ok (.number (Float.ofNat (store.elements array).size)) := by
  rw [Store.property, arrayProperty, if_pos rfl]

section

variable (store : Store) {array : ArrayAddress} (present : array.index < store.arrays.size)

theorem onlyChanges_modifyElements (array : ArrayAddress) (change : Array Value → Array Value) :
    OnlyChanges array store (store.modifyElements array change) where
  frames := rfl
  objects := rfl
  closures := rfl
  count := by simp [Store.modifyElements]
  others other apart := Store.elements_modifyElements_of_ne store apart change

include present

theorem setsElement {index : Nat} (small : index ≤ maxArrayIndex) (value : Value) :
    SetsElement store (store.modifyElements array (setElement index value)) array index value := by
  have written := Store.elements_modifyElements store present (setElement index value)
  refine ⟨?_, ?_, ?_, ?_, ?_, ?_, onlyChanges_modifyElements store array _⟩
  · rw [property_index _ _ small, written, getElem?_setElement, if_pos rfl]
    rfl
  · intro key unlike apart
    cases denoted : arrayIndex? key with
    | none => rw [property_other _ _ unlike denoted, property_other _ _ unlike denoted]
    | some other =>
        obtain ⟨within, rfl⟩ := arrayIndex?_eq_some_iff.mp denoted
        rw [property_index _ _ within, property_index _ _ within, written, getElem?_setElement,
          if_neg fun same => apart (congrArg Nat.repr same)]
        grind
  · intro other inside apart
    rw [written, getElem?_setElement, if_neg apart, if_pos (by omega),
      Array.getElem?_eq_getElem inside]
    rfl
  · intro gap outside before
    rw [written, getElem?_setElement, if_neg (by omega), if_pos (by omega),
      Array.getElem?_eq_none outside]
    rfl
  · rw [written, size_setElement]
  · rw [property_length, written, size_setElement]

theorem setsLength {length : Nat} (small : length ≤ maxArrayLength) :
    SetsLength store (store.modifyElements array (resizeElements length)) array length := by
  have written := Store.elements_modifyElements store present (resizeElements length)
  have exact : length < 2 ^ 53 := Nat.lt_of_le_of_lt small (by decide)
  refine ⟨?_, ⟨_, ?_, Number.standsFor_ofNat exact⟩, ?_, ?_, ?_, ?_,
    onlyChanges_modifyElements store array _⟩
  · rw [written, size_resizeElements]
  · rw [property_length, written, size_resizeElements]
  · intro index inside
    have within : index ≤ maxArrayIndex := inside.le.trans (small.trans (by decide))
    rw [property_index _ _ within, property_index _ _ within, written, getElem?_resizeElements,
      if_pos inside]
    rfl
  · intro index outside
    cases denoted : arrayIndex? (Nat.repr index) with
    | none => exact property_other _ _ (repr_ne_length index) denoted
    | some other =>
        obtain ⟨within, same⟩ := arrayIndex?_eq_some_iff.mp denoted
        obtain rfl := Contract.repr_injective same
        rw [property_index _ _ within, written, getElem?_resizeElements,
          if_neg (Nat.not_lt.mpr outside)]
        rfl
  · intro index inside
    rw [written, getElem?_resizeElements, if_pos (by omega),
      Array.getElem?_eq_getElem (by omega)]
    rfl
  · intro gap outside before
    rw [written, getElem?_resizeElements, if_pos before, Array.getElem?_eq_none outside]
    rfl

end

/-- What writing to an array does, whatever the key and the value; a length is given as a number. -/
structure ActsAsArray (machine : Machine) (scope : Scope) (array : ArrayAddress) : Prop where
  /-- A key denotes an element if it is the numeral of a number that is not too large. -/
  index : ∀ key index, arrayIndex? key = some index ↔ index ≤ 2 ^ 32 - 2 ∧ key = Nat.repr index
  /-- An element within reach is set. -/
  near : ∀ index value, index < 2 ^ 24 →
    ∃ store,
      writePlace scope (.property (.array array) (Nat.repr index)) value machine =
          .ok () { machine with store } ∧
        SetsElement machine.store store array index value
  /-- An element out of reach is refused. -/
  far : ∀ index value, 2 ^ 24 ≤ index → index ≤ 2 ^ 32 - 2 →
    ∃ reason,
      writePlace scope (.property (.array array) (Nat.repr index)) value machine =
        .error (.fault (.range reason)) machine
  /-- A length within reach is set. -/
  length : ∀ number (length : Nat), Number.StandsFor number length → length ≤ 2 ^ 24 →
    ∃ store,
      writePlace scope (.property (.array array) "length") (.number number) machine =
          .ok () { machine with store } ∧
        SetsLength machine.store store array length
  /-- Any other number is refused as a length. -/
  wrong : ∀ number, (∀ length : Nat, Number.StandsFor number length → 2 ^ 24 < length) →
    ∃ reason,
      writePlace scope (.property (.array array) "length") (.number number) machine =
        .error (.fault (.range reason)) machine
  /-- Nothing is kept under any other key. -/
  other : ∀ key value, key ≠ "length" → (∀ index ≤ 2 ^ 32 - 2, key ≠ Nat.repr index) →
    writePlace scope (.property (.array array) key) value machine = .ok () machine

section

variable {machine : Machine} {base : Value} {key : String} {value : Value}

/-- A write that resolves is performed. -/
theorem writePlace_of_resolved (scope : Scope) {write : Write}
    (resolved : machine.store.resolveWrite base key value = .ok write) :
    writePlace scope (.property base key) value machine =
      .ok () { machine with store := machine.store.perform write key value } := by
  simp only [writePlace, Action.tryUpdate, Store.setProperty, resolved]

/-- A write that does not resolve leaves the machine as it was. -/
theorem writePlace_of_refused (scope : Scope) {stop : Stop}
    (refused : machine.store.resolveWrite base key value = .error stop) :
    writePlace scope (.property base key) value machine = .error stop machine := by
  simp only [writePlace, Action.tryUpdate, Store.setProperty, refused]

end

section

variable (store : Store) (array : ArrayAddress) (value : Value)

theorem resolveWrite_index {index : Nat} (small : index ≤ maxArrayIndex) :
    store.resolveWrite (.array array) (Nat.repr index) value =
      if maxArrayLength ≤ index then .error (.fault (.range (.indexTooLarge index)))
      else .ok (.element array index) := by
  simp only [Store.resolveWrite, if_neg (repr_ne_length index),
    arrayIndex?_eq_some_iff.mpr ⟨small, rfl⟩]

theorem resolveWrite_length (number : Float) :
    store.resolveWrite (.array array) "length" (.number number) =
      store.resolveLength array (.number number) := by
  rw [Store.resolveWrite, if_pos rfl]

theorem resolveWrite_other {key : String} (unlike : key ≠ "length")
    (none : ∀ index ≤ maxArrayIndex, key ≠ Nat.repr index) :
    store.resolveWrite (.array array) key value = .ok .nothing := by
  simp only [Store.resolveWrite, if_neg unlike, arrayIndex?_eq_none_iff.mpr none]

end

/-- Every array acts as one. -/
theorem array_writes_read_back (machine : Machine) (scope : Scope) {array : ArrayAddress}
    (present : array.index < machine.store.arrays.size) : ActsAsArray machine scope array where
  index _ _ := arrayIndex?_eq_some_iff
  near index value near := by
    have small : index ≤ maxArrayIndex := near.le.trans (by decide)
    have within : ¬ maxArrayLength ≤ index := Nat.not_le.mpr near
    have resolved := resolveWrite_index machine.store array value small
    rw [if_neg within] at resolved
    exact ⟨_, writePlace_of_resolved scope resolved, setsElement machine.store present small value⟩
  far index value far small := by
    have beyond : maxArrayLength ≤ index := far
    have refused := resolveWrite_index machine.store array value small
    rw [if_pos beyond] at refused
    exact ⟨_, writePlace_of_refused scope refused⟩
  length number length exact near := by
    have small : length ≤ maxArrayIndex + 1 := near.trans (by decide)
    have within : ¬ maxArrayLength < length := Nat.not_lt.mpr near
    have resolved := resolveWrite_length machine.store array number
    rw [resolveLength_number, arrayLength?_eq_some_iff.mpr ⟨exact, small⟩] at resolved
    simp only [if_neg within] at resolved
    exact ⟨_, writePlace_of_resolved scope resolved, setsLength machine.store present near⟩
  wrong number far := by
    have refused := resolveWrite_length machine.store array number
    rw [resolveLength_number] at refused
    cases given : arrayLength? number with
    | none => exact ⟨_, writePlace_of_refused scope (refused.trans (by rw [given]))⟩
    | some length =>
        have beyond : maxArrayLength < length := far length (arrayLength?_eq_some_iff.mp given).1
        simp only [given, if_pos beyond] at refused
        exact ⟨_, writePlace_of_refused scope refused⟩
  other _ value unlike none :=
    writePlace_of_resolved scope (resolveWrite_other machine.store array value unlike none)

/-- A machine with an array of one element. -/
def holdingArray : Machine where
  store := ⟨#[], #[#[.truth true]], #[], #[]⟩
  output := #[]
  depth := 0
  depthLimit := usualDepthLimit

/-- The array grows to take a third element, and refuses a length below zero. -/
theorem array_writes_read_back_holdingArray :
    0 < holdingArray.store.arrays.size ∧
      (∃ store,
        writePlace [] (.property (.array ⟨0⟩) (Nat.repr 2)) (.truth false) holdingArray =
            .ok () { holdingArray with store } ∧
          SetsElement holdingArray.store store ⟨0⟩ 2 (.truth false)) ∧
        ∃ reason,
          writePlace [] (.property (.array ⟨0⟩) "length") (.number (Float.ofInt (-1)))
            holdingArray = .error (.fault (.range reason)) holdingArray := by
  have present : 0 < holdingArray.store.arrays.size := by decide
  have acts : ActsAsArray holdingArray [] ⟨0⟩ := array_writes_read_back holdingArray [] present
  refine ⟨present, acts.near 2 (.truth false) (by decide), acts.wrong _ fun length exact => ?_⟩
  have same := exact.unique (Number.standsFor_ofInt (show (-1 : Int).natAbs < 2 ^ 53 by decide))
  have nonnegative : (0 : ℚ) ≤ length := Nat.cast_nonneg length
  rw [same] at nonnegative
  exact absurd nonnegative (by norm_num)

end Covenant.Machine
