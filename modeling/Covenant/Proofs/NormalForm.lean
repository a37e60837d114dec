import Covenant.Proofs.Document
import Covenant.Proofs.Double
import Covenant.Proofs.Likeness
import Mathlib.Tactic.Linarith

/-!
# Interchange values in normal form

What a runtime value is written as is in normal form: integers are not too
large for doubles to tell them apart, other numbers are no such integers, and
keys ascend.  An interchange value whose numbers are in normal form is received
as a value that is written as the same again, with its keys sorted.  So writing
a value, receiving it and writing it again changes nothing, and documents keep
all but the order of their keys.
-/

namespace Covenant

open Machine

namespace Json

/-! ## Numbers -/

/-- A number is written as it stands by whatever receives it. -/
def NumberKept : Json → Prop
  | integer value => value.natAbs < 9 * 10 ^ 15
  | number value => numberToJson value = number value
  | _ => True

/-- A number is an integer below `9 * 10 ^ 15`, or a double that stands for no integer. -/
def NumberPlain : Json → Prop
  | integer value => value.natAbs < 9 * 10 ^ 15
  | number value => ∃ exact, Number.StandsFor value exact ∧ ∀ whole : Int, exact ≠ whole
  | _ => True

end Json

namespace Machine

/-- The double of an integer that is not too large is written as that integer. -/
theorem numberToJson_ofInt {value : Int} (small : value.natAbs < 9 * 10 ^ 15) :
    numberToJson (Float.ofInt value) = .integer value := by
  have representable : value.natAbs < 2 ^ 53 := by omega
  obtain ⟨exact, given, stands⟩ := Number.standsFor_ofInt representable
  have truncated := Number.Dyadic.truncate_of_value stands
  have below : exact.wholePart < 9 * Nat.pow 10 15 := by
    rw [← Number.Dyadic.natAbs_truncate, truncated]
    exact small
  simp [numberToJson, given, Number.Dyadic.isWhole_of_value stands, below, truncated]

/-- A double that stands for no integer is written as it is. -/
theorem numberToJson_of_fractional {value : Float} {exact : ℚ}
    (stands : Number.StandsFor value exact) (fractional : ∀ whole : Int, exact ≠ whole) :
    numberToJson value = .number value := by
  obtain ⟨parts, given, rfl⟩ := stands
  have notWhole : parts.isWhole = false := by
    by_contra whole
    exact fractional _ (Number.Dyadic.value_eq_truncate (Bool.eq_true_of_not_eq_false whole))
  simp [numberToJson, given, notWhole]

/-- A number is written as null, as an integer that is not too large, or as it is. -/
theorem numberToJson_cases (value : Float) :
    numberToJson value = .null ∨
      (∃ whole : Int, numberToJson value = .integer whole ∧ whole.natAbs < 9 * 10 ^ 15) ∨
        numberToJson value = .number value := by
  cases given : Number.dyadic? value with
  | none => exact .inl (by simp [numberToJson, given])
  | some exact =>
      by_cases small : exact.isWhole = true ∧ exact.wholePart < 9 * Nat.pow 10 15
      · refine .inr (.inl ⟨exact.truncate, by simp [numberToJson, given, small], ?_⟩)
        rw [Number.Dyadic.natAbs_truncate]
        exact small.2
      · exact .inr (.inr (by simp [numberToJson, given, small]))

/-! ## What values are written as -/

/-- A part of a value in normal form: numbers are kept and keys ascend. -/
def IsNormal (part : Json) : Prop :=
  part.NumberKept ∧ part.KeysAscend

theorem all_literalToJson (literal : Literal) : (literalToJson literal).All IsNormal := by
  cases literal with
  | number value =>
      rw [literalToJson]
      rcases numberToJson_cases value with written | ⟨whole, written, small⟩ | written
      · rw [written]
        exact (Json.all_leaf rfl).mpr ⟨trivial, trivial⟩
      · rw [written]
        exact (Json.all_leaf rfl).mpr ⟨small, trivial⟩
      · rw [written]
        exact (Json.all_leaf rfl).mpr ⟨written, trivial⟩
  | _ => exact (Json.all_leaf rfl).mpr ⟨trivial, trivial⟩

theorem all_null : Json.null.All IsNormal :=
  all_literalToJson .null

namespace Value

/-- What is written is in normal form. -/
theorem all_toJsonWithin (store : Store) (depth : Nat) (outer : List Value) (value : Value) :
    (value.toJsonWithin store depth outer).All IsNormal := by
  induction depth generalizing outer value with
  | zero =>
      cases value with
      | primitive literal => exact all_literalToJson literal
      | _ => exact all_null
  | succ depth ih =>
      cases value with
      | primitive literal => exact all_literalToJson literal
      | closure | builtin => exact all_null
      | array address =>
          rw [toJsonWithin]
          split
          · exact all_null
          · refine Json.all_array.mpr ⟨⟨trivial, trivial⟩, fun element member => ?_⟩
            obtain ⟨inner, _, rfl⟩ := List.mem_map.mp member
            exact ih _ inner
      | object address =>
          rw [toJsonWithin]
          split
          · exact all_null
          · refine Json.all_object.mpr
              ⟨⟨trivial, Entries.ascending_sort _⟩, fun entry member => ?_⟩
            obtain ⟨⟨key, inner⟩, _, rfl⟩ := List.mem_map.mp (Entries.mem_of_mem_sort member)
            exact ih _ inner

end Value

/-! ## Received values -/

/-- A store holds all the arrays and objects of an earlier one, unchanged. -/
structure Store.Precedes (before after : Store) : Prop where
  arrays : ∀ index < before.arrays.size, after.arrays[index]? = before.arrays[index]?
  objects : ∀ index < before.objects.size, after.objects[index]? = before.objects[index]?

namespace Store

variable {before between after : Store}

theorem Precedes.refl (store : Store) : store.Precedes store :=
  ⟨fun _ _ => rfl, fun _ _ => rfl⟩

/-- An array is no longer than one that holds all its elements. -/
theorem size_le_of_kept {α : Type} {first second : Array α}
    (kept : ∀ index < first.size, second[index]? = first[index]?) : first.size ≤ second.size := by
  by_contra more
  have missing := kept second.size (by omega)
  rw [Array.getElem?_eq_none (Nat.le_refl _), eq_comm, Array.getElem?_eq_none_iff] at missing
  omega

theorem Precedes.arrays_size (precedes : before.Precedes after) :
    before.arrays.size ≤ after.arrays.size :=
  size_le_of_kept precedes.arrays

theorem Precedes.objects_size (precedes : before.Precedes after) :
    before.objects.size ≤ after.objects.size :=
  size_le_of_kept precedes.objects

theorem Precedes.trans (first : before.Precedes between) (second : between.Precedes after) :
    before.Precedes after where
  arrays index less :=
    (second.arrays index (less.trans_le first.arrays_size)).trans (first.arrays index less)
  objects index less :=
    (second.objects index (less.trans_le first.objects_size)).trans (first.objects index less)

theorem Precedes.holds (precedes : before.Precedes after) {value : Value}
    (held : before.Holds value) : after.Holds value := by
  cases held with
  | array present => exact .array (present.trans_le precedes.arrays_size)
  | object present => exact .object (present.trans_le precedes.objects_size)

theorem precedes_addArray (store : Store) (elements : Array Value) :
    store.Precedes (store.addArray elements).2 where
  arrays index less := by
    simp [addArray, Array.getElem?_push_lt less, Array.getElem?_eq_getElem less]
  objects _ _ := rfl

theorem precedes_addObject (store : Store) (object : Object) :
    store.Precedes (store.addObject object).2 where
  arrays _ _ := rfl
  objects index less := by
    simp [addObject, Array.getElem?_push_lt less, Array.getElem?_eq_getElem less]

end Store

namespace Value

/--
A value is written so by every later store, from a depth on, and inside any
containers that are not in the store.
-/
def WrittenAs (store : Store) (depth : Nat) (value : Value) (json : Json) : Prop :=
  ∀ later enough outer, store.Precedes later → depth ≤ enough →
    (∀ container ∈ outer, ¬ store.Holds container) →
      value.toJsonWithin later enough outer = json

section

variable {store later : Store} {depth more : Nat} {value : Value} {json : Json}

theorem WrittenAs.mono (written : value.WrittenAs store depth json)
    (precedes : store.Precedes later) (less : depth ≤ more) :
    value.WrittenAs later more json :=
  fun last enough outer latest within apart =>
    written last enough outer (precedes.trans latest) (less.trans within)
      fun container member held => apart container member (precedes.holds held)

theorem writtenAs_primitive (store : Store) (literal : Literal) :
    (primitive literal).WrittenAs store 0 (literalToJson literal) := by
  intro later enough outer _ _ _
  cases enough <;> rfl

/-- What a new container contains is inside it and all that are around it. -/
theorem not_holds_of_mem_cons {container : Value} {outer : List Value}
    (precedes : store.Precedes later) (new : ¬ store.Holds container)
    (apart : ∀ other ∈ outer, ¬ later.Holds other) :
    ∀ other ∈ container :: outer, ¬ store.Holds other := by
  intro other member held
  rcases List.mem_cons.mp member with rfl | around
  · exact new held
  · exact apart other around (precedes.holds held)

/-- A new array is written as its elements are. -/
theorem writtenAs_addArray {values : List Value} {elements : List Json}
    (inner : List.Forall₂ (fun value json => value.WrittenAs store depth json) values elements) :
    (store.addArray values.toArray).1.WrittenAs (store.addArray values.toArray).2 (depth + 1)
      (.array elements) := by
  intro later enough outer precedes less apart
  obtain ⟨rest, rfl⟩ : ∃ rest, enough = rest + 1 := ⟨enough - 1, by omega⟩
  have grows := store.precedes_addArray values.toArray
  have present : store.arrays.size < (store.addArray values.toArray).2.arrays.size := by
    simp [Store.addArray]
  have outside : array ⟨store.arrays.size⟩ ∉ outer :=
    fun member => apart _ member (.array present)
  have new : ¬ store.Holds (array ⟨store.arrays.size⟩) := by
    intro held
    cases held with
    | array old => exact Nat.lt_irrefl _ old
  have contents : later.elements ⟨store.arrays.size⟩ = values.toArray := by
    have kept := precedes.arrays store.arrays.size present
    simp only [Store.addArray, Array.getElem?_push_size] at kept
    rw [Store.elements, Array.getD_eq_getD_getElem?, kept]
    rfl
  have written : values.map (toJsonWithin later rest (array ⟨store.arrays.size⟩ :: outer)) =
      elements.map id :=
    map_eq_of_forall₂ inner fun value json given =>
      given later rest _ (grows.trans precedes) (by omega) (not_holds_of_mem_cons grows new apart)
  simp only [Store.addArray, toJsonWithin, List.contains_iff_mem, outside, if_false, contents]
  rw [written, List.map_id]

/-- A new object is written as its properties are, with sorted keys. -/
theorem writtenAs_addObject {properties : List (String × Value)} {entries : List (String × Json)}
    (inner : List.Forall₂
      (fun property entry => property.1 = entry.1 ∧ property.2.WrittenAs store depth entry.2)
      properties entries) :
    (store.addObject ⟨.plain, Entries.sort properties⟩).1.WrittenAs
      (store.addObject ⟨.plain, Entries.sort properties⟩).2 (depth + 1)
        (.object (Entries.sort entries)) := by
  intro later enough outer precedes less apart
  obtain ⟨rest, rfl⟩ : ∃ rest, enough = rest + 1 := ⟨enough - 1, by omega⟩
  have grows := store.precedes_addObject ⟨.plain, Entries.sort properties⟩
  have present : store.objects.size <
      (store.addObject ⟨.plain, Entries.sort properties⟩).2.objects.size := by
    simp [Store.addObject]
  have outside : object ⟨store.objects.size⟩ ∉ outer :=
    fun member => apart _ member (.object present)
  have new : ¬ store.Holds (object ⟨store.objects.size⟩) := by
    intro held
    cases held with
    | object old => exact Nat.lt_irrefl _ old
  have contents : later.object ⟨store.objects.size⟩ = ⟨.plain, Entries.sort properties⟩ := by
    have kept := precedes.objects store.objects.size present
    simp only [Store.addObject, Array.getElem?_push_size] at kept
    rw [Store.object, Array.getD_eq_getD_getElem?, kept]
    rfl
  have written : properties.map
      (Prod.map id (toJsonWithin later rest (object ⟨store.objects.size⟩ :: outer))) =
        entries.map id :=
    map_eq_of_forall₂ inner fun property entry given => Prod.ext given.1
      (given.2 later rest _ (grows.trans precedes) (by omega)
        (not_holds_of_mem_cons grows new apart))
  simp only [Store.addObject, toJsonWithin, List.contains_iff_mem, outside, if_false, contents]
  change Json.object (Entries.sort ((Entries.sort properties).map (Prod.map id _))) = _
  rw [← Entries.sort_map, written, List.map_id, Entries.sort_sort]

end

/-! ## Receiving -/

/-- Receiving values adds cells to a store, at least as many as the values are deep. -/
structure Grows (before after : Store) (depth : Nat) : Prop where
  precedes : before.Precedes after
  deepens : before.depthBound + depth ≤ after.depthBound

namespace Grows

variable {before between after : Store} {depth less : Nat}

theorem refl (store : Store) : Grows store store 0 :=
  ⟨.refl store, Nat.le_refl _⟩

theorem max (first : Grows before between depth) (second : Grows between after less) :
    Grows before after (max depth less) where
  precedes := first.precedes.trans second.precedes
  deepens := by
    have one := first.deepens
    have two := second.deepens
    omega

theorem addArray (inner : Grows before between depth) (elements : Array Value) :
    Grows before (between.addArray elements).2 (depth + 1) where
  precedes := inner.precedes.trans (between.precedes_addArray elements)
  deepens := by
    have deepens := inner.deepens
    simp only [Store.depthBound, Store.addArray, Array.size_push] at deepens ⊢
    omega

theorem addObject (inner : Grows before between depth) (added : Object) :
    Grows before (between.addObject added).2 (depth + 1) where
  precedes := inner.precedes.trans (between.precedes_addObject added)
  deepens := by
    have deepens := inner.deepens
    simp only [Store.depthBound, Store.addObject, Array.size_push] at deepens ⊢
    omega

end Grows

theorem writtenAs_leaf (store : Store) (literal : Literal) {json : Json}
    (written : literalToJson literal = json) :
    Grows store store 0 ∧ (primitive literal).WrittenAs store 0 json :=
  ⟨.refl store, written ▸ writtenAs_primitive store literal⟩

mutual

/-- What is received is written as it was, with sorted keys. -/
theorem writtenAs_ofJson (store : Store) : (json : Json) → json.All Json.NumberKept →
    Grows store (ofJson json store).2 json.depth ∧
      (ofJson json store).1.WrittenAs (ofJson json store).2 json.depth json.sorted
  | .null, _ | .bool _, _ | .string _, _ => by
      simp only [ofJson, Json.depth, Json.sorted]
      exact writtenAs_leaf store _ rfl
  | .integer value, all => by
      simp only [ofJson, Json.depth, Json.sorted]
      exact writtenAs_leaf store _ (numberToJson_ofInt all.here)
  | .number value, all => by
      simp only [ofJson, Json.depth, Json.sorted]
      exact writtenAs_leaf store _ all.here
  | .array elements, all => by
      obtain ⟨grows, written⟩ := writtenAs_ofElements store elements (Json.all_array.mp all).2
      rw [ofJson, Json.depth, Json.sorted]
      exact ⟨grows.addArray _, writtenAs_addArray written⟩
  | .object entries, all => by
      obtain ⟨grows, written⟩ := writtenAs_ofEntries store entries (Json.all_object.mp all).2
      rw [ofJson, Json.depth, Json.sorted]
      exact ⟨grows.addObject _, writtenAs_addObject written⟩

theorem writtenAs_ofElements (store : Store) : (elements : List Json) →
    (∀ element ∈ elements, element.All Json.NumberKept) →
    Grows store (ofElements elements store).2 (Json.depthOfElements elements) ∧
      List.Forall₂
        (fun value json =>
          value.WrittenAs (ofElements elements store).2 (Json.depthOfElements elements) json)
        (ofElements elements store).1 (Json.sortedElements elements)
  | [], _ => by
      rw [ofElements, Json.depthOfElements, Json.sortedElements]
      exact ⟨.refl store, .nil⟩
  | element :: rest, all => by
      obtain ⟨here, others⟩ := List.forall_mem_cons.mp all
      obtain ⟨first, written⟩ := writtenAs_ofJson store element here
      obtain ⟨second, inner⟩ := writtenAs_ofElements (ofJson element store).2 rest others
      rw [ofElements, Json.depthOfElements, Json.sortedElements]
      exact ⟨first.max second, .cons (written.mono second.precedes (Nat.le_max_left _ _))
        (inner.imp fun value json given => given.mono (.refl _) (Nat.le_max_right _ _))⟩

theorem writtenAs_ofEntries (store : Store) : (entries : List (String × Json)) →
    (∀ entry ∈ entries, entry.2.All Json.NumberKept) →
    Grows store (ofEntries entries store).2 (Json.depthOfEntries entries) ∧
      List.Forall₂
        (fun property entry => property.1 = entry.1 ∧
          property.2.WrittenAs (ofEntries entries store).2 (Json.depthOfEntries entries) entry.2)
        (ofEntries entries store).1 (Json.sortedEntries entries)
  | [], _ => by
      rw [ofEntries, Json.depthOfEntries, Json.sortedEntries]
      exact ⟨.refl store, .nil⟩
  | (key, element) :: rest, all => by
      obtain ⟨here, others⟩ := List.forall_mem_cons.mp all
      obtain ⟨first, written⟩ := writtenAs_ofJson store element here
      obtain ⟨second, inner⟩ := writtenAs_ofEntries (ofJson element store).2 rest others
      rw [ofEntries, Json.depthOfEntries, Json.sortedEntries]
      exact ⟨first.max second, .cons ⟨rfl, written.mono second.precedes (Nat.le_max_left _ _)⟩
        (inner.imp fun property entry given =>
          ⟨given.1, given.2.mono (.refl _) (Nat.le_max_right _ _)⟩)⟩

end

/-- What is received and written at once is what was received, with sorted keys. -/
theorem toJson_ofJson (store : Store) {json : Json} (kept : json.All Json.NumberKept) :
    (ofJson json store).1.toJson (ofJson json store).2 = json.sorted := by
  obtain ⟨grows, written⟩ := writtenAs_ofJson store json kept
  exact written _ _ _ (.refl _) ((Nat.le_add_left _ _).trans grows.deepens) (List.forall_mem_nil _)

end Value

end Machine

/-- Plain numbers are written as they stand. -/
theorem Json.NumberPlain.kept {json : Json} (plain : json.NumberPlain) : json.NumberKept := by
  cases json with
  | integer value => exact plain
  | number value =>
      obtain ⟨exact, stands, fractional⟩ := plain
      exact numberToJson_of_fractional stands fractional
  | _ => trivial

/--
Writing a value brings it into a normal form.  What has been written comes back
unchanged when it is received and written again, whatever the value was; and a
document without repeated keys, with plain numbers, comes back unchanged but for
the order of its keys.
-/
theorem Machine.interchange_normalizes :
    (∀ (store receiver : Store) (value : Value),
        (Value.ofJson (value.toJson store) receiver).1.toJson
            (Value.ofJson (value.toJson store) receiver).2 = value.toJson store) ∧
      ∀ (receiver : Store) (document : Json),
        document.All Json.KeysDistinct → document.All Json.NumberPlain →
          Json.SameUpToOrder document
            ((Value.ofJson document receiver).1.toJson (Value.ofJson document receiver).2) := by
  constructor
  · intro store receiver value
    have normal := Value.all_toJsonWithin store store.depthBound [] value
    rw [← Value.toJson] at normal
    rw [Value.toJson_ofJson receiver (normal.mono fun part => And.left)]
    exact Json.sorted_eq_self _ (normal.mono fun part => And.right)
  · intro receiver document distinct plain
    rw [Value.toJson_ofJson receiver (plain.mono fun part => Json.NumberPlain.kept)]
    exact Json.sameUpToOrder_sorted document distinct

/-- A document with an integer and a fraction, its keys in another order than the usual one. -/
def unsortedDocument : Json :=
  .object [("b", .array [.integer (-7), .number (Float.ofBits 0x3fe0000000000000)]), ("a", .null)]

/-- The bits are those of one half, which is no integer. -/
theorem numberPlain_half : Json.NumberPlain (.number (Float.ofBits 0x3fe0000000000000)) := by
  refine ⟨1 / 2, ⟨⟨false, 2 ^ 52, -53⟩, ?_, ?_⟩, fun whole same => ?_⟩
  · rw [Number.dyadic?_eq_exactOf?]
    rfl
  · norm_num [Number.Dyadic.value]
  · have doubled : (1 : ℚ) = 2 * whole := by linarith
    have parity : (1 : Int) = 2 * whole := by exact_mod_cast doubled
    omega

/-- The document comes back with its keys sorted, and otherwise as it was. -/
theorem Machine.interchange_normalizes_unsortedDocument :
    unsortedDocument.All Json.KeysDistinct ∧ unsortedDocument.All Json.NumberPlain ∧
      Json.SameUpToOrder unsortedDocument
        ((Value.ofJson unsortedDocument .empty).1.toJson
          (Value.ofJson unsortedDocument .empty).2) := by
  have distinct : unsortedDocument.All Json.KeysDistinct := by
    simp [unsortedDocument, Json.All, Json.parts, Json.partsOfElements, Json.partsOfEntries,
      Json.KeysDistinct]
  have plain : unsortedDocument.All Json.NumberPlain := by
    intro part member
    simp only [unsortedDocument, Json.parts, Json.partsOfElements, Json.partsOfEntries,
      List.cons_append, List.nil_append, List.append_nil, List.mem_cons, List.not_mem_nil,
      or_false] at member
    rcases member with rfl | rfl | rfl | rfl | rfl
    · trivial
    · trivial
    · change (7 : Nat) < 9 * 10 ^ 15
      decide
    · exact numberPlain_half
    · trivial
  exact ⟨distinct, plain, Machine.interchange_normalizes.2 .empty unsortedDocument distinct plain⟩

end Covenant
