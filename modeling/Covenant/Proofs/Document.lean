import Covenant.Json.Basic
import Covenant.Proofs.Ascending

/-!
# Documents up to the order of keys

The parts of an interchange value are the value and all values in it.  Sorting
the keys of all its objects changes nothing where they ascend already, and
where no key is repeated it changes the order of entries only.
-/

namespace Covenant

namespace Json

/-! ## The parts of an interchange value -/

mutual

/-- An interchange value with all values in it. -/
def parts : Json → List Json
  | array elements => array elements :: partsOfElements elements
  | object entries => object entries :: partsOfEntries entries
  | leaf => [leaf]

/-- The values of a sequence with all values in them. -/
def partsOfElements : List Json → List Json
  | [] => []
  | element :: rest => element.parts ++ partsOfElements rest

/-- The values of a sequence of entries with all values in them. -/
def partsOfEntries : List (String × Json) → List Json
  | [] => []
  | (_, value) :: rest => value.parts ++ partsOfEntries rest

end

/-- Something holds of an interchange value and of all values in it. -/
def All (holds : Json → Prop) (json : Json) : Prop :=
  ∀ part ∈ json.parts, holds part

section

variable {holds weaker : Json → Prop}

theorem All.mono {json : Json} (all : json.All holds)
    (implies : ∀ part, holds part → weaker part) : json.All weaker :=
  fun part member => implies part (all part member)

theorem All.here {json : Json} (all : json.All holds) : holds json :=
  all json (by cases json <;> simp [parts])

theorem all_leaf {json : Json} (leaf : json.parts = [json]) : json.All holds ↔ holds json := by
  simp [All, leaf]

theorem mem_partsOfElements {part : Json} {elements : List Json} :
    part ∈ partsOfElements elements ↔ ∃ element ∈ elements, part ∈ element.parts := by
  induction elements with
  | nil => simp [partsOfElements]
  | cons element rest ih => simp [partsOfElements, ih]

theorem mem_partsOfEntries {part : Json} {entries : List (String × Json)} :
    part ∈ partsOfEntries entries ↔ ∃ entry ∈ entries, part ∈ entry.2.parts := by
  induction entries with
  | nil => simp [partsOfEntries]
  | cons entry rest ih => simp [partsOfEntries, ih]

theorem all_array {elements : List Json} :
    (array elements).All holds ↔
      holds (array elements) ∧ ∀ element ∈ elements, element.All holds := by
  simp only [All, parts, List.forall_mem_cons, mem_partsOfElements]
  exact and_congr_right fun _ =>
    ⟨fun all element member part inside => all part ⟨element, member, inside⟩,
      fun all part ⟨element, member, inside⟩ => all element member part inside⟩

theorem all_object {entries : List (String × Json)} :
    (object entries).All holds ↔
      holds (object entries) ∧ ∀ entry ∈ entries, entry.2.All holds := by
  simp only [All, parts, List.forall_mem_cons, mem_partsOfEntries]
  exact and_congr_right fun _ =>
    ⟨fun all entry member part inside => all part ⟨entry, member, inside⟩,
      fun all part ⟨entry, member, inside⟩ => all entry member part inside⟩

end

/-! ## Sorted keys -/

mutual

/-- An interchange value with the keys of all objects in it sorted. -/
def sorted : Json → Json
  | array elements => array (sortedElements elements)
  | object entries => object (Entries.sort (sortedEntries entries))
  | leaf => leaf

/-- The values of a sequence with sorted keys. -/
def sortedElements : List Json → List Json
  | [] => []
  | element :: rest => element.sorted :: sortedElements rest

/-- The values of a sequence of entries with sorted keys. -/
def sortedEntries : List (String × Json) → List (String × Json)
  | [] => []
  | (key, value) :: rest => (key, value.sorted) :: sortedEntries rest

end

/-- The keys of an object ascend. -/
def KeysAscend : Json → Prop
  | object entries => Entries.Ascending entries
  | _ => True

/-- No key of an object is repeated. -/
def KeysDistinct : Json → Prop
  | object entries => (entries.map Prod.fst).Nodup
  | _ => True

mutual

/-- Where all keys ascend, sorting them changes nothing. -/
theorem sorted_eq_self : (json : Json) → json.All KeysAscend → json.sorted = json
  | null, _ | bool _, _ | integer _, _ | number _, _ | string _, _ => by
      simp [sorted]
  | array elements, all => by
      rw [sorted, sortedElements_eq_self elements (all_array.mp all).2]
  | object entries, all => by
      obtain ⟨ascending, inner⟩ := all_object.mp all
      rw [sorted, sortedEntries_eq_self entries inner, Entries.sort_of_ascending ascending]

theorem sortedElements_eq_self : (elements : List Json) →
    (∀ element ∈ elements, element.All KeysAscend) → sortedElements elements = elements
  | [], _ => by
      rw [sortedElements]
  | element :: rest, all => by
      obtain ⟨first, others⟩ := List.forall_mem_cons.mp all
      rw [sortedElements, sorted_eq_self element first, sortedElements_eq_self rest others]

theorem sortedEntries_eq_self : (entries : List (String × Json)) →
    (∀ entry ∈ entries, entry.2.All KeysAscend) → sortedEntries entries = entries
  | [], _ => by
      rw [sortedEntries]
  | (key, value) :: rest, all => by
      obtain ⟨first, others⟩ := List.forall_mem_cons.mp all
      rw [sortedEntries, sorted_eq_self value first, sortedEntries_eq_self rest others]

end

theorem map_fst_sortedEntries (entries : List (String × Json)) :
    (sortedEntries entries).map Prod.fst = entries.map Prod.fst := by
  induction entries with
  | nil => rfl
  | cons entry rest ih => rw [sortedEntries, List.map_cons, ih, List.map_cons]

mutual

/-- Interchange values are the same but for the order of the entries of objects. -/
inductive SameUpToOrder : Json → Json → Prop where
  | same (json : Json) : SameUpToOrder json json
  | array {elements others : List Json} (inner : SameElements elements others) :
      SameUpToOrder (.array elements) (.array others)
  | object {entries others reordered : List (String × Json)} (inner : SameEntries entries others)
      (order : reordered.Perm others) : SameUpToOrder (.object entries) (.object reordered)

/-- The elements are the same, one by one, but for the order of entries in them. -/
inductive SameElements : List Json → List Json → Prop where
  | nil : SameElements [] []
  | cons {element other : Json} {rest others : List Json} (first : SameUpToOrder element other)
      (inner : SameElements rest others) : SameElements (element :: rest) (other :: others)

/-- The entries are the same, one by one, but for the order of entries in their values. -/
inductive SameEntries : List (String × Json) → List (String × Json) → Prop where
  | nil : SameEntries [] []
  | cons {key : String} {value other : Json} {rest others : List (String × Json)}
      (first : SameUpToOrder value other) (inner : SameEntries rest others) :
      SameEntries ((key, value) :: rest) ((key, other) :: others)

end

mutual

/-- Where no key is repeated, sorting changes the order of entries only. -/
theorem sameUpToOrder_sorted :
    (json : Json) → json.All KeysDistinct → SameUpToOrder json json.sorted
  | null, _ | bool _, _ | integer _, _ | number _, _ | string _, _ => by
      simpa only [sorted] using .same _
  | array elements, all => by
      rw [sorted]
      exact .array (sameElements_sorted elements (all_array.mp all).2)
  | object entries, all => by
      obtain ⟨distinct, inner⟩ := all_object.mp all
      rw [KeysDistinct, ← map_fst_sortedEntries] at distinct
      rw [sorted]
      exact .object (sameEntries_sorted entries inner) (Entries.sort_perm distinct)

theorem sameElements_sorted : (elements : List Json) →
    (∀ element ∈ elements, element.All KeysDistinct) →
      SameElements elements (sortedElements elements)
  | [], _ => by
      rw [sortedElements]
      exact .nil
  | element :: rest, all => by
      obtain ⟨first, others⟩ := List.forall_mem_cons.mp all
      rw [sortedElements]
      exact .cons (sameUpToOrder_sorted element first) (sameElements_sorted rest others)

theorem sameEntries_sorted : (entries : List (String × Json)) →
    (∀ entry ∈ entries, entry.2.All KeysDistinct) → SameEntries entries (sortedEntries entries)
  | [], _ => by
      rw [sortedEntries]
      exact .nil
  | (key, value) :: rest, all => by
      obtain ⟨first, others⟩ := List.forall_mem_cons.mp all
      rw [sortedEntries]
      exact .cons (sameUpToOrder_sorted value first) (sameEntries_sorted rest others)

end

end Json

end Covenant
