import Covenant.Entries
import Mathlib.Data.List.Induction
import Mathlib.Data.String.Basic

/-!
# Sorted entries

Sorting entries by their keys gives strictly ascending keys, changes nothing
where they ascend already, and only reorders them where no key is repeated.
-/

namespace Covenant.Entries

variable {α β : Type}

/-- Keys in ascending order, none of them twice. -/
abbrev Ascending (entries : List (String × α)) : Prop :=
  entries.Pairwise fun first second => first.1 < second.1

/-! ## Inserting an entry -/

section

variable (key : String) (value : α) (entries : List (String × α))

theorem map_insert (change : α → β) :
    (insert key value entries).map (Prod.map id change) =
      insert key (change value) (entries.map (Prod.map id change)) := by
  induction entries with
  | nil => rfl
  | cons entry rest ih =>
      obtain ⟨name, old⟩ := entry
      simp only [insert, List.map_cons, Prod.map_apply, id_eq]
      split
      · rfl
      · split
        · rfl
        · rw [List.map_cons, ih]
          rfl

theorem mem_of_mem_insert {entry : String × α} (member : entry ∈ insert key value entries) :
    entry = (key, value) ∨ entry ∈ entries := by
  induction entries with
  | nil => exact .inl (List.mem_singleton.mp member)
  | cons first rest ih =>
      obtain ⟨name, old⟩ := first
      rw [insert] at member
      split at member
      · rename_i same
        rcases List.mem_cons.mp member with rfl | later
        · exact .inl (by rw [same])
        · exact .inr (List.mem_cons_of_mem _ later)
      · split at member
        · exact List.mem_cons.mp member
        · rcases List.mem_cons.mp member with rfl | later
          · exact .inr List.mem_cons_self
          · exact (ih later).imp_right (List.mem_cons_of_mem _)

variable {entries}

theorem ascending_insert (ascending : Ascending entries) :
    Ascending (insert key value entries) := by
  induction entries with
  | nil => exact List.pairwise_singleton _ _
  | cons first rest ih =>
      obtain ⟨name, old⟩ := first
      obtain ⟨least, others⟩ := List.pairwise_cons.mp ascending
      rw [insert]
      split
      · exact List.pairwise_cons.mpr ⟨least, others⟩
      · rename_i apart
        split
        · rename_i before
          refine List.pairwise_cons.mpr ⟨fun entry member => ?_, ascending⟩
          rcases List.mem_cons.mp member with rfl | later
          · exact before
          · exact before.trans (least entry later)
        · rename_i notBefore
          have after : name < key := lt_of_le_of_ne (not_lt.mp notBefore) (Ne.symm apart)
          refine List.pairwise_cons.mpr ⟨fun entry member => ?_, ih others⟩
          rcases mem_of_mem_insert key value rest member with rfl | later
          · exact after
          · exact least entry later

/-- A key above all others is inserted at the end. -/
theorem insert_of_above (above : ∀ entry ∈ entries, entry.1 < key) :
    insert key value entries = entries ++ [(key, value)] := by
  induction entries with
  | nil => rfl
  | cons first rest ih =>
      obtain ⟨name, old⟩ := first
      have after : name < key := above _ List.mem_cons_self
      rw [insert, if_neg after.ne', if_neg after.asymm,
        ih fun entry member => above entry (List.mem_cons_of_mem _ member)]
      rfl

/-- A key that is not there is added. -/
theorem insert_perm (new : ∀ entry ∈ entries, entry.1 ≠ key) :
    (insert key value entries).Perm ((key, value) :: entries) := by
  induction entries with
  | nil => exact .refl _
  | cons first rest ih =>
      obtain ⟨name, old⟩ := first
      have apart : name ≠ key := new _ List.mem_cons_self
      rw [insert, if_neg apart.symm]
      split
      · exact .refl _
      · exact ((ih fun entry member => new entry (List.mem_cons_of_mem _ member)).cons _).trans
          (.swap _ _ _)

end

/-! ## Sorting -/

/-- Entries inserted one after the other. -/
theorem sort_concat (entries : List (String × α)) (entry : String × α) :
    sort (entries ++ [entry]) = insert entry.1 entry.2 (sort entries) := by
  rw [sort, List.foldl_append]
  rfl

variable {entries : List (String × α)}

theorem sort_map (change : α → β) (entries : List (String × α)) :
    sort (entries.map (Prod.map id change)) = (sort entries).map (Prod.map id change) := by
  induction entries using List.reverseRecOn with
  | nil => rfl
  | append_singleton entries entry ih =>
      rw [List.map_append, List.map_singleton, sort_concat, sort_concat, map_insert, ih]
      rfl

theorem mem_of_mem_sort {entry : String × α} (member : entry ∈ sort entries) :
    entry ∈ entries := by
  induction entries using List.reverseRecOn with
  | nil => exact member
  | append_singleton entries last ih =>
      rw [sort_concat] at member
      rcases mem_of_mem_insert _ _ _ member with rfl | before
      · exact List.mem_append_right _ (List.mem_singleton_self _)
      · exact List.mem_append_left _ (ih before)

theorem ascending_sort (entries : List (String × α)) : Ascending (sort entries) := by
  induction entries using List.reverseRecOn with
  | nil => exact .nil
  | append_singleton entries entry ih =>
      rw [sort_concat]
      exact ascending_insert _ _ ih

theorem sort_of_ascending (ascending : Ascending entries) : sort entries = entries := by
  induction entries using List.reverseRecOn with
  | nil => rfl
  | append_singleton entries entry ih =>
      obtain ⟨before, _, above⟩ := List.pairwise_append.mp ascending
      rw [sort_concat, ih before]
      exact insert_of_above _ _ fun other member => above other member _ (List.mem_singleton_self _)

theorem sort_sort (entries : List (String × α)) : sort (sort entries) = sort entries :=
  sort_of_ascending (ascending_sort entries)

/-- Where no key is repeated, sorting only reorders. -/
theorem sort_perm (distinct : (entries.map Prod.fst).Nodup) : (sort entries).Perm entries := by
  induction entries using List.reverseRecOn with
  | nil => exact .refl _
  | append_singleton entries entry ih =>
      rw [List.map_append, List.map_singleton] at distinct
      obtain ⟨before, _, apart⟩ := List.nodup_append.mp distinct
      have sorted := ih before
      have new : ∀ other ∈ sort entries, other.1 ≠ entry.1 := fun other member =>
        apart _ (List.mem_map_of_mem (sorted.mem_iff.mp member)) _ (List.mem_singleton_self _)
      rw [sort_concat]
      exact (insert_perm _ _ new).trans
        ((sorted.cons _).trans (List.perm_append_singleton _ _).symm)

end Covenant.Entries
