import Mathlib.Data.List.Nodup
import Mathlib.Data.List.Perm.Subperm
import Covenant.Contract.FreshName

/-!
# Fresh names are fresh

The places of a series have different names, so among as many places as there
are taken names and one more there is a free one.  The search for it therefore
ends before its fuel does, and a supply hands out only names that it has not
handed out before and that were not taken to begin with.
-/

namespace Covenant.Contract

/-- Different numbers have different numerals. -/
theorem repr_injective : Function.Injective Nat.repr := by
  intro first second equal
  have digits := congrArg (fun text => Nat.ofDigitChars 10 text.toList 0) equal
  simpa [Nat.ofDigitChars_ten_toDigits] using digits

/-- Different places of a series have different names. -/
theorem candidateName_injective
    (stem : String) {first second : Nat}
    (firstCounts : 0 < first) (secondCounts : 0 < second)
    (equal : candidateName stem first = candidateName stem second) :
    first = second := by
  unfold candidateName at equal
  split at equal <;> split at equal
  · omega
  · exact (Nat.repr_ne_empty (String.append_eq_left_iff.mp equal.symm)).elim
  · exact (Nat.repr_ne_empty (String.append_eq_left_iff.mp equal)).elim
  · exact repr_injective ((String.append_right_inj _).mp equal)

/-- The names of places that follow each other in a series. -/
def candidates (stem : String) (place count : Nat) : List String :=
  (List.range count).map fun offset => candidateName stem (place + offset)

theorem candidates_nodup (stem : String) {place : Nat} (counts : 0 < place) (count : Nat) :
    (candidates stem place count).Nodup := by
  refine List.nodup_range.map_on ?_
  intro first _ second _ equal
  have places := candidateName_injective stem (by omega) (by omega) equal
  omega

/-- A search that ends at a taken name has passed only taken names. -/
theorem candidates_subset_of_firstFree_mem
    (taken : List String) (stem : String) :
    ∀ fuel place, firstFree taken stem fuel place ∈ taken →
      candidates stem place (fuel + 1) ⊆ taken := by
  intro fuel
  induction fuel with
  | zero =>
      intro place member
      simpa [candidates, firstFree] using member
  | succ fuel induction =>
      intro place member
      rw [firstFree] at member
      split at member
      case isTrue occupied =>
        intro name among
        obtain ⟨offset, bounded, rfl⟩ := List.mem_map.mp among
        cases offset with
        | zero => simpa using occupied
        | succ offset =>
            refine induction (place + 1) member (List.mem_map.mpr ⟨offset, ?_, ?_⟩)
            · simpa using List.mem_range.mp bounded
            · rw [Nat.add_assoc, Nat.add_comm 1]
      case isFalse free =>
        exact (free (by simpa using member)).elim

/-- A search with more fuel than there are taken names ends at a free name. -/
theorem firstFree_not_mem
    {taken : List String} {stem : String} {fuel place : Nat}
    (counts : 0 < place) (enough : taken.length ≤ fuel) :
    firstFree taken stem fuel place ∉ taken := by
  intro member
  have within := candidates_subset_of_firstFree_mem taken stem fuel place member
  have bound := (List.subperm_of_subset (candidates_nodup stem counts (fuel + 1)) within).length_le
  simp only [candidates, List.length_map, List.length_range] at bound
  omega

/-- A name of the form in which names are handed out. -/
def Coined (name : String) : Prop :=
  ∃ rest, name = "_" ++ rest

theorem coined_candidateName (stem : String) (place : Nat) : Coined (candidateName stem place) := by
  unfold candidateName
  split
  · exact ⟨stem, rfl⟩
  · exact ⟨stem ++ Nat.repr place, String.append_assoc ..⟩

/-- Every search ends at a place of the series. -/
theorem coined_firstFree (taken : List String) (stem : String) :
    ∀ fuel place, Coined (firstFree taken stem fuel place) := by
  intro fuel
  induction fuel with
  | zero =>
      intro place
      exact coined_candidateName stem place
  | succ fuel induction =>
      intro place
      rw [firstFree]
      split
      · exact induction (place + 1)
      · exact coined_candidateName stem place

namespace NameSupply

/-- A name that a supply may hand out. -/
structure Offers (supply : NameSupply) (name : String) : Prop where
  free : name ∉ supply.taken
  coined : Coined name

/-- A name that is handed out was not taken. -/
theorem generate_fresh (supply : NameSupply) (text : String) :
    supply.Offers (supply.generate text).1 :=
  ⟨firstFree_not_mem Nat.one_pos (Nat.le_succ _), coined_firstFree _ _ _ _⟩

/-- A name that is handed out is taken from then on, and no other one. -/
theorem generate_taken (supply : NameSupply) (text : String) :
    (supply.generate text).2.taken = (supply.generate text).1 :: supply.taken :=
  rfl

end NameSupply

end Covenant.Contract
