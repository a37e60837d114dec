import Mathlib.Logic.Relation
import Covenant.Machine.Property
import Covenant.Proofs.Likeness

/-!
# Writes that come into conflict

The number that a length is set to is converted from a value while the array is
held for the change.  If the text of the value takes in that array, the two are
in conflict.  The search for the array in the value is exact: it follows values
into their texts and misses nothing, whatever contains what.  So a write of a
property comes into conflict just where the length of an array is set to a value
that is written with that array, and otherwise it succeeds or fails.
-/

namespace Covenant.Machine

/-! ## Last departures -/

section

variable {α : Type} {related : α → α → Prop} {start target : α}

/-- A way that leads elsewhere leaves its start for the last time. -/
theorem last_departure (reaches : Relation.ReflTransGen related start target) :
    start = target ∨
      ∃ next, related start next ∧
        Relation.ReflTransGen (fun one other => related one other ∧ one ≠ start) next target := by
  have onTheWay : ∀ place, Relation.ReflTransGen related place target →
      Relation.ReflTransGen (fun one other => related one other ∧ one ≠ start) place target ∨
        ∃ next, related start next ∧
          Relation.ReflTransGen (fun one other => related one other ∧ one ≠ start) next target := by
    intro place way
    induction way using Relation.ReflTransGen.head_induction_on with
    | refl => exact .inl .refl
    | @head place next step _ ih =>
        rcases ih with avoids | departs
        · by_cases back : place = start
          · exact .inr ⟨next, back ▸ step, avoids⟩
          · exact .inl (avoids.head ⟨step, back⟩)
        · exact .inr departs
  rcases onTheWay start reaches with avoids | departs
  · rcases avoids.cases_head with same | ⟨_, ⟨_, apart⟩, _⟩
    · exact .inl same
    · exact absurd rfl apart
  · exact .inr departs

end

/-! ## What the text of a value is made of -/

/-- The text of an array takes in its elements, and that of an error object its message. -/
inductive Store.TakesIn (store : Store) : Value → Value → Prop where
  | element {array : ArrayAddress} {element : Value} (member : element ∈ store.elements array) :
      TakesIn store (.array array) element
  | message {object : ObjectAddress} {message : Value}
      (isError : (store.object object).kind = .error)
      (found : (store.object object).properties.lookup "message" = some message) :
      TakesIn store (.object object) message

/-- The text of a value takes in that of an array, at any depth. -/
abbrev Store.WrittenWith (store : Store) (target : ArrayAddress) (value : Value) : Prop :=
  Relation.ReflTransGen store.TakesIn value (.array target)

section

variable {store : Store} {target : ArrayAddress}

theorem Store.TakesIn.holds {value inner : Value} (takes : store.TakesIn value inner) :
    store.Holds value := by
  cases takes with
  | @element array _ member =>
      refine .array (Nat.lt_of_not_le fun beyond => ?_)
      rw [Store.elements, Array.getD_eq_getD_getElem?, Array.getElem?_eq_none beyond] at member
      exact absurd member (Array.not_mem_empty _)
  | @message object _ isError _ =>
      refine .object (Nat.lt_of_not_le fun beyond => ?_)
      rw [Store.object, Array.getD_eq_getD_getElem?, Array.getElem?_eq_none beyond] at isError
      cases isError

/-- Where the search finds the array, the value is written with it. -/
theorem writtenWith_of_isWrittenWithin {depth : Nat} {outer : List Value} {value : Value}
    (found : value.isWrittenWithin store target depth outer = true) :
    store.WrittenWith target value := by
  induction depth generalizing outer value with
  | zero => cases value <;> cases found
  | succ depth ih =>
      cases value with
      | primitive | closure | builtin => cases found
      | array address =>
          rw [Value.isWrittenWithin] at found
          split at found
          · cases found
          · rcases Bool.or_eq_true_iff.mp found with same | within
            · rw [beq_iff_eq.mp same]
            · obtain ⟨element, member, inner⟩ := List.any_eq_true.mp within
              exact (ih inner).head (.element (Array.mem_toList_iff.mp member))
      | object address =>
          rw [Value.isWrittenWithin] at found
          split at found
          · cases found
          · split at found
            · cases found
            · rename_i isError
              split at found
              · rename_i message given
                exact (ih found).head (.message isError given)
              · cases found

/--
The search finds the array wherever a way leads to it that avoids the values
around: it takes such a way from where that leaves the value for the last time.
-/
theorem isWrittenWithin_of_reaches (present : target.index < store.arrays.size) {depth : Nat}
    {outer : List Value} {value : Value} (room : store.Room depth outer)
    (apart : .array target ∉ outer)
    (reaches : Relation.ReflTransGen
      (fun one other => store.TakesIn one other ∧ one ∉ outer) value (.array target)) :
    value.isWrittenWithin store target depth outer = true := by
  rcases last_departure reaches with rfl | ⟨next, ⟨takes, new⟩, rest⟩
  · obtain ⟨less, rfl, _⟩ := room.exists_succ (.array present) apart
    simp [Value.isWrittenWithin, apart]
  · obtain ⟨less, rfl, inner⟩ := room.exists_succ takes.holds new
    by_cases here : value = .array target
    · subst here
      simp [Value.isWrittenWithin, apart]
    · have found := isWrittenWithin_of_reaches present inner
        (List.not_mem_cons_of_ne_of_not_mem (Ne.symm here) apart)
        (Relation.ReflTransGen.mono (fun _ _ step =>
          ⟨step.1.1, List.not_mem_cons_of_ne_of_not_mem step.2 step.1.2⟩) _ _ rest)
      cases takes with
      | @element array _ member =>
          have among : (store.elements array).toList.any
              (Value.isWrittenWithin store target less (.array array :: outer)) = true :=
            List.any_eq_true.mpr ⟨next, Array.mem_toList_iff.mpr member, found⟩
          rw [Value.isWrittenWithin, among, Bool.or_true]
          simp [new]
      | message isError given => simp [Value.isWrittenWithin, new, isError, given, found]
termination_by depth

/-- The search for an array in the text of a value is exact. -/
theorem isWrittenWith_iff (present : target.index < store.arrays.size) {value : Value} :
    value.isWrittenWith store target = true ↔ store.WrittenWith target value :=
  ⟨writtenWith_of_isWrittenWithin, fun written =>
    isWrittenWithin_of_reaches present (.start store) List.not_mem_nil
      (Relation.ReflTransGen.mono (fun _ _ takes => ⟨takes, List.not_mem_nil⟩) _ _ written)⟩

end

/-! ## Conflicts -/

section

variable {store : Store} {base value : Value} {key : String}

theorem resolveLength_conflict_iff {array target : ArrayAddress} :
    store.resolveLength array value = .error (.conflict target) ↔
      array = target ∧ value.isWrittenWith store target = true := by
  rw [Store.resolveLength]
  by_cases written : value.isWrittenWith store array = true
  · rw [if_pos written]
    constructor
    · intro same
      cases same
      exact ⟨rfl, written⟩
    · rintro ⟨rfl, _⟩
      rfl
  · rw [if_neg written]
    refine ⟨fun stops => ?_, fun both => absurd (both.1 ▸ both.2) written⟩
    split at stops
    · cases stops
    · split at stops <;> cases stops

theorem resolveWrite_conflict_iff {target : ArrayAddress} :
    store.resolveWrite base key value = .error (.conflict target) ↔
      base = .array target ∧ key = "length" ∧ value.isWrittenWith store target = true := by
  cases base with
  | primitive literal => cases literal <;> simp [Store.resolveWrite]
  | closure | builtin | object => simp [Store.resolveWrite]
  | array address =>
      by_cases length : key = "length"
      · simp [Store.resolveWrite, length, resolveLength_conflict_iff]
      · simp only [Store.resolveWrite, length, if_false, false_and, and_false, iff_false]
        intro stops
        split at stops
        · cases stops
        · split at stops <;> cases stops

/-- Resolving a write uses no fuel. -/
theorem resolveWrite_ne_exhausted : store.resolveWrite base key value ≠ .error .exhausted := by
  cases base with
  | primitive literal => cases literal <;> simp [Store.resolveWrite]
  | closure | builtin | object => simp [Store.resolveWrite]
  | array address => grind [Store.resolveWrite, Store.resolveLength]

/--
Writing a property comes into conflict with an array just if it sets the length
of that array to a value that is written with it.
-/
theorem setProperty_conflict_iff {target : ArrayAddress}
    (present : target.index < store.arrays.size) :
    store.setProperty base key value = .error (.conflict target) ↔
      base = .array target ∧ key = "length" ∧ store.WrittenWith target value := by
  rw [← isWrittenWith_iff present, ← resolveWrite_conflict_iff, Store.setProperty]
  cases store.resolveWrite base key value <;> simp

example :
    (Store.mk #[] #[#[.truth true]] #[] #[]).setProperty (.array ⟨0⟩) "length" (.array ⟨0⟩) =
      .error (.conflict ⟨0⟩) :=
  (setProperty_conflict_iff (by decide)).mpr ⟨rfl, rfl, .refl⟩

/-- A write of a property that comes into no conflict succeeds or fails. -/
theorem setProperty_ends
    (apart : ∀ target, store.setProperty base key value ≠ .error (.conflict target)) :
    (∃ after, store.setProperty base key value = .ok after) ∨
      ∃ fault, store.setProperty base key value = .error (.fault fault) := by
  rw [Store.setProperty] at apart ⊢
  cases resolved : store.resolveWrite base key value with
  | ok write => exact .inl ⟨_, rfl⟩
  | error stop =>
      cases stop with
      | fault fault => exact .inr ⟨fault, rfl⟩
      | conflict target => exact absurd (by rw [resolved]) (apart target)
      | exhausted => exact absurd resolved resolveWrite_ne_exhausted

end

end Covenant.Machine
