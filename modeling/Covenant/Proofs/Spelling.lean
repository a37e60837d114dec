import Mathlib.Logic.Relation
import Covenant.Proofs.Conflict

/-!
# How values are spelled

The text of a value is made of the texts of the values in it, and these of the
texts of the values in them.  That is a definition only where it comes to an
end: where no value takes in itself.  There the text that a value is converted
to is the one that the rules make, with no depth and no memory of what the value
is in.  The converse holds as well, as the rules allow one text at most.
-/

namespace Covenant.Machine

open Relation

/-- The texts that values have by rule. -/
inductive Store.Spells (store : Store) : Value → String → Prop where
  | primitive (literal : Literal) : Spells store (.primitive literal) literal.toText
  | builtin (function : Builtin) :
      Spells store (.builtin function) "function () \x7b [native code] \x7d"
  | closure (address : ClosureAddress) :
      Spells store (.closure address)
        (functionText ((store.closure? address).bind fun closure => closure.function.name))
  /-- Commas stand between the elements of an array; undefined and null are left out. -/
  | array {address : ArrayAddress} (texts : Value → String)
      (each : ∀ element ∈ store.elements address, element.isNullish = false →
        Spells store element (texts element)) :
      Spells store (.array address)
        (String.intercalate "," ((store.elements address).toList.map fun element =>
          if element.isNullish then "" else texts element))
  | plain {address : ObjectAddress} (isPlain : (store.object address).kind = .plain) :
      Spells store (.object address) "[object Object]"
  | silent {address : ObjectAddress} (isError : (store.object address).kind = .error)
      (none : (store.object address).properties.lookup "message" = none) :
      Spells store (.object address) (errorText "")
  | error {address : ObjectAddress} {message : Value} {text : String}
      (isError : (store.object address).kind = .error)
      (found : (store.object address).properties.lookup "message" = some message)
      (inner : Spells store message text) :
      Spells store (.object address) (errorText text)

/-- An array or an object is one of a store; other values have no cell. -/
def Store.Present (store : Store) : Value → Prop
  | .array address => address.index < store.arrays.size
  | .object address => address.index < store.objects.size
  | _ => True

/--
A value of a store whose text comes to an end: neither the value nor anything
that its text takes in, at any depth, takes in itself.
-/
structure Store.Acyclic (store : Store) (value : Value) : Prop where
  present : ∀ inner, ReflTransGen store.TakesIn value inner → store.Present inner
  apart : ∀ inner, ReflTransGen store.TakesIn value inner → ¬ TransGen store.TakesIn inner inner

section

variable {store : Store} {value inner : Value} {text other : String}

/-- The rules allow one text at most. -/
theorem Store.Spells.unique (first : store.Spells value text) (second : store.Spells value other) :
    text = other := by
  induction first generalizing other with
  | primitive | builtin | closure => cases second; rfl
  | array texts each ih =>
      cases second with
      | array others all =>
          refine congrArg _ (List.map_congr_left fun element member => ?_)
          have among := Array.mem_toList_iff.mp member
          cases nullish : element.isNullish with
          | true => rfl
          | false => exact ih element among nullish (all element among nullish)
  | plain isPlain =>
      cases second with
      | plain => rfl
      | silent isError | error isError => rw [isPlain] at isError; cases isError
  | silent isError none =>
      cases second with
      | plain isPlain => rw [isPlain] at isError; cases isError
      | silent => rfl
      | error _ found => rw [none] at found; cases found
  | error isError found _ ih =>
      cases second with
      | plain isPlain => rw [isPlain] at isError; cases isError
      | silent _ none => rw [none] at found; cases found
      | error _ again same =>
          rw [found] at again
          cases again
          rw [ih same]

namespace Store.Acyclic

theorem ofTakesIn (acyclic : store.Acyclic value) (takes : store.TakesIn value inner) :
    store.Acyclic inner where
  present _ reaches := acyclic.present _ (reaches.head takes)
  apart _ reaches := acyclic.apart _ (reaches.head takes)

/-- Values are acyclic where whatever takes in another value ranks above it. -/
theorem ofRank (rank : Value → Nat)
    (falls : ∀ {value inner}, store.TakesIn value inner →
      rank inner < rank value ∧ store.Present inner)
    (here : store.Present value) : store.Acyclic value where
  present inner reaches := by
    rcases reaches.cases_tail with rfl | ⟨_, _, takes⟩
    · exact here
    · exact (falls takes).2
  apart inner _ cycle := by
    have above : ∀ one other, store.TakesIn one other → rank one > rank other :=
      fun _ _ takes => (falls takes).1
    have falling : TransGen (· > ·) (rank inner) (rank inner) :=
      TransGen.lift rank above inner inner cycle
    rw [transGen_eq_self] at falling
    exact Nat.lt_irrefl _ falling

end Store.Acyclic

/-- What a text takes in is inside the value of the text and all that are around it. -/
theorem around_cons {outer : List Value} (takes : store.TakesIn value inner)
    (around : ∀ container ∈ outer, TransGen store.TakesIn container value) :
    ∀ container ∈ value :: outer, TransGen store.TakesIn container inner := by
  intro container member
  rcases List.mem_cons.mp member with rfl | outside
  · exact .single takes
  · exact (around container outside).tail takes

/--
Followed with enough room, inside values that take it in, an acyclic value is
spelled by the text that is found: it is never among the values around it, so
neither is it cut off as met again nor is the depth used up.
-/
theorem spells_textWithin {depth : Nat} {outer : List Value} {value : Value}
    (room : store.Room depth outer) (acyclic : store.Acyclic value)
    (around : ∀ container ∈ outer, TransGen store.TakesIn container value) :
    store.Spells value (value.textWithin store depth outer) := by
  have new : value ∉ outer := fun member => acyclic.apart value .refl (around value member)
  have present := acyclic.present value .refl
  cases value with
  | primitive literal =>
      rw [Value.textWithin]
      exact .primitive literal
  | builtin function =>
      rw [Value.textWithin]
      exact .builtin function
  | closure address =>
      rw [Value.textWithin]
      exact .closure address
  | array address =>
      obtain ⟨less, rfl, within⟩ := room.exists_succ (.array present) new
      simp only [Value.textWithin, List.contains_iff_mem, new, if_false]
      refine .array (Value.textWithin store less (.array address :: outer)) fun element member _ => ?_
      have takes : store.TakesIn (.array address) element := .element member
      exact spells_textWithin within (acyclic.ofTakesIn takes) (around_cons takes around)
  | object address =>
      obtain ⟨less, rfl, within⟩ := room.exists_succ (.object present) new
      simp only [Value.textWithin, List.contains_iff_mem, new, if_false]
      cases kind : (store.object address).kind with
      | plain => exact .plain kind
      | error =>
          cases found : (store.object address).properties.lookup "message" with
          | none => exact .silent kind found
          | some message =>
              have takes : store.TakesIn (.object address) message := .message kind found
              exact .error kind found
                (spells_textWithin within (acyclic.ofTakesIn takes) (around_cons takes around))
termination_by depth

/-- The text that an acyclic value is converted to is the one that spells it. -/
theorem spells_iff (acyclic : store.Acyclic value) :
    store.Spells value text ↔ value.toText store = text := by
  have spelled : store.Spells value (value.toText store) :=
    spells_textWithin (.start store) acyclic (List.forall_mem_nil _)
  refine ⟨fun spells => spelled.unique spells, ?_⟩
  rintro rfl
  exact spelled

end

end Covenant.Machine
