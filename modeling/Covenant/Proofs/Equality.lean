import Mathlib
import Covenant.Proofs.Definite
import Covenant.Proofs.Order
import Covenant.Proofs.Spelling

/-!
# The laws of the two equalities

Equality of numbers is symmetric and transitive, and only NaN differs from
itself.  Both equalities of primitives are built on it, and those of values on
them: references are equal, in either sense, just if they are the same, and a
primitive that is neither undefined nor null equals a reference just if it
equals the text that spells it.
-/

namespace Covenant

/-! ## Numbers -/

namespace Number

open Float.Model Float.Model.UnpackedFloat

/-- Numbers that are level are unpacked alike, or both are zero. -/
theorem alike_of_compare_eq {left right : UnpackedFloat} (level : left.compare right = some .eq) :
    left = right ∨ ∃ sign other, left = zero sign ∧ right = zero other := by
  rcases left with (_ | _) | _ | _ | ⟨_ | _, _, _, _⟩ <;>
    rcases right with (_ | _) | _ | _ | ⟨_ | _, _, _, _⟩ <;>
    simp_all [Float.Model.UnpackedFloat.compare, Ordering.then_eq_eq]

/-- Numbers that are level compare alike with every number. -/
theorem order?_congr {left right : Float} (level : order? left right = some .eq) (other : Float) :
    order? left other = order? right other := by
  rw [order?, order?]
  rcases alike_of_compare_eq level with same | ⟨_, _, zeroLeft, zeroRight⟩
  · rw [same]
  · rw [zeroLeft, zeroRight]
    rcases other.toModel.unpack with (_ | _) | _ | _ | ⟨_ | _, _, _, _⟩ <;> rfl

instance partialEquivBEqFloat : PartialEquivBEq Float where
  symm equal := by
    rw [beq_iff_order?] at equal ⊢
    rw [← order?_swap, equal]
    rfl
  trans one two := by
    rw [beq_iff_order?] at one two ⊢
    rw [order?_congr one, two]

/-- A number equals itself unless it is NaN. -/
theorem beq_self_iff {number : Float} : (number == number) = true ↔ number.isNaN = false := by
  have undefined : order? number number = none ↔ number.isNaN = true :=
    order?_eq_none.trans or_self_iff
  have oriented := order?_swap number number
  rw [beq_iff_order?, ← Bool.not_eq_true, ← undefined]
  cases order : order? number number with
  | none => simp
  | some result =>
      rw [order] at oriented
      cases result with
      | eq => simp
      | lt | gt => cases oriented

end Number

/-! ## Primitives -/

namespace Literal

/-- Whether a literal is the number NaN. -/
def isNaN : Literal → Bool
  | number value => value.isNaN
  | _ => false

theorem strictEquals_comm (left right : Literal) :
    left.strictEquals right = right.strictEquals left := by
  cases left <;> cases right <;> first | exact BEq.comm | rfl

theorem strictEquals_trans : {first second third : Literal} → first.strictEquals second = true →
    second.strictEquals third = true → first.strictEquals third = true
  | undefined, undefined, undefined, _, _ => rfl
  | null, null, null, _, _ => rfl
  | bool _, bool _, bool _, one, two => BEq.trans one two
  | number _, number _, number _, one, two => BEq.trans one two
  | string _, string _, string _, one, two => BEq.trans one two

theorem strictEquals_self_iff : {literal : Literal} →
    (literal.strictEquals literal = true ↔ literal.isNaN = false)
  | undefined | null => iff_of_true rfl rfl
  | bool _ | string _ => iff_of_true BEq.rfl rfl
  | number _ => Number.beq_self_iff

theorem looseEquals_comm (left right : Literal) :
    left.looseEquals right = right.looseEquals left := by
  unfold looseEquals
  rw [Bool.or_comm, Bool.and_comm]
  cases left <;> cases right <;> first | exact BEq.comm | rfl

theorem isNaN_toNumber_bool (value : Bool) : (bool value).toNumber.isNaN = false := by
  cases value with
  | false => exact Number.isNaN_zero
  | true => exact Number.isNaN_ofScientific 10 true 1

/-- Truth values are compared as numbers, and none converts to NaN. -/
theorem looseEquals_of_strictEquals : {left right : Literal} → left.strictEquals right = true →
    left.looseEquals right = true
  | undefined, undefined, _ | null, null, _ => rfl
  | bool left, bool right, equal => by
      obtain rfl : left = right := eq_of_beq equal
      exact Number.beq_self_iff.mpr (isNaN_toNumber_bool left)
  | number _, number _, equal | string _, string _, equal => equal

end Literal

/-! ## Values -/

namespace Machine.Value

variable {store : Store} {literal : Literal} {left right reference : Value}

/-- Whether a value is the number NaN. -/
def isNaN : Value → Bool
  | primitive literal => literal.isNaN
  | _ => false

/-- A value is a primitive or a reference. -/
theorem primitive_or_reference (value : Value) :
    (∃ literal, value = primitive literal) ∨ value.literal? = none := by
  cases value with
  | primitive literal => exact .inl ⟨literal, rfl⟩
  | _ => exact .inr rfl

theorem toPrimitive_of_reference (isReference : reference.literal? = none) :
    reference.toPrimitive store = .string (reference.toText store) := by
  cases reference with
  | primitive => cases isReference
  | _ => rfl

/-- A reference is strictly equal to itself alone. -/
theorem strictEquals_reference_iff (isReference : reference.literal? = none) :
    reference.strictEquals right = true ↔ reference = right := by
  cases reference with
  | primitive => cases isReference
  | _ => cases right <;> simp [strictEquals]

theorem strictEquals_primitive_reference (isReference : reference.literal? = none) :
    (primitive literal).strictEquals reference = false := by
  cases reference with
  | primitive => cases isReference
  | _ => rfl

theorem looseEquals_primitive_reference (isReference : reference.literal? = none) :
    (primitive literal).looseEquals store reference =
      (!literal.isNullish && literal.looseEquals (.string (reference.toText store))) := by
  rw [← toPrimitive_of_reference isReference]
  cases reference with
  | primitive => cases isReference
  | _ => rfl

theorem looseEquals_reference_primitive (isReference : reference.literal? = none) :
    reference.looseEquals store (primitive literal) =
      (primitive literal).looseEquals store reference := by
  cases reference with
  | primitive => cases isReference
  | _ => rfl

theorem looseEquals_references (one : left.literal? = none) (two : right.literal? = none) :
    left.looseEquals store right = left.strictEquals right := by
  cases left with
  | primitive => cases one
  | _ =>
      cases right with
      | primitive => cases two
      | _ => rfl

theorem strictEquals_comm (left right : Value) :
    left.strictEquals right = right.strictEquals left := by
  cases left <;> cases right <;>
    first | exact Literal.strictEquals_comm .. | exact BEq.comm | rfl

theorem strictEquals_trans : {first second third : Value} → first.strictEquals second = true →
    second.strictEquals third = true → first.strictEquals third = true
  | primitive _, primitive _, primitive _, one, two => Literal.strictEquals_trans one two
  | array _, array _, array _, one, two => BEq.trans one two
  | object _, object _, object _, one, two => BEq.trans one two
  | closure _, closure _, closure _, one, two => BEq.trans one two
  | builtin _, builtin _, builtin _, one, two => BEq.trans one two

theorem strictEquals_self_iff (value : Value) :
    value.strictEquals value = true ↔ value.isNaN = false := by
  cases value with
  | primitive => exact Literal.strictEquals_self_iff
  | _ => exact iff_of_true BEq.rfl rfl

theorem looseEquals_comm (left right : Value) :
    left.looseEquals store right = right.looseEquals store left := by
  rcases primitive_or_reference left with ⟨first, rfl⟩ | one <;>
    rcases primitive_or_reference right with ⟨second, rfl⟩ | two
  · exact Literal.looseEquals_comm first second
  · exact (looseEquals_reference_primitive two).symm
  · exact looseEquals_reference_primitive one
  · rw [looseEquals_references one two, looseEquals_references two one, strictEquals_comm]

theorem looseEquals_of_strictEquals (equal : left.strictEquals right = true) :
    left.looseEquals store right = true := by
  rcases primitive_or_reference left with ⟨first, rfl⟩ | one <;>
    rcases primitive_or_reference right with ⟨second, rfl⟩ | two
  · exact Literal.looseEquals_of_strictEquals equal
  · rw [strictEquals_primitive_reference two] at equal
    cases equal
  · rw [strictEquals_comm, strictEquals_primitive_reference one] at equal
    cases equal
  · rw [looseEquals_references one two, equal]

/-- Undefined and null are loosely equal to no reference. -/
theorem looseEquals_of_nullish (isReference : reference.literal? = none)
    (nullish : right.isNullish = true) : reference.looseEquals store right = false := by
  cases right with
  | primitive literal =>
      have absent : literal.isNullish = true := nullish
      rw [looseEquals_reference_primitive isReference,
        looseEquals_primitive_reference isReference, absent]
      rfl
  | _ => cases nullish

/-- Any other primitive is compared with the text that spells the reference. -/
theorem looseEquals_iff_spelled (isReference : reference.literal? = none)
    (acyclic : store.Acyclic reference) (present : literal.isNullish = false) :
    reference.looseEquals store (primitive literal) = true ↔
      ∃ text, store.Spells reference text ∧ literal.looseEquals (.string text) = true := by
  rw [looseEquals_reference_primitive isReference, looseEquals_primitive_reference isReference,
    present]
  simp only [spells_iff acyclic, exists_eq_left', Bool.not_false, Bool.true_and]

end Machine.Value

namespace Machine

open Value

/--
Equality is lawful.  Both equalities are symmetric.  Strict equality is
transitive, holds between a value and itself unless that is NaN, and implies
loose equality.  Between primitives both are those of primitives, and between
references both are identity.  A reference is loosely equal neither to undefined
nor to null, and one that is acyclic is to another primitive just if that equals
the text by which the rules spell it.
-/
theorem equality_lawful (store : Store) :
    (∀ left right : Value,
      left.strictEquals right = right.strictEquals left ∧
      left.looseEquals store right = right.looseEquals store left ∧
      (left.strictEquals right = true → left.looseEquals store right = true)) ∧
    (∀ first second third : Value,
      first.strictEquals second = true → second.strictEquals third = true →
        first.strictEquals third = true) ∧
    (∀ value : Value, value.strictEquals value = true ↔ value.isNaN = false) ∧
    (∀ left right : Literal,
      (primitive left).strictEquals (primitive right) = left.strictEquals right ∧
      (primitive left).looseEquals store (primitive right) = left.looseEquals right) ∧
    ∀ reference : Value, reference.literal? = none →
      (∀ other : Value, other.literal? = none →
        (reference.strictEquals other = true ↔ reference = other) ∧
        (reference.looseEquals store other = true ↔ reference = other)) ∧
      (∀ nullish : Value, nullish.isNullish = true →
        reference.looseEquals store nullish = false) ∧
      (store.Acyclic reference →
        ∀ literal : Literal, literal.isNullish = false →
          (reference.looseEquals store (primitive literal) = true ↔
            ∃ text, store.Spells reference text ∧ literal.looseEquals (.string text) = true)) := by
  refine ⟨fun left right => ⟨?_, ?_, ?_⟩, ?_, ?_, fun left right => ⟨rfl, rfl⟩,
    fun reference isReference => ⟨fun other two => ⟨?_, ?_⟩, ?_, ?_⟩⟩
  · exact strictEquals_comm left right
  · exact looseEquals_comm left right
  · exact looseEquals_of_strictEquals
  · exact fun first second third => strictEquals_trans
  · exact strictEquals_self_iff
  · exact strictEquals_reference_iff isReference
  · rw [looseEquals_references isReference two]
    exact strictEquals_reference_iff isReference
  · exact fun nullish => looseEquals_of_nullish isReference
  · exact fun acyclic literal => looseEquals_iff_spelled isReference acyclic

/-- A store with an array inside another one. -/
def nestedArrays : Store where
  frames := #[]
  arrays := #[#[.text "a", .undefined], #[.array ⟨0⟩, .text "b"]]
  objects := #[]
  closures := #[]

/-- The place of an array among the cells, from one on; other values have none. -/
def Value.arrayRank : Value → Nat
  | array address => address.index + 1
  | _ => 0

/-- Each of the arrays holds none but earlier ones. -/
theorem acyclic_nestedArrays : nestedArrays.Acyclic (array ⟨1⟩) := by
  refine .ofRank arrayRank (fun {value inner} takes => ?_) (show 1 < 2 by decide)
  cases takes with
  | @element holder _ member =>
      rcases holder with ⟨_ | _ | _⟩
      · have among : inner ∈ [text "a", undefined] := Array.mem_toList_iff.mpr member
        rcases List.mem_pair.mp among with rfl | rfl <;> exact ⟨by decide, trivial⟩
      · have among : inner ∈ [array ⟨0⟩, text "b"] := Array.mem_toList_iff.mpr member
        rcases List.mem_pair.mp among with rfl | rfl
        · exact ⟨by decide, show 0 < 2 by decide⟩
        · exact ⟨by decide, trivial⟩
      · exact absurd member (Array.not_mem_empty inner)
  | message isError => cases isError

/-- An array that holds another one equals the text of its innermost elements, and not null. -/
theorem equality_lawful_nestedArrays :
    (array ⟨1⟩).literal? = none ∧ nestedArrays.Acyclic (array ⟨1⟩) ∧
      (array ⟨1⟩).looseEquals nestedArrays (.text "a,,b") = true ∧
        (array ⟨1⟩).looseEquals nestedArrays (primitive .null) = false := by
  obtain ⟨_, _, _, _, references⟩ := equality_lawful nestedArrays
  obtain ⟨_, apart, spelled⟩ := references (array ⟨1⟩) rfl
  have spells : nestedArrays.Spells (array ⟨1⟩) "a,,b" :=
    (spells_iff acyclic_nestedArrays).mpr (by decide)
  refine ⟨rfl, acyclic_nestedArrays, ?_, apart (primitive .null) rfl⟩
  exact (spelled acyclic_nestedArrays (.string "a,,b") rfl).mpr ⟨"a,,b", spells, by decide⟩

end Machine

end Covenant
