import Mathlib
import Covenant.Literal.Operator

/-!
# The order of primitive values

Texts are compared by their code units, in lexicographic order.  Different
texts have different units, since the units of a character are not the
beginning of those of another one; so any two texts are equal or in order.

All other operands are compared as numbers.  Two numbers compare in one
direction as they do in the other, and only NaN compares with nothing.
-/

namespace Covenant

/-! ## Units of texts -/

namespace Text

theorem compareUnits_swap : (left right : List Nat) →
    (compareUnits left right).swap = compareUnits right left
  | [], [] | [], _ :: _ | _ :: _, [] => rfl
  | left :: lefts, right :: rights => by
      rw [compareUnits, compareUnits, Ordering.swap_then, ← Std.OrientedOrd.eq_swap,
        compareUnits_swap lefts rights]

/-- Units are compared in lexicographic order. -/
theorem compareUnits_eq_lt : {left right : List Nat} →
    (compareUnits left right = .lt ↔ left < right)
  | [], [] | [], _ :: _ | _ :: _, [] => by simp [compareUnits]
  | left :: lefts, right :: rights => by
      rw [compareUnits, Ordering.then_eq_lt, Nat.compare_eq_lt, Nat.compare_eq_eq,
        compareUnits_eq_lt, List.cons_lt_cons_iff]

theorem codeUnits_ne_nil (character : Char) : codeUnits character ≠ [] := by
  rw [codeUnits]
  split <;> exact List.cons_ne_nil _ _

/--
The units at the front of a text tell its first character.  A surrogate is no
character, so a unit that stands for one by itself begins no pair.
-/
theorem codeUnits_append_inj {first second : Char} {rest other : List Nat}
    (same : codeUnits first ++ rest = codeUnits second ++ other) :
    first = second ∧ rest = other := by
  have firstValid : first.toNat.isValidChar := first.valid
  have secondValid : second.toNat.isValidChar := second.valid
  have equal : first.toNat = second.toNat ∧ rest = other := by
    simp only [codeUnits, Nat.isValidChar] at same firstValid secondValid
    split at same <;> split at same <;>
      simp only [List.cons_append, List.nil_append, List.cons.injEq] at same
    · exact same
    · omega
    · omega
    · exact ⟨by omega, same.2.2⟩
  exact ⟨Char.toNat_inj.mp equal.1, equal.2⟩

theorem flatMap_codeUnits_inj : {lefts rights : List Char} →
    lefts.flatMap codeUnits = rights.flatMap codeUnits → lefts = rights
  | [], [], _ => rfl
  | [], right :: _, same =>
      absurd (List.append_eq_nil_iff.mp same.symm).1 (codeUnits_ne_nil right)
  | left :: _, [], same => absurd (List.append_eq_nil_iff.mp same).1 (codeUnits_ne_nil left)
  | left :: lefts, right :: rights, same => by
      rw [List.flatMap_cons, List.flatMap_cons] at same
      obtain ⟨rfl, rest⟩ := codeUnits_append_inj same
      rw [flatMap_codeUnits_inj rest]

/-- Different texts have different units. -/
theorem codeUnitsOf_injective : Function.Injective codeUnitsOf := fun _ _ same =>
  String.toList_injective (flatMap_codeUnits_inj same)

theorem compareText_swap (left right : String) :
    (compareText left right).swap = compareText right left :=
  compareUnits_swap _ _

theorem compareText_eq_lt {left right : String} :
    compareText left right = .lt ↔ codeUnitsOf left < codeUnitsOf right :=
  compareUnits_eq_lt

end Text

/-! ## Numbers -/

namespace Number

open Float.Model.UnpackedFloat

/-- How two numbers compare; NaN compares with nothing. -/
def order? (left right : Float) : Option Ordering :=
  left.toModel.unpack.compare right.toModel.unpack

theorem order?_swap (left right : Float) : (order? left right).map .swap = order? right left := by
  rw [order?, order?]
  have oriented (first second : Int) (lower upper : Nat) :
      ((compare first second).then (compare lower upper)).swap =
        (compare second first).then (compare upper lower) := by
    rw [Ordering.swap_then, ← Std.OrientedOrd.eq_swap, ← Std.OrientedOrd.eq_swap]
  rcases left.toModel.unpack with (_ | _) | _ | (_ | _) | ⟨_ | _, _, _, _⟩ <;>
    rcases right.toModel.unpack with (_ | _) | _ | (_ | _) | ⟨_ | _, _, _, _⟩ <;>
    simp [Float.Model.UnpackedFloat.compare, oriented] <;> rfl

theorem order?_eq_none {left right : Float} :
    order? left right = none ↔ left.isNaN = true ∨ right.isNaN = true := by
  change _ ↔ left.toModel.unpack.isNaN = true ∨ right.toModel.unpack.isNaN = true
  rw [order?]
  rcases left.toModel.unpack with (_ | _) | _ | (_ | _) | ⟨_ | _, _, _, _⟩ <;>
    rcases right.toModel.unpack with (_ | _) | _ | (_ | _) | ⟨_ | _, _, _, _⟩ <;>
    simp [Float.Model.UnpackedFloat.compare, isNaN]

theorem lt_iff_order? {left right : Float} : left < right ↔ order? left right = some .lt := by
  change decide (left.toModel < right.toModel) = true ↔ _
  rw [decide_eq_true_iff]
  change (order? left right == some .lt) = true ↔ _
  rw [beq_iff_eq]

theorem beq_iff_order? {left right : Float} :
    (left == right) = true ↔ order? left right = some .eq := by
  change (order? left right == some .eq) = true ↔ _
  rw [beq_iff_eq]

end Number

/-! ## Operands -/

namespace Literal

/-- Whether two operands are compared as texts. -/
def areTexts : Literal → Literal → Bool
  | string _, string _ => true
  | _, _ => false

/-- Whether two operands can be compared: as texts, or as numbers neither of which is NaN. -/
def Comparable (left right : Literal) : Prop :=
  areTexts left right = true ∨ left.toNumber.isNaN = false ∧ right.toNumber.isNaN = false

variable {left right : Literal}

theorem areTexts_comm (left right : Literal) : areTexts left right = areTexts right left := by
  cases left <;> cases right <;> rfl

theorem eq_string_of_areTexts (texts : areTexts left right = true) :
    ∃ first second, left = string first ∧ right = string second := by
  cases left <;> cases right <;> first | exact ⟨_, _, rfl, rfl⟩ | cases texts

/-- Operands that are not both texts are compared as numbers. -/
theorem order?_of_not_texts (mixed : areTexts left right = false) :
    left.order? right = Number.order? left.toNumber right.toNumber := by
  have tests : left.order? right =
      if left.toNumber < right.toNumber then some .lt
      else if left.toNumber == right.toNumber then some .eq
      else if right.toNumber < left.toNumber then some .gt
      else none := by
    cases left <;> cases right <;> first | rfl | cases mixed
  have reverse := Number.order?_swap left.toNumber right.toNumber
  simp only [tests, Number.lt_iff_order?, Number.beq_iff_order?, ← reverse]
  rcases Number.order? left.toNumber right.toNumber with _ | _ | _ | _ <;> rfl

/-- Operands compare in one direction as they do in the other. -/
theorem order?_swap (left right : Literal) :
    (left.order? right).map .swap = right.order? left := by
  cases texts : areTexts left right with
  | false =>
      rw [order?_of_not_texts texts, order?_of_not_texts ((areTexts_comm _ _).trans texts),
        Number.order?_swap]
  | true =>
      obtain ⟨first, second, rfl, rfl⟩ := eq_string_of_areTexts texts
      exact congrArg some (Text.compareText_swap first second)

theorem comparable_iff : left.Comparable right ↔ left.order? right ≠ none := by
  cases texts : areTexts left right with
  | false =>
      rw [order?_of_not_texts texts, ne_eq, Number.order?_eq_none, Comparable, texts]
      simp
  | true =>
      obtain ⟨first, second, rfl, rfl⟩ := eq_string_of_areTexts texts
      exact iff_of_true (.inl texts) (Option.some_ne_none _)

end Literal

/-! ## Relational operators -/

namespace BinaryOperator

/-- Whether an operator holds between two operands. -/
def Holds (operator : BinaryOperator) (left right : Literal) : Prop :=
  operator.result? left right = some (.bool true)

/-- Of three statements exactly one is right. -/
def ExactlyOne (first second third : Prop) : Prop :=
  first ∧ ¬ second ∧ ¬ third ∨ ¬ first ∧ second ∧ ¬ third ∨ ¬ first ∧ ¬ second ∧ third

section

variable {left right : Literal}

theorem holds_lt : lt.Holds left right ↔ left.order? right = some .lt := by
  simp [Holds, result?]

theorem holds_gt : gt.Holds left right ↔ left.order? right = some .gt := by
  simp [Holds, result?]

theorem holds_ltEq :
    ltEq.Holds left right ↔ left.order? right = some .lt ∨ left.order? right = some .eq := by
  rw [Holds, result?]
  rcases left.order? right with _ | _ | _ | _ <;> simp

theorem holds_gtEq :
    gtEq.Holds left right ↔ left.order? right = some .gt ∨ left.order? right = some .eq := by
  rw [Holds, result?]
  rcases left.order? right with _ | _ | _ | _ <;> simp

theorem holds_strictEq_string {left right : String} :
    strictEq.Holds (.string left) (.string right) ↔ left = right := by
  simp [Holds, result?, Literal.strictEquals]

theorem holds_lt_string {left right : String} :
    lt.Holds (.string left) (.string right) ↔
      Text.codeUnitsOf left < Text.codeUnitsOf right := by
  rw [holds_lt, ← Text.compareText_eq_lt]
  exact Option.some_inj

theorem result?_gt (left right : Literal) : gt.result? left right = lt.result? right left := by
  rw [result?, result?, ← left.order?_swap right]
  rcases left.order? right with _ | _ | _ | _ <;> rfl

theorem result?_gtEq (left right : Literal) :
    gtEq.result? left right = ltEq.result? right left := by
  rw [result?, result?, ← left.order?_swap right]
  rcases left.order? right with _ | _ | _ | _ <;> rfl

/-- What is at most as large is not larger. -/
theorem result?_gt_of_ltEq (holds : ltEq.Holds left right) :
    gt.result? left right = some (.bool false) := by
  rw [result?]
  rcases holds_ltEq.mp holds with order | order <;> rw [order] <;> rfl

theorem exactlyOne_of_comparable (comparable : left.Comparable right) :
    ExactlyOne (lt.Holds left right) (gt.Holds left right)
      (ltEq.Holds left right ∧ gtEq.Holds left right) := by
  rw [holds_lt, holds_gt, holds_ltEq, holds_gtEq, ExactlyOne]
  obtain ⟨order, defined⟩ := Option.ne_none_iff_exists'.mp (Literal.comparable_iff.mp comparable)
  rw [defined]
  cases order <;> simp

/-- Between operands that cannot be compared no relational operator holds. -/
theorem result?_of_not_comparable (apart : ¬ left.Comparable right) :
    ∀ operator ∈ [lt, gt, ltEq, gtEq], operator.result? left right = some (.bool false) := by
  have none : left.order? right = none := by
    rwa [Literal.comparable_iff, not_not] at apart
  simp [result?, none]

end

/-- Two texts are in order, equal, or in the reverse order. -/
theorem exactlyOne_of_texts (left right : String) :
    ExactlyOne (lt.Holds (.string left) (.string right))
      (strictEq.Holds (.string left) (.string right))
      (lt.Holds (.string right) (.string left)) := by
  rw [holds_lt_string, holds_strictEq_string, holds_lt_string,
    ← Text.codeUnitsOf_injective.eq_iff (a := left), ExactlyOne]
  rcases lt_trichotomy (Text.codeUnitsOf left) (Text.codeUnitsOf right) with order | same | order
  · exact .inl ⟨order, order.ne, order.not_gt⟩
  · exact .inr (.inl ⟨same.not_lt, same, same.symm.not_lt⟩)
  · exact .inr (.inr ⟨order.not_gt, order.ne', order⟩)

/--
The relational operators form a consistent order.  On texts `<` is a strict
total order, the lexicographic one of code units.  On all operands `<` and `>`
are each other's converse, and so are `<=` and `>=`; `<=` rules out `>`; and
operands that can be compared are in one order, in the other, or level, while
no operator holds between others.
-/
theorem relational_operators_consistent :
    (∀ left right : String,
      lt.Holds (.string left) (.string right) ↔
        Text.codeUnitsOf left < Text.codeUnitsOf right) ∧
    (∀ text : String, ¬ lt.Holds (.string text) (.string text)) ∧
    (∀ first second third : String,
      lt.Holds (.string first) (.string second) → lt.Holds (.string second) (.string third) →
        lt.Holds (.string first) (.string third)) ∧
    (∀ left right : String,
      ExactlyOne (lt.Holds (.string left) (.string right))
        (strictEq.Holds (.string left) (.string right))
        (lt.Holds (.string right) (.string left))) ∧
    ∀ left right : Literal,
      lt.result? left right = gt.result? right left ∧
      ltEq.result? left right = gtEq.result? right left ∧
      (ltEq.Holds left right → gt.result? left right = some (.bool false)) ∧
      (left.Comparable right →
        ExactlyOne (lt.Holds left right) (gt.Holds left right)
          (ltEq.Holds left right ∧ gtEq.Holds left right)) ∧
      (¬ left.Comparable right →
        ∀ operator ∈ [lt, gt, ltEq, gtEq],
          operator.result? left right = some (.bool false)) := by
  refine ⟨fun _ _ => holds_lt_string, fun text => ?_, fun first second third => ?_,
    exactlyOne_of_texts, fun left right => ⟨?_, ?_, ?_, ?_, ?_⟩⟩
  · rw [holds_lt_string]
    exact lt_irrefl _
  · simp only [holds_lt_string]
    exact lt_trans
  · exact (result?_gt right left).symm
  · exact (result?_gtEq right left).symm
  · exact result?_gt_of_ltEq
  · exact exactlyOne_of_comparable
  · exact result?_of_not_comparable

/-- A character beyond the basic plane comes before the last ones of that plane. -/
example : lt.result? (.string (String.singleton (Char.ofNat 0x1f600)))
    (.string (String.singleton (Char.ofNat 0xff5e))) = some (.bool true) := by
  decide +kernel

end BinaryOperator

end Covenant
