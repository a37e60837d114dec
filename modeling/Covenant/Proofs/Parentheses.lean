import Covenant.Syntax.Printer

/-!
# Where parentheses stand

The text of an expression depends on the demand of its position in one respect
only: an expression that is weaker than demanded stands in parentheses.
-/

namespace Covenant

theorem BinaryOperator.precedence_bounds (operator : BinaryOperator) :
    6 ≤ operator.precedence ∧ operator.precedence ≤ 14 := by
  cases operator <;> decide

theorem LogicalOperator.precedence_bounds (operator : LogicalOperator) :
    4 ≤ operator.precedence ∧ operator.precedence ≤ 5 := by
  cases operator <;> decide

/-- Between a unary operator and its operand stands a blank or nothing. -/
theorem UnaryOperator.gap_cases (operator : UnaryOperator) (operand : String) :
    operator.gap operand = "" ∨ operator.gap operand = " " := by
  cases operator with
  | typeOf | void => exact .inr rfl
  | not | bitNot => exact .inl rfl
  | minus | plus =>
      rw [gap]
      split
      case isTrue => exact .inr rfl
      case isFalse => exact .inl rfl

/-- An operand that is never mixed without parentheses meets the usual demand all the more. -/
theorem LogicalOperator.le_operandStrength (operator : LogicalOperator) (operand : Expression)
    {usual : Nat} (moderate : usual ≤ Strength.always) :
    usual ≤ operator.operandStrength operand usual := by
  unfold operandStrength
  split
  · split
    case isTrue => exact moderate
    case isFalse => exact Nat.le_refl _
  · exact Nat.le_refl _

namespace Expression

/-- Every expression is accepted where any whole one is, and none where parentheses are demanded. -/
theorem strength_bounds (expression : Expression) :
    Strength.sequence ≤ expression.strength ∧ expression.strength < Strength.always := by
  cases expression with
  | literal value =>
      cases value with
      | number value =>
          simp only [strength]
          split <;> decide
      | _ =>
          simp only [strength]
          decide
  | lambda function =>
      simp only [strength]
      split <;> decide
  | update operator leading argument => cases leading <;> simp only [strength] <;> decide
  | binary operator left right =>
      have bounds := operator.precedence_bounds
      simp only [strength, Strength.sequence, Strength.always]
      omega
  | logical operator left right =>
      have bounds := operator.precedence_bounds
      simp only [strength, Strength.sequence, Strength.always]
      omega
  | _ =>
      simp only [strength]
      decide

theorem print_eq_parenthesize (level demand : Nat) (expression : Expression) :
    expression.print level demand =
      parenthesize (decide (expression.strength < demand)) (expression.print level 0) := by
  cases expression with
  | record properties => cases properties <;> simp [print, parenthesize]
  | update operator leading argument => cases leading <;> simp [print, parenthesize]
  | _ => simp [print, parenthesize]

/-- An expression that is strong enough stands without parentheses. -/
theorem print_of_le {level demand : Nat} {expression : Expression}
    (enough : demand ≤ expression.strength) :
    expression.print level demand = expression.print level 0 := by
  rw [print_eq_parenthesize, decide_eq_false (Nat.not_lt.mpr enough)]
  rfl

/-- An expression that is too weak stands in parentheses. -/
theorem print_of_lt {level demand : Nat} {expression : Expression}
    (weak : expression.strength < demand) :
    expression.print level demand = "(" ++ expression.print level 0 ++ ")" := by
  rw [print_eq_parenthesize, decide_eq_true weak]
  rfl

end Expression

end Covenant
