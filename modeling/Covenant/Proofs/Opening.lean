import Covenant.Proofs.Numeral
import Covenant.Proofs.Parentheses

/-!
# How expressions open

An expression statement never opens with a word or a mark that begins a
declaration or a block: its text is looked at before it is written.  For the
body of an arrow function only the outermost operation is looked at, and an
object may stand deeper at the left end.  The body opens with a brace exactly
when an object stands there without being the whole body.
-/

namespace Covenant

namespace Text

/-- Whether a text opens with a brace. -/
def opensBrace (text : String) : Bool :=
  startsWith "\x7b" text

/-- A text that may be empty lets what follows it open. -/
theorem opensBrace_append {first second : String} (plain : opensBrace second = false) :
    opensBrace (first ++ second) = opensBrace first := by
  unfold opensBrace startsWith at *
  rw [String.toList_append]
  cases first.toList with
  | nil => simpa using plain
  | cons head tail => simp [List.isPrefixOf]

/-- Another first character than a brace opens a text. -/
theorem opensBrace_of_cons {text : String} {head : Char} {tail : List Char}
    (shape : text.toList = head :: tail) (other : head ≠ '\x7b') : opensBrace text = false := by
  unfold opensBrace startsWith
  rw [shape]
  simpa [List.isPrefixOf] using other.symm

end Text

open Text (opensBrace opensBrace_append opensBrace_of_cons)

/-- What is written for an expression statement is looked at first. -/
theorem startsWith_statementText (text : String) {opening : String}
    (among : opening ∈ ["function", "async function", "\x7b"]) :
    Text.startsWith opening (statementText text) = false := by
  have wrapped : Text.startsWith opening ("(" ++ text ++ ")") = false := by
    simp only [List.mem_cons, List.not_mem_nil, or_false] at among
    rcases among with rfl | rfl | rfl <;> simp [Text.startsWith, List.isPrefixOf]
  unfold statementText parenthesize
  split
  case isTrue => exact wrapped
  case isFalse plain =>
    simp only [Bool.or_eq_true, not_or, Bool.not_eq_true] at plain
    simp only [List.mem_cons, List.not_mem_nil, or_false] at among
    rcases among with rfl | rfl | rfl
    · exact plain.1.1
    · exact plain.1.2
    · exact plain.2

/-- An expression statement opens with no word or mark of a declaration or a block. -/
theorem startsWith_print_evaluate (level : Nat) (expression : Expression) {opening : String}
    (among : opening ∈ ["function", "async function", "\x7b"]) :
    Text.startsWith opening ((Statement.evaluate expression).print level) = false := by
  have plain := startsWith_statementText (expression.print level Strength.sequence) among
  have unended : ';' ∉ opening.toList := by
    simp only [List.mem_cons, List.not_mem_nil, or_false] at among
    rcases among with rfl | rfl | rfl <;> decide
  rw [Bool.eq_false_iff, Text.startsWith, ne_eq, List.isPrefixOf_iff_prefix] at plain ⊢
  rw [Statement.print, String.toList_append]
  intro opens
  rcases List.prefix_concat_iff.mp opens with whole | opens
  · exact unended (whole ▸ List.mem_append_right _ List.mem_cons_self)
  · exact plain opens

/-- Whether an object stands at the left end of an expression in a position with a demand. -/
def Expression.opensWithObject (demand : Nat) (expression : Expression) : Bool :=
  decide (demand ≤ expression.strength) &&
    match expression with
    | .record _ => true
    | .identifier name => opensBrace name
    | .update _ false argument => argument.opensWithObject Strength.trailing
    | .binary operator left _ => left.opensWithObject operator.operandStrengths.1
    | .logical operator left _ =>
      left.opensWithObject (operator.operandStrength left operator.precedence)
    | .assign _ target _ => target.opensWithObject Strength.trailing
    | .conditional test _ _ => test.opensWithObject (Strength.conditional + 1)
    | .call callee _ => callee.opensWithObject Strength.call
    | .member object _ => !object.isDigits && object.opensWithObject Strength.call
    | .index object _ => object.opensWithObject Strength.call
    | .sequence (first :: _) => first.opensWithObject Strength.assignment
    | _ => false

theorem Number.opensBrace_toText (number : Float) : opensBrace (Number.toText number) = false := by
  cases finite : Number.dyadic? number with
  | none =>
      rw [Number.toText, finite]
      dsimp only
      split
      · rfl
      split
      · rfl
      · rfl
  | some value =>
      rcases Number.toText_of_dyadic? finite with ⟨negative, digits, written, numeral, _⟩
      rcases numeral.starts with ⟨digit, tail, rfl, isDigit⟩
      rw [written]
      cases negative with
      | false =>
          refine opensBrace_of_cons (String.toList_ofList) ?_
          rintro rfl
          cases isDigit
      | true => exact opensBrace_of_cons (String.toList_ofList) (by decide)

theorem Literal.opensBrace_source (literal : Literal) : opensBrace literal.source = false := by
  cases literal with
  | undefined => rfl
  | null => rfl
  | bool value => cases value <;> rfl
  | number value => exact Number.opensBrace_toText value
  | string value =>
      refine opensBrace_of_cons (String.toList_ofList) ?_
      unfold Text.quoteMark
      split <;> decide

theorem Function.opensBrace_print (level : Nat) (function : Function) :
    opensBrace (function.print level) = false := by
  rcases function with ⟨name, parameters, body, isArrow, isAsync, isGenerator⟩
  cases isAsync <;> cases isArrow <;>
    simp [Function.print, Function.header, opensBrace, Text.startsWith, List.isPrefixOf]

theorem UnaryOperator.opensBrace_symbol (operator : UnaryOperator) (rest : String) :
    opensBrace (operator.symbol ++ rest) = false := by
  cases operator <;> simp [symbol, opensBrace, Text.startsWith, List.isPrefixOf]

theorem UpdateOperator.opensBrace_symbol (operator : UpdateOperator) (rest : String) :
    opensBrace (operator.symbol ++ rest) = false := by
  cases operator <;> simp [symbol, opensBrace, Text.startsWith, List.isPrefixOf]

/-- A lead that is a fixed word opens a text. -/
theorem opensBrace_of_lead {head : Char} {lead rest : String} {tail : List Char}
    (shape : lead.toList = head :: tail) (other : head ≠ '\x7b') :
    opensBrace (lead ++ rest) = false :=
  opensBrace_of_cons (by rw [String.toList_append, shape, List.cons_append]) other

namespace Expression

theorem opensWithObject_eq (demand : Nat) (expression : Expression) :
    expression.opensWithObject demand =
      (decide (demand ≤ expression.strength) && expression.opensWithObject 0) := by
  cases expression with
  | update operator leading argument => cases leading <;> simp [opensWithObject]
  | sequence expressions => cases expressions <;> simp [opensWithObject]
  | _ => simp [opensWithObject]

/-- What opens an expression without parentheses decides what opens it in any position. -/
theorem opensBrace_print_of_bare {level : Nat} {expression : Expression} (demand : Nat)
    (bare : opensBrace (expression.print level 0) = expression.opensWithObject 0) :
    opensBrace (expression.print level demand) = expression.opensWithObject demand := by
  rw [opensWithObject_eq]
  rcases Nat.lt_or_ge expression.strength demand with weak | enough
  · rw [print_of_lt weak, decide_eq_false (Nat.not_le.mpr weak), Bool.false_and,
      String.append_assoc]
    exact opensBrace_of_lead rfl (by decide)
  · rw [print_of_le enough, bare, decide_eq_true enough, Bool.true_and]

/-- Without a demand there are no parentheses. -/
theorem parenthesize_bare (expression : Expression) (text : String) :
    parenthesize (decide (expression.strength < 0)) text = text :=
  rfl

theorem opensBrace_print_bare (level : Nat) : (expression : Expression) →
    opensBrace (expression.print level 0) = expression.opensWithObject 0
  | .literal value => by
      simp only [print, parenthesize_bare, opensWithObject, Bool.and_false]
      exact value.opensBrace_source
  | .identifier name => by
      rw [print, parenthesize_bare]
      rfl
  | .receiver | .record [] => by
      rw [print, parenthesize_bare]
      rfl
  | .array _ | .construct _ _ | .yield _ _ | .await _ => by
      simp only [print, parenthesize_bare, String.append_assoc, opensWithObject, Bool.and_false]
      exact opensBrace_of_lead rfl (by decide)
  | .record (_ :: _) => by
      simp only [print, parenthesize_bare, String.append_assoc, opensWithObject, Bool.and_true]
      simp [opensBrace, Text.startsWith, List.isPrefixOf]
  | .lambda function => by
      simp only [print, parenthesize_bare, opensWithObject, Bool.and_false]
      exact function.opensBrace_print level
  | .unary operator _ => by
      simp only [print, parenthesize_bare, String.append_assoc, opensWithObject, Bool.and_false]
      exact operator.opensBrace_symbol _
  | .update operator true _ => by
      simp only [print, parenthesize_bare, opensWithObject, Bool.and_false]
      exact operator.opensBrace_symbol _
  | .update operator false argument => by
      have first := opensBrace_print_of_bare Strength.trailing
        (opensBrace_print_bare level argument)
      rw [print, parenthesize_bare, opensBrace_append, first, opensWithObject]
      · rfl
      · cases operator <;> rfl
  | .binary operator left _ => by
      have first := opensBrace_print_of_bare operator.operandStrengths.1
        (opensBrace_print_bare level left)
      simp only [print, parenthesize_bare, String.append_assoc]
      rw [opensBrace_append (opensBrace_of_lead rfl (by decide)), first, opensWithObject]
      rfl
  | .logical operator left _ => by
      have first := opensBrace_print_of_bare
        (operator.operandStrength left operator.precedence) (opensBrace_print_bare level left)
      simp only [print, parenthesize_bare, String.append_assoc]
      rw [opensBrace_append (opensBrace_of_lead rfl (by decide)), first, opensWithObject]
      rfl
  | .assign operator target _ => by
      have first := opensBrace_print_of_bare Strength.trailing (opensBrace_print_bare level target)
      simp only [print, parenthesize_bare, String.append_assoc]
      rw [opensBrace_append (opensBrace_of_lead rfl (by decide)), first, opensWithObject]
      rfl
  | .conditional test _ _ => by
      have first := opensBrace_print_of_bare (Strength.conditional + 1)
        (opensBrace_print_bare level test)
      simp only [print, parenthesize_bare, String.append_assoc]
      rw [opensBrace_append (opensBrace_of_lead rfl (by decide)), first, opensWithObject]
      rfl
  | .call callee _ => by
      have first := opensBrace_print_of_bare Strength.call (opensBrace_print_bare level callee)
      simp only [print, parenthesize_bare, String.append_assoc]
      rw [opensBrace_append (opensBrace_of_lead rfl (by decide)), first, opensWithObject]
      rfl
  | .member object name => by
      have first := opensBrace_print_of_bare Strength.call (opensBrace_print_bare level object)
      simp only [print, parenthesize_bare, String.append_assoc]
      rw [opensBrace_append (opensBrace_of_lead rfl (by decide)), opensWithObject]
      split
      case isTrue digits =>
        rw [digits]
        exact opensBrace_of_lead rfl (by decide)
      case isFalse other =>
        rw [Bool.eq_false_iff.mpr other, first]
        rfl
  | .index object _ => by
      have first := opensBrace_print_of_bare Strength.call (opensBrace_print_bare level object)
      simp only [print, parenthesize_bare, String.append_assoc]
      rw [opensBrace_append (opensBrace_of_lead rfl (by decide)), first, opensWithObject]
      rfl
  | .sequence [] => rfl
  | .sequence [first] => by
      have opens := opensBrace_print_of_bare Strength.assignment (opensBrace_print_bare level first)
      rw [print, parenthesize_bare, printElements, opens, opensWithObject]
      rfl
  | .sequence (first :: _ :: _) => by
      have opens := opensBrace_print_of_bare Strength.assignment (opensBrace_print_bare level first)
      simp only [print, parenthesize_bare, printElements, String.append_assoc]
      rw [opensBrace_append (opensBrace_of_lead rfl (by decide)), opens, opensWithObject]
      rfl

/-- The text of an expression opens with a brace exactly if an object stands at its left end. -/
theorem opensBrace_print (level demand : Nat) (expression : Expression) :
    opensBrace (expression.print level demand) = expression.opensWithObject demand :=
  opensBrace_print_of_bare demand (opensBrace_print_bare level expression)

end Expression

/--
The body of an arrow function opens with a brace exactly if an object stands at
its left end but is not the whole body, which then reads as a block.
-/
theorem opensBrace_printArrow (level : Nat) (expression : Expression) :
    opensBrace ((FunctionBody.result expression).printArrow level) =
      (!expression.isObject && expression.opensWithObject Strength.assignment) := by
  rw [FunctionBody.printArrow, Expression.opensBrace_print]
  cases object : expression.isObject with
  | false => rfl
  | true =>
      have weak : ¬ Strength.always ≤ expression.strength :=
        Nat.not_le.mpr expression.strength_bounds.2
      rw [if_pos rfl, Expression.opensWithObject_eq, decide_eq_false weak]
      rfl

/-- The object at the left end of a property access is left without parentheses. -/
example :
    (Expression.lambda ⟨none, [], .result (.member (.record []) "x"), true, false, false⟩).source =
      "() => \x7b\x7d.x" := by
  decide

end Covenant
