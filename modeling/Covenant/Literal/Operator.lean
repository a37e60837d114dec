import Covenant.Literal.Basic
import Covenant.Number.Arithmetic
import Covenant.Number.Word
import Covenant.Text.CodeUnit

/-!
# Operators

The operators of the script language with their symbols and binding
strengths, and their results on primitive operands.  Two binary operators
have no result here: membership and instance tests look at objects and are
left to the machine.
-/

namespace Covenant

/-- An operator with one operand that does not assign. -/
inductive UnaryOperator where
  | not
  | minus
  | plus
  | bitNot
  | typeOf
  | void
  deriving DecidableEq, Repr

/-- An operator that evaluates both of its operands. -/
inductive BinaryOperator where
  | add
  | sub
  | mul
  | div
  | rem
  | exp
  | eq
  | notEq
  | strictEq
  | strictNotEq
  | lt
  | ltEq
  | gt
  | gtEq
  | bitAnd
  | bitOr
  | bitXor
  | shl
  | shr
  | ushr
  | inside
  | instanceOf
  deriving DecidableEq, Repr

/-- An operator that may leave its right operand unevaluated. -/
inductive LogicalOperator where
  | and
  | or
  | nullish
  deriving DecidableEq, Repr

/-- An assignment, plain or combined with a binary operator. -/
inductive AssignOperator where
  | assign
  | addAssign
  | subAssign
  | mulAssign
  | divAssign
  | remAssign
  deriving DecidableEq, Repr

/-- A step by one, up or down. -/
inductive UpdateOperator where
  | increment
  | decrement
  deriving DecidableEq, Repr

/-- The keyword of a variable declaration. -/
inductive DeclarationKind where
  | functionWide
  | block
  | constant
  deriving DecidableEq, Repr

namespace UnaryOperator

/-- The token of an operator. -/
def symbol : UnaryOperator → String
  | not => "!"
  | minus => "-"
  | plus => "+"
  | bitNot => "~"
  | typeOf => "typeof"
  | void => "void"

/-- The result on a primitive operand. -/
def apply (operator : UnaryOperator) (operand : Literal) : Literal :=
  match operator with
  | not => .bool (!operand.isTruthy)
  | minus => .number (-operand.toNumber)
  | plus => .number operand.toNumber
  | bitNot => .number (Number.ofSigned (~~~ Number.toWord operand.toNumber))
  | typeOf => .string operand.typeName
  | void => .undefined

end UnaryOperator

/--
The order of two primitive operands: texts by code units, all else as numbers.
There is none if a number is NaN.
-/
def Literal.order? : Literal → Literal → Option Ordering
  | .string left, .string right => some (Text.compareText left right)
  | left, right =>
    if left.toNumber < right.toNumber then some .lt
    else if left.toNumber == right.toNumber then some .eq
    else if right.toNumber < left.toNumber then some .gt
    else none

/-- The sum of two operands: a text as soon as one of them is a text. -/
def Literal.sum (left right : Literal) : Literal :=
  match left, right with
  | .string _, _ | _, .string _ => .string (left.toText ++ right.toText)
  | _, _ => .number (left.toNumber + right.toNumber)

namespace BinaryOperator

/-- The token of an operator. -/
def symbol : BinaryOperator → String
  | add => "+"
  | sub => "-"
  | mul => "*"
  | div => "/"
  | rem => "%"
  | exp => "**"
  | eq => "=="
  | notEq => "!="
  | strictEq => "==="
  | strictNotEq => "!=="
  | lt => "<"
  | ltEq => "<="
  | gt => ">"
  | gtEq => ">="
  | bitAnd => "&"
  | bitOr => "|"
  | bitXor => "^"
  | shl => "<<"
  | shr => ">>"
  | ushr => ">>>"
  | inside => "in"
  | instanceOf => "instanceof"

/-- The binding strength of an operator; stronger operators bind first. -/
def precedence : BinaryOperator → Nat
  | bitOr => 6
  | bitXor => 7
  | bitAnd => 8
  | eq | notEq | strictEq | strictNotEq => 9
  | lt | ltEq | gt | gtEq | inside | instanceOf => 10
  | shl | shr | ushr => 11
  | add | sub => 12
  | mul | div | rem => 13
  | exp => 14

/-- Whether a chain of an operator groups to the right. -/
def isRightAssociative (operator : BinaryOperator) : Bool :=
  operator == exp

/-- The signed result of a bitwise operation on the words of two operands. -/
def onWords
    (operation : BitVec 32 → BitVec 32 → BitVec 32)
    (left right : Literal) : Literal :=
  .number (Number.ofSigned
    (operation (Number.toWord left.toNumber) (Number.toWord right.toNumber)))

/-- The result on primitive operands; membership and instance tests have none. -/
def result? (operator : BinaryOperator) (left right : Literal) : Option Literal :=
  match operator with
  | add => some (left.sum right)
  | sub => some (.number (left.toNumber - right.toNumber))
  | mul => some (.number (left.toNumber * right.toNumber))
  | div => some (.number (left.toNumber / right.toNumber))
  | rem => some (.number (Number.remainder left.toNumber right.toNumber))
  | exp => some (.number (Number.power left.toNumber right.toNumber))
  | eq => some (.bool (left.looseEquals right))
  | notEq => some (.bool (!left.looseEquals right))
  | strictEq => some (.bool (left.strictEquals right))
  | strictNotEq => some (.bool (!left.strictEquals right))
  | lt => some (.bool (left.order? right == some .lt))
  | gt => some (.bool (left.order? right == some .gt))
  | ltEq => some (.bool ((left.order? right).any Ordering.isLE))
  | gtEq => some (.bool ((left.order? right).any Ordering.isGE))
  | bitAnd => some (onWords (· &&& ·) left right)
  | bitOr => some (onWords (· ||| ·) left right)
  | bitXor => some (onWords (· ^^^ ·) left right)
  | shl =>
    some (.number (Number.ofSigned
      (Number.toWord left.toNumber <<< Number.toShift right.toNumber)))
  | shr =>
    some (.number (Number.ofSigned
      ((Number.toWord left.toNumber).sshiftRight (Number.toShift right.toNumber))))
  | ushr =>
    some (.number (Number.ofUnsigned
      (Number.toWord left.toNumber >>> Number.toShift right.toNumber)))
  | inside | instanceOf => none

end BinaryOperator

namespace LogicalOperator

/-- The token of an operator. -/
def symbol : LogicalOperator → String
  | and => "&&"
  | or => "||"
  | nullish => "??"

/-- The binding strength of an operator. -/
def precedence : LogicalOperator → Nat
  | nullish | or => 4
  | and => 5

/-- Whether the left operand is the result, whatever the right one is. -/
def shortCircuits (operator : LogicalOperator) (left : Literal) : Bool :=
  match operator with
  | and => !left.isTruthy
  | or => left.isTruthy
  | nullish => !left.isNullish

end LogicalOperator

namespace AssignOperator

/-- The token of an operator. -/
def symbol : AssignOperator → String
  | assign => "="
  | addAssign => "+="
  | subAssign => "-="
  | mulAssign => "*="
  | divAssign => "/="
  | remAssign => "%="

/-- The operator that combines the old value with the new one, if there is one. -/
def binary? : AssignOperator → Option BinaryOperator
  | assign => none
  | addAssign => some .add
  | subAssign => some .sub
  | mulAssign => some .mul
  | divAssign => some .div
  | remAssign => some .rem

end AssignOperator

namespace UpdateOperator

/-- The token of an operator. -/
def symbol : UpdateOperator → String
  | increment => "++"
  | decrement => "--"

/-- What is added to the old value. -/
def delta : UpdateOperator → Int
  | increment => 1
  | decrement => -1

end UpdateOperator

/-- The keyword of a declaration. -/
def DeclarationKind.keyword : DeclarationKind → String
  | functionWide => "var"
  | block => "let"
  | constant => "const"

end Covenant
