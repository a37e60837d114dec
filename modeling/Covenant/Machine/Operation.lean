import Covenant.Machine.Property

/-!
# Operators on values

Operators work on the primitives that their operands convert to, with three
exceptions: equality looks at identity, membership at keys, and an instance
test at what an object stands for.
-/

namespace Covenant.Machine

/-- The result of a unary operator. -/
def unaryResult (store : Store) (operator : UnaryOperator) (operand : Value) : Value :=
  match operator with
  | .not => .truth (!operand.isTruthy)
  | .void => .undefined
  | .typeOf => .text operand.typeName
  | .minus | .plus | .bitNot => .primitive (operator.apply (operand.toPrimitive store))

/-- Whether a value is an instance of what a function makes; only errors are told apart. -/
def instanceTest (store : Store) (left right : Value) : Except Fault Bool :=
  match right with
  | .builtin .makeError => .ok (left.isError store)
  | .builtin .writeLine | .closure _ => .ok false
  | _ => .error (.type .invalidInstanceTest)

/-- The result of a binary operator. -/
def binaryResult
    (store : Store)
    (operator : BinaryOperator)
    (left right : Value) : Except Fault Value :=
  match operator with
  | .strictEq => .ok (.truth (left.strictEquals right))
  | .strictNotEq => .ok (.truth (!left.strictEquals right))
  | .eq => .ok (.truth (left.looseEquals store right))
  | .notEq => .ok (.truth (!left.looseEquals store right))
  | .inside => (store.hasProperty right (left.toKey store)).map .truth
  | .instanceOf => (instanceTest store left right).map .truth
  | _ =>
    match operator.result? (left.toPrimitive store) (right.toPrimitive store) with
    | some result => .ok (.primitive result)
    | none => .ok .undefined

end Covenant.Machine
