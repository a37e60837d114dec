import Covenant.Literal.Operator

/-!
# Operators in the interchange form

In the interchange form of a tree every operator and every declaration
keyword stands under a name of its own.  Reading such a name is looking it up
among the names of all operators of its family.
-/

namespace Covenant

namespace UnaryOperator

/-- All unary operators. -/
def all : List UnaryOperator := [not, minus, plus, bitNot, typeOf, void]

/-- The name of an operator in the interchange form. -/
def tag : UnaryOperator → String
  | not => "Not"
  | minus => "Minus"
  | plus => "Plus"
  | bitNot => "BitNot"
  | typeOf => "TypeOf"
  | void => "Void"

/-- The operator with a given name. -/
def ofTag? (name : String) : Option UnaryOperator :=
  all.find? (·.tag == name)

end UnaryOperator

namespace BinaryOperator

/-- All binary operators. -/
def all : List BinaryOperator :=
  [add, sub, mul, div, rem, exp, eq, notEq, strictEq, strictNotEq, lt, ltEq, gt, gtEq,
    bitAnd, bitOr, bitXor, shl, shr, ushr, inside, instanceOf]

/-- The name of an operator in the interchange form. -/
def tag : BinaryOperator → String
  | add => "Add"
  | sub => "Sub"
  | mul => "Mul"
  | div => "Div"
  | rem => "Rem"
  | exp => "Exp"
  | eq => "Eq"
  | notEq => "NotEq"
  | strictEq => "StrictEq"
  | strictNotEq => "StrictNotEq"
  | lt => "Lt"
  | ltEq => "LtEq"
  | gt => "Gt"
  | gtEq => "GtEq"
  | bitAnd => "BitAnd"
  | bitOr => "BitOr"
  | bitXor => "BitXor"
  | shl => "Shl"
  | shr => "Shr"
  | ushr => "UShr"
  | inside => "In"
  | instanceOf => "InstanceOf"

/-- The operator with a given name. -/
def ofTag? (name : String) : Option BinaryOperator :=
  all.find? (·.tag == name)

end BinaryOperator

namespace LogicalOperator

/-- All logical operators. -/
def all : List LogicalOperator := [and, or, nullish]

/-- The name of an operator in the interchange form. -/
def tag : LogicalOperator → String
  | and => "And"
  | or => "Or"
  | nullish => "Nullish"

/-- The operator with a given name. -/
def ofTag? (name : String) : Option LogicalOperator :=
  all.find? (·.tag == name)

end LogicalOperator

namespace AssignOperator

/-- All assignment operators. -/
def all : List AssignOperator :=
  [assign, addAssign, subAssign, mulAssign, divAssign, remAssign]

/-- The name of an operator in the interchange form. -/
def tag : AssignOperator → String
  | assign => "Assign"
  | addAssign => "AddAssign"
  | subAssign => "SubAssign"
  | mulAssign => "MulAssign"
  | divAssign => "DivAssign"
  | remAssign => "RemAssign"

/-- The operator with a given name. -/
def ofTag? (name : String) : Option AssignOperator :=
  all.find? (·.tag == name)

end AssignOperator

namespace UpdateOperator

/-- All update operators. -/
def all : List UpdateOperator := [increment, decrement]

/-- The name of an operator in the interchange form. -/
def tag : UpdateOperator → String
  | increment => "Increment"
  | decrement => "Decrement"

/-- The operator with a given name. -/
def ofTag? (name : String) : Option UpdateOperator :=
  all.find? (·.tag == name)

end UpdateOperator

namespace DeclarationKind

/-- All declaration keywords. -/
def all : List DeclarationKind := [functionWide, block, constant]

/-- The name of a keyword in the interchange form. -/
def tag : DeclarationKind → String
  | functionWide => "Var"
  | block => "Let"
  | constant => "Const"

/-- The keyword with a given name. -/
def ofTag? (name : String) : Option DeclarationKind :=
  all.find? (·.tag == name)

end DeclarationKind

end Covenant
