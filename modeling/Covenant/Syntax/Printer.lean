import Covenant.Syntax.Tree
import Covenant.Text.Identifier
import Covenant.Text.Quoted

/-!
# Printing syntax trees

Trees are printed as source text with two spaces of indentation.
Parentheses follow binding strengths: every expression has one, every
position demands one, and an expression that is too weak for its position is
parenthesized.  A few positions demand more than strengths can say: the
operands of the nullish operator, members of integer literals, and the first
word of an expression statement.

The text of a condition is also what a contract quotes when it fails, and
what decides whether two captured expressions are the same.
-/

namespace Covenant

/-! Binding strengths besides those of binary and logical operators. -/

namespace Strength

/-- The strength of a comma sequence, which every position for a whole expression accepts. -/
def sequence : Nat := 1

/-- The strength of assignments and arrow functions. -/
def assignment : Nat := 2

/-- The strength of a choice. -/
def conditional : Nat := 3

/-- The strength of an operator before its operand. -/
def leading : Nat := 15

/-- The strength of an operator after its operand. -/
def trailing : Nat := 16

/-- The strength of a call. -/
def call : Nat := 18

/-- The strength of a property access. -/
def member : Nat := 19

/-- The strength of an expression that cannot be taken apart. -/
def primary : Nat := 20

/-- A demand that no expression meets. -/
def always : Nat := 21

end Strength

/-- The binding strength of an expression. -/
def Expression.strength : Expression → Nat
  | .literal (.number value) =>
    if Number.isNegative value && value != 0.0 then Strength.leading else Strength.primary
  | .literal _ | .identifier _ | .receiver | .array _ | .record _ => Strength.primary
  | .lambda function => if function.isArrow then Strength.assignment else Strength.primary
  | .sequence _ => Strength.sequence
  | .assign _ _ _ | .yield _ _ => Strength.assignment
  | .conditional _ _ _ => Strength.conditional
  | .logical operator _ _ => operator.precedence
  | .binary operator _ _ => operator.precedence
  | .unary _ _ | .await _ => Strength.leading
  | .update _ leading _ => if leading then Strength.leading else Strength.trailing
  | .call _ _ | .construct _ _ => Strength.call
  | .member _ _ | .index _ _ => Strength.member

/--
The strength demanded of an operand of a logical operator: the nullish
operator and the other two are never mixed without parentheses.
-/
def LogicalOperator.operandStrength
    (operator : LogicalOperator) (operand : Expression) (usual : Nat) : Nat :=
  match operand with
  | .logical inner _ _ =>
    if (operator == .nullish) != (inner == .nullish) then Strength.always else usual
  | _ => usual

/-- The strengths demanded of the operands of a binary operator. -/
def BinaryOperator.operandStrengths (operator : BinaryOperator) : Nat × Nat :=
  if operator.isRightAssociative then
    (Strength.trailing, operator.precedence)
  else
    (operator.precedence, operator.precedence + 1)

/-- The source text of a literal. -/
def Literal.source : Literal → String
  | .string value => Text.quote value
  | literal => literal.toText

/-- Whether a text begins with another one. -/
def Text.startsWith (lead text : String) : Bool :=
  lead.toList.isPrefixOf text.toList

/-- Whether an expression prints as digits only, so that a point after it would join them. -/
def Expression.isDigits : Expression → Bool
  | .literal (.number value) => (Number.toText value).toList.all Char.isDigit
  | _ => false

/-- Whether an expression is an object expression. -/
def Expression.isObject : Expression → Bool
  | .record _ => true
  | _ => false

/-- Whether a statement is a block. -/
def Statement.isBlock : Statement → Bool
  | .block _ => true
  | _ => false

/-- What stands between a unary operator and the text of its operand. -/
def UnaryOperator.gap (operator : UnaryOperator) (operand : String) : String :=
  match operator with
  | typeOf | void => " "
  | minus => if Text.startsWith "-" operand then " " else ""
  | plus => if Text.startsWith "+" operand then " " else ""
  | not | bitNot => ""

/-- A line break followed by the indentation of a nesting level. -/
def lineBreak (level : Nat) : String :=
  String.ofList ('\n' :: List.replicate (2 * level) ' ')

/-- A text in parentheses if it is demanded. -/
def parenthesize (demanded : Bool) (text : String) : String :=
  if demanded then "(" ++ text ++ ")" else text

/-- The key of a property, quoted unless it is an identifier name. -/
def Property.keyText (property : Property) : String :=
  if Text.isIdentifierName property.key then property.key else Text.quote property.key

/-- A label after a keyword, if there is one. -/
def labelText : Option String → String
  | none => ""
  | some label => " " ++ label

/--
The text of an expression statement without its semicolon: an expression
that would read as a declaration or a block is parenthesized.
-/
def statementText (text : String) : String :=
  parenthesize
    (Text.startsWith "function" text || Text.startsWith "async function" text ||
      Text.startsWith "\x7b" text)
    text

/-- What stands before the parameters of a function that is no arrow. -/
def Function.header (function : Function) : String :=
  "function" ++ (if function.isGenerator then "*" else "") ++
    (match function.name with
      | none => ""
      | some name => " " ++ name) ++ "("

/-- The parameters of a function. -/
def Function.parameterText (function : Function) : String :=
  ", ".intercalate function.parameters

mutual

/-- An expression at a nesting level, in a position that demands a strength. -/
def Expression.print (level demand : Nat) (expression : Expression) : String :=
  parenthesize (decide (expression.strength < demand)) <|
    match expression with
    | .literal value => value.source
    | .identifier name => name
    | .receiver => "this"
    | .array elements => "[" ++ printElements level elements ++ "]"
    | .record [] => "\x7b\x7d"
    | .record properties => "\x7b " ++ printProperties level properties ++ " \x7d"
    | .lambda function => function.print level
    | .unary operator argument =>
      let operand := argument.print level Strength.leading
      operator.symbol ++ operator.gap operand ++ operand
    | .update operator true argument => operator.symbol ++ argument.print level Strength.leading
    | .update operator false argument => argument.print level Strength.trailing ++ operator.symbol
    | .binary operator left right =>
      left.print level operator.operandStrengths.1 ++ " " ++ operator.symbol ++ " " ++
        right.print level operator.operandStrengths.2
    | .logical operator left right =>
      left.print level (operator.operandStrength left operator.precedence) ++
        " " ++ operator.symbol ++ " " ++
        right.print level (operator.operandStrength right (operator.precedence + 1))
    | .assign operator target value =>
      target.print level Strength.trailing ++ " " ++ operator.symbol ++ " " ++
        value.print level Strength.assignment
    | .conditional test consequent alternate =>
      test.print level (Strength.conditional + 1) ++ " ? " ++
        consequent.print level Strength.assignment ++ " : " ++
        alternate.print level Strength.assignment
    | .call callee arguments =>
      callee.print level Strength.call ++ "(" ++ printElements level arguments ++ ")"
    | .construct callee arguments =>
      "new " ++ callee.print level Strength.member ++ "(" ++ printElements level arguments ++ ")"
    | .member object name =>
      (if object.isDigits then "(" ++ object.print level Strength.sequence ++ ")"
        else object.print level Strength.call) ++ "." ++ name
    | .index object key =>
      object.print level Strength.call ++ "[" ++ key.print level Strength.sequence ++ "]"
    | .sequence expressions => printElements level expressions
    | .yield argument delegate =>
      "yield" ++ (if delegate then "*" else "") ++
        printOptional level " " Strength.assignment argument
    | .await argument => "await " ++ argument.print level Strength.leading

/-- Expressions separated by commas. -/
def printElements (level : Nat) : List Expression → String
  | [] => ""
  | [element] => element.print level Strength.assignment
  | element :: rest => element.print level Strength.assignment ++ ", " ++ printElements level rest

/-- Properties separated by commas. -/
def printProperties (level : Nat) : List Property → String
  | [] => ""
  | [property] => property.print level
  | property :: rest => property.print level ++ ", " ++ printProperties level rest

/-- A property with its key. -/
def Property.print (level : Nat) : Property → String
  | ⟨key, value⟩ =>
    Property.keyText ⟨key, value⟩ ++ ": " ++ value.print level Strength.assignment

/-- An expression after a lead, or nothing. -/
def printOptional (level : Nat) (lead : String) (demand : Nat) : Option Expression → String
  | none => ""
  | some expression => lead ++ expression.print level demand

/-- A function. -/
def Function.print (level : Nat) (function : Function) : String :=
  match function with
  | ⟨name, parameters, body, isArrow, isAsync, isGenerator⟩ =>
    let shown : Function := ⟨name, parameters, body, isArrow, isAsync, isGenerator⟩
    (if isAsync then "async " else "") ++
      if isArrow then
        "(" ++ shown.parameterText ++ ") => " ++ body.printArrow level
      else
        shown.header ++ shown.parameterText ++ ") " ++ body.printBlock level

/-- The body of an arrow function: an object as result is parenthesized. -/
def FunctionBody.printArrow (level : Nat) : FunctionBody → String
  | .block statements => printBlock level statements
  | .result expression =>
    expression.print level
      (if expression.isObject then Strength.always else Strength.assignment)

/-- The body of any other function: a single expression is printed as its return. -/
def FunctionBody.printBlock (level : Nat) : FunctionBody → String
  | .block statements => Covenant.printBlock level statements
  | .result expression =>
    "\x7b" ++ lineBreak (level + 1) ++ "return " ++
      expression.print (level + 1) Strength.sequence ++ ";" ++ lineBreak level ++ "\x7d"

/-- A block of statements, one a line. -/
def printBlock (level : Nat) : List Statement → String
  | [] => "\x7b\x7d"
  | statement :: rest =>
    "\x7b" ++ lineBreak (level + 1) ++ statement.print (level + 1) ++
      printLines (level + 1) rest ++ lineBreak level ++ "\x7d"

/-- Statements, each on a line of its own. -/
def printLines (level : Nat) : List Statement → String
  | [] => ""
  | statement :: rest => lineBreak level ++ statement.print level ++ printLines level rest

/-- The variables of a declaration, separated by commas. -/
def printDeclarators (level : Nat) : List Declarator → String
  | [] => ""
  | [declarator] => declarator.print level
  | declarator :: rest => declarator.print level ++ ", " ++ printDeclarators level rest

/-- A variable with its initial value. -/
def Declarator.print (level : Nat) : Declarator → String
  | ⟨name, init⟩ => name ++ printOptional level " = " Strength.assignment init

/-- The initial step of a counting loop. -/
def printLoopInit (level : Nat) : Option LoopInit → String
  | none => ""
  | some (.bindings kind declarators) =>
    kind.keyword ++ " " ++ printDeclarators level declarators
  | some (.evaluate expression) => expression.print level Strength.sequence

/-- A statement at a nesting level, its first line without indentation. -/
def Statement.print (level : Nat) : Statement → String
  | .evaluate expression => statementText (expression.print level Strength.sequence) ++ ";"
  | .block statements => printBlock level statements
  | .labeled label body => label ++ ": " ++ body.print level
  | .giveBack argument => "return" ++ printOptional level " " Strength.sequence argument ++ ";"
  | .branch test consequent none =>
    "if (" ++ test.print level Strength.sequence ++ ") " ++ consequent.print level
  | .branch test consequent (some alternate) =>
    "if (" ++ test.print level Strength.sequence ++ ") " ++
      (if consequent.isBlock then consequent.print level
        else
          "\x7b" ++ lineBreak (level + 1) ++ consequent.print (level + 1) ++
            lineBreak level ++ "\x7d") ++
      " else " ++ alternate.print level
  | .whileLoop test body =>
    "while (" ++ test.print level Strength.sequence ++ ") " ++ body.print level
  | .doWhileLoop body test =>
    "do " ++ body.print level ++ " while (" ++ test.print level Strength.sequence ++ ");"
  | .forLoop init test update body =>
    "for (" ++ printLoopInit level init ++ ";" ++
      printOptional level " " Strength.sequence test ++ ";" ++
      printOptional level " " Strength.sequence update ++ ") " ++ body.print level
  | .bindings kind declarators =>
    kind.keyword ++ " " ++ printDeclarators level declarators ++ ";"
  | .declare function => function.print level
  | .raise argument => "throw " ++ argument.print level Strength.sequence ++ ";"
  | .breakOut label => "break" ++ labelText label ++ ";"
  | .continueLoop label => "continue" ++ labelText label ++ ";"
  | .empty => ";"

end

/-- The source text of an expression. -/
def Expression.source (expression : Expression) : String :=
  expression.print 0 Strength.sequence

/-- The source text of a statement. -/
def Statement.source (statement : Statement) : String :=
  statement.print 0

/-- The source text of a program: its statements, each ended by a line break. -/
def Program.source (program : Program) : String :=
  match program.statements with
  | [] => "\n"
  | statements => String.join (statements.map fun statement => statement.source ++ "\n")

end Covenant
