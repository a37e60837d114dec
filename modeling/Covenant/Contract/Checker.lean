import Covenant.Syntax.Tree

/-!
# Checkers

Postconditions and invariants are checked by a helper function, declared as a
constant: it runs the guards on its parameter and gives the parameter back.
Every return that a contract governs is routed through the helper; where
control can fall off the end of the governed statements, the helper is called
without an argument.

Routing stops at nested functions: their returns are their own.
-/

namespace Covenant.Contract

/-- A helper that runs guards. -/
structure Checker where
  name : String
  guards : List Statement

namespace Checker

/-- The function of a helper. -/
def function (checker : Checker) (parameter : String) : Function :=
  ⟨none, [parameter],
    .block (checker.guards ++ [.giveBack (some (.identifier parameter))]), true, false, false⟩

/-- The declaration of a helper. -/
def declaration (checker : Checker) (parameter : String) : Statement :=
  .bindings .constant [⟨checker.name, some (.lambda (checker.function parameter))⟩]

/-- A call of a helper, with an argument or bare. -/
def call (checker : Checker) (argument : Option Expression) : Expression :=
  .call (.identifier checker.name) argument.toList

/-- A bare call of a helper as a statement. -/
def check (checker : Checker) : Statement :=
  .evaluate (checker.call none)

end Checker

mutual

/-- Route every return of a statement through a helper. -/
def Checker.route (checker : Checker) : Statement → Statement
  | .giveBack argument =>
    .giveBack (some (checker.call (some (argument.getD (.literal .undefined)))))
  | .block statements => .block (checker.routeAll statements)
  | .labeled label body => .labeled label (checker.route body)
  | .branch test consequent alternate =>
    .branch test (checker.route consequent) (checker.routeAlternate alternate)
  | .whileLoop test body => .whileLoop test (checker.route body)
  | .doWhileLoop body test => .doWhileLoop (checker.route body) test
  | .forLoop init test update body => .forLoop init test update (checker.route body)
  | statement => statement

/-- Route every return of a statement that may be missing. -/
def Checker.routeAlternate (checker : Checker) : Option Statement → Option Statement
  | none => none
  | some statement => some (checker.route statement)

/-- Route every return of statements in turn. -/
def Checker.routeAll (checker : Checker) : List Statement → List Statement
  | [] => []
  | statement :: rest => checker.route statement :: checker.routeAll rest

end

mutual

/-- The number of returns in a statement, outside nested functions. -/
def countReturns : Statement → Nat
  | .giveBack _ => 1
  | .block statements => countReturnsOfAll statements
  | .labeled _ body => countReturns body
  | .branch _ consequent alternate => countReturns consequent + countReturnsOfAlternate alternate
  | .whileLoop _ body | .doWhileLoop body _ | .forLoop _ _ _ body => countReturns body
  | _ => 0

/-- The number of returns in a statement that may be missing. -/
def countReturnsOfAlternate : Option Statement → Nat
  | none => 0
  | some statement => countReturns statement

/-- The number of returns in statements. -/
def countReturnsOfAll : List Statement → Nat
  | [] => 0
  | statement :: rest => countReturns statement + countReturnsOfAll rest

end

/-- Whether the last of some statements is a return. -/
def endsInReturn (statements : List Statement) : Bool :=
  match statements.getLast? with
  | some statement => statement.isReturn
  | none => false

namespace Checker

/-- The check at the end of statements that control can fall off. -/
def exitCheck (checker : Checker) (statements : List Statement) : List Statement :=
  if endsInReturn statements then [] else [checker.check]

/-- Statements with a check at their end where control can fall off. -/
def appendExitCheck (checker : Checker) (statements : List Statement) : List Statement :=
  statements ++ checker.exitCheck statements

/-- What an invariant puts before the statements that it governs. -/
def entry (checker : Checker) (parameter : String) : List Statement :=
  [checker.declaration parameter, checker.check]

/--
Wire an invariant into the statements that it governs: its declaration and a
check at the front, every return routed, and a check at the end.
-/
def attachInvariant (checker : Checker) (parameter : String) (statements : List Statement) :
    List Statement :=
  checker.appendExitCheck (checker.entry parameter ++ checker.routeAll statements)

end Checker

end Covenant.Contract
