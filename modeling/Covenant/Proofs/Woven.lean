import Covenant.Proofs.Exchange
import Covenant.Proofs.Pairing

/-!
# Programs with checks woven in

A program is woven from another one if it is the same but for statements that
check something or prepare a check, and for values that pass through checkers
on their way out of a function.
-/

namespace Covenant

open Contract Machine

namespace Machine.Correspondence

/-- Parts of programs that correspond: the same names, and functions that correspond. -/
def exchange (code : Correspondence) : Exchange where
  name := code.visible
  function := code.function
  expression _ _ := False
  statement _ _ := False

end Machine.Correspondence

namespace Woven

/-- A statement that checks something, or prepares a check, and does nothing else. -/
inductive Silent (code : Correspondence) : Statement → Prop where
  | guard {guard : Statement} (plain : IsPlainGuard false guard) : Silent code guard
  | check {checker : Checker} (named : code.checker checker.name) : Silent code checker.check
  | declaration {checker : Checker} (parameter : String) (named : code.checker checker.name)
      (guards : ∀ guard ∈ checker.guards, IsPlainGuard false guard) :
      Silent code (checker.declaration parameter)
  | constant {name : String} {init : Expression} (hidden : ¬ code.visible name)
      (apart : ¬ code.checker name) (plain : init.isPlain none false = true) :
      Silent code (.bindings .constant [⟨name, some init⟩])

/-- Returned values that correspond, the first one of which may pass through checkers. -/
inductive Returned (code : Correspondence) : Option Expression → Option Expression → Prop where
  | same {argument other : Option Expression} (inner : code.exchange.OnOptional argument other) :
      Returned code argument other
  | routed {checker : Checker} {argument other : Option Expression}
      (named : code.checker checker.name) (inner : Returned code argument other) :
      Returned code (some (checker.call (some (argument.getD (.literal .undefined))))) other

mutual

/-- A statement with checks woven in. -/
inductive OnStatement (code : Correspondence) : Statement → Statement → Prop where
  | evaluate {expression other : Expression} (inner : code.exchange.OnExpression expression other) :
      OnStatement code (.evaluate expression) (.evaluate other)
  | block {statements others : List Statement} (inner : OnStatements code statements others) :
      OnStatement code (.block statements) (.block others)
  | labeled {label : String} {body other : Statement} (inner : OnStatement code body other) :
      OnStatement code (.labeled label body) (.labeled label other)
  | giveBack {argument other : Option Expression} (inner : Returned code argument other) :
      OnStatement code (.giveBack argument) (.giveBack other)
  | branch {test test' : Expression} {consequent consequent' : Statement}
      {alternate alternate' : Option Statement}
      (first : code.exchange.OnExpression test test')
      (second : OnStatement code consequent consequent')
      (third : OnAlternate code alternate alternate') :
      OnStatement code (.branch test consequent alternate) (.branch test' consequent' alternate')
  | whileLoop {test test' : Expression} {body body' : Statement}
      (first : code.exchange.OnExpression test test') (second : OnStatement code body body') :
      OnStatement code (.whileLoop test body) (.whileLoop test' body')
  | doWhileLoop {test test' : Expression} {body body' : Statement}
      (first : OnStatement code body body') (second : code.exchange.OnExpression test test') :
      OnStatement code (.doWhileLoop body test) (.doWhileLoop body' test')
  | forLoop {init init' : Option LoopInit} {test test' update update' : Option Expression}
      {body body' : Statement}
      (first : code.exchange.OnLoopInit init init')
      (second : code.exchange.OnOptional test test')
      (third : code.exchange.OnOptional update update')
      (fourth : OnStatement code body body') :
      OnStatement code (.forLoop init test update body) (.forLoop init' test' update' body')
  | bindings {kind : DeclarationKind} {declarators declarators' : List Declarator}
      (inner : code.exchange.OnDeclarators declarators declarators') :
      OnStatement code (.bindings kind declarators) (.bindings kind declarators')
  | declare {function function' : Function} (inner : code.function function function') :
      OnStatement code (.declare function) (.declare function')
  | raise {argument argument' : Expression}
      (inner : code.exchange.OnExpression argument argument') :
      OnStatement code (.raise argument) (.raise argument')
  | breakOut (label : Option String) : OnStatement code (.breakOut label) (.breakOut label)
  | continueLoop (label : Option String) :
      OnStatement code (.continueLoop label) (.continueLoop label)
  | empty : OnStatement code .empty .empty

/-- A statement that may be missing, with checks woven in. -/
inductive OnAlternate (code : Correspondence) : Option Statement → Option Statement → Prop where
  | none : OnAlternate code none none
  | some {statement other : Statement} (inner : OnStatement code statement other) :
      OnAlternate code (some statement) (some other)

/-- Statements with checks woven in, and with further statements that only check. -/
inductive OnStatements (code : Correspondence) : List Statement → List Statement → Prop where
  | nil : OnStatements code [] []
  | cons {statement other : Statement} {rest others : List Statement}
      (first : OnStatement code statement other) (second : OnStatements code rest others) :
      OnStatements code (statement :: rest) (other :: others)
  | silent {statement : Statement} {rest others : List Statement}
      (first : Silent code statement) (second : OnStatements code rest others) :
      OnStatements code (statement :: rest) others

end

/-- The body of a function with checks woven in. -/
inductive OnBody (code : Correspondence) : FunctionBody → FunctionBody → Prop where
  | block {statements others : List Statement} (inner : OnStatements code statements others) :
      OnBody code (.block statements) (.block others)
  | result {expression other : Expression}
      (inner : code.exchange.OnExpression expression other) :
      OnBody code (.result expression) (.result other)

end Woven

end Covenant
