import Covenant.Contract.Checker

/-!
# The parts of statements

Requirements on the expressions, on the declared functions, and on the declared
variables of statements, at any depth outside functions.  They are kept when
returns are routed through a checker, if they allow its calls.
-/

namespace Covenant

/-- What is required of the parts of statements. -/
structure Parts where
  expression : Expression → Prop
  function : Function → Prop
  declared : List Declarator → Prop

namespace Parts

/-- The requirement on an expression that may be missing. -/
def OnOptional (parts : Parts) (expression : Option Expression) : Prop :=
  ∀ given ∈ expression, parts.expression given

/-- The requirement on the initial step of a counting loop. -/
def OnLoopInit (parts : Parts) : Option LoopInit → Prop
  | none => True
  | some (.bindings _ declarators) => parts.declared declarators
  | some (.evaluate expression) => parts.expression expression

mutual

/-- Every part of a statement meets its requirement. -/
def OnStatement (parts : Parts) : Statement → Prop
  | .evaluate expression | .raise expression => parts.expression expression
  | .block statements => parts.OnStatements statements
  | .labeled _ body => parts.OnStatement body
  | .giveBack argument => parts.OnOptional argument
  | .branch test consequent alternate =>
    parts.expression test ∧ parts.OnStatement consequent ∧ parts.OnAlternate alternate
  | .whileLoop test body | .doWhileLoop body test =>
    parts.expression test ∧ parts.OnStatement body
  | .forLoop init test update body =>
    parts.OnLoopInit init ∧ parts.OnOptional test ∧ parts.OnOptional update ∧
      parts.OnStatement body
  | .bindings _ declarators => parts.declared declarators
  | .declare function => parts.function function
  | .breakOut _ | .continueLoop _ | .empty => True

/-- Every part of a statement that may be missing meets its requirement. -/
def OnAlternate (parts : Parts) : Option Statement → Prop
  | none => True
  | some statement => parts.OnStatement statement

/-- Every part of statements meets its requirement. -/
def OnStatements (parts : Parts) : List Statement → Prop
  | [] => True
  | statement :: rest => parts.OnStatement statement ∧ parts.OnStatements rest

end

variable {parts : Parts}

theorem onOptional_none : parts.OnOptional none := by
  intro given absurd
  cases absurd

theorem onOptional_some {expression : Expression}
    (holds : parts.expression expression) : parts.OnOptional (some expression) := by
  intro given equal
  cases equal
  exact holds

theorem onStatements_iff {statements : List Statement} :
    parts.OnStatements statements ↔ ∀ statement ∈ statements, parts.OnStatement statement := by
  induction statements with
  | nil => simp [OnStatements]
  | cons statement rest induction => simp [OnStatements, induction]

@[simp]
theorem onStatements_append {first second : List Statement} :
    parts.OnStatements (first ++ second) ↔
      parts.OnStatements first ∧ parts.OnStatements second := by
  simp [onStatements_iff, or_imp, forall_and]

theorem onStatements_singleton {statement : Statement} :
    parts.OnStatements [statement] ↔ parts.OnStatement statement := by
  simp [OnStatements]

/-- What is left of a statement without its label has the same parts. -/
theorem onStatements_unlabeled (label : String) (body : Statement) :
    parts.OnStatements (Statement.labeled label body).unlabeled ↔
      parts.OnStatement (.labeled label body) := by
  cases body <;> simp [Statement.unlabeled, OnStatement, OnStatements]

section

variable (expressions : ∀ expression, parts.expression expression)
  (functions : ∀ function, parts.function function)
  (declared : ∀ declarators, parts.declared declarators)

include expressions functions declared

set_option linter.unusedSectionVars false

theorem onLoopInit_of_all : (init : Option LoopInit) → parts.OnLoopInit init
  | none => trivial
  | some (.bindings _ declarators) => declared declarators
  | some (.evaluate expression) => expressions expression

mutual

/-- Every statement meets requirements that every part meets. -/
theorem onStatement_of_all : (statement : Statement) → parts.OnStatement statement
  | .evaluate expression | .raise expression => by
      rw [OnStatement]
      exact expressions expression
  | .block statements => by
      rw [OnStatement]
      exact onStatements_of_all statements
  | .labeled _ body => by
      rw [OnStatement]
      exact onStatement_of_all body
  | .giveBack _ => by
      rw [OnStatement]
      exact fun given _ => expressions given
  | .branch test consequent alternate => by
      rw [OnStatement]
      exact ⟨expressions test, onStatement_of_all consequent, onAlternate_of_all alternate⟩
  | .whileLoop test body | .doWhileLoop body test => by
      rw [OnStatement]
      exact ⟨expressions test, onStatement_of_all body⟩
  | .forLoop init _ _ body => by
      rw [OnStatement]
      exact ⟨onLoopInit_of_all expressions functions declared init,
        fun given _ => expressions given, fun given _ => expressions given,
        onStatement_of_all body⟩
  | .bindings _ declarators => by
      rw [OnStatement]
      exact declared declarators
  | .declare function => by
      rw [OnStatement]
      exact functions function
  | .breakOut _ | .continueLoop _ | .empty => by
      rw [OnStatement]
      trivial

theorem onAlternate_of_all : (alternate : Option Statement) → parts.OnAlternate alternate
  | none => by
      rw [OnAlternate]
      trivial
  | some statement => by
      rw [OnAlternate]
      exact onStatement_of_all statement

/-- All statements meet requirements that every part meets. -/
theorem onStatements_of_all : (statements : List Statement) → parts.OnStatements statements
  | [] => by
      rw [OnStatements]
      trivial
  | statement :: rest => by
      rw [OnStatements]
      exact ⟨onStatement_of_all statement, onStatements_of_all rest⟩

end

end

/-- Whatever meets one requirement meets another one. -/
structure Implies (first second : Parts) : Prop where
  expression {expression : Expression} : first.expression expression → second.expression expression
  function {function : Function} : first.function function → second.function function
  declared {declarators : List Declarator} :
    first.declared declarators → second.declared declarators

section

set_option linter.unusedSectionVars false

variable {first second : Parts} (implies : first.Implies second)

include implies

theorem OnOptional.imp {expression : Option Expression} (holds : first.OnOptional expression) :
    second.OnOptional expression :=
  fun given member => implies.expression (holds given member)

theorem OnLoopInit.imp : (init : Option LoopInit) →
    first.OnLoopInit init → second.OnLoopInit init
  | none, _ => trivial
  | some (.bindings _ _), holds => implies.declared holds
  | some (.evaluate _), holds => implies.expression holds

mutual

/-- A statement whose parts meet a requirement meets every weaker one. -/
theorem OnStatement.imp : (statement : Statement) →
    first.OnStatement statement → second.OnStatement statement
  | .evaluate _, holds | .raise _, holds => by
      rw [OnStatement] at holds ⊢
      exact implies.expression holds
  | .block statements, holds => by
      rw [OnStatement] at holds ⊢
      exact OnStatements.imp statements holds
  | .labeled _ body, holds => by
      rw [OnStatement] at holds ⊢
      exact OnStatement.imp body holds
  | .giveBack _, holds => by
      rw [OnStatement] at holds ⊢
      exact OnOptional.imp implies holds
  | .branch _ consequent alternate, holds => by
      rw [OnStatement] at holds ⊢
      exact ⟨implies.expression holds.1, OnStatement.imp consequent holds.2.1,
        OnAlternate.imp alternate holds.2.2⟩
  | .whileLoop _ body, holds | .doWhileLoop body _, holds => by
      rw [OnStatement] at holds ⊢
      exact ⟨implies.expression holds.1, OnStatement.imp body holds.2⟩
  | .forLoop init _ _ body, holds => by
      rw [OnStatement] at holds ⊢
      exact ⟨OnLoopInit.imp implies init holds.1, OnOptional.imp implies holds.2.1,
        OnOptional.imp implies holds.2.2.1, OnStatement.imp body holds.2.2.2⟩
  | .bindings _ _, holds => by
      rw [OnStatement] at holds ⊢
      exact implies.declared holds
  | .declare _, holds => by
      rw [OnStatement] at holds ⊢
      exact implies.function holds
  | .breakOut _, _ | .continueLoop _, _ | .empty, _ => by
      rw [OnStatement]
      trivial

theorem OnAlternate.imp : (alternate : Option Statement) →
    first.OnAlternate alternate → second.OnAlternate alternate
  | none, _ => by
      rw [OnAlternate]
      trivial
  | some statement, holds => by
      rw [OnAlternate] at holds ⊢
      exact OnStatement.imp statement holds

/-- Statements whose parts meet a requirement meet every weaker one. -/
theorem OnStatements.imp : (statements : List Statement) →
    first.OnStatements statements → second.OnStatements statements
  | [], _ => by
      rw [OnStatements]
      trivial
  | statement :: rest, holds => by
      rw [OnStatements] at holds ⊢
      exact ⟨OnStatement.imp statement holds.1, OnStatements.imp rest holds.2⟩

end

end

/-- The requirement to meet both of two requirements. -/
def both (first second : Parts) : Parts where
  expression expression := first.expression expression ∧ second.expression expression
  function function := first.function function ∧ second.function function
  declared declarators := first.declared declarators ∧ second.declared declarators

section

variable {first second : Parts}

theorem onOptional_both {expression : Option Expression} :
    (first.both second).OnOptional expression ↔
      first.OnOptional expression ∧ second.OnOptional expression :=
  ⟨fun holds => ⟨fun given member => (holds given member).1, fun given member =>
    (holds given member).2⟩, fun holds given member => ⟨holds.1 given member, holds.2 given member⟩⟩

theorem onLoopInit_both {init : Option LoopInit} :
    (first.both second).OnLoopInit init ↔ first.OnLoopInit init ∧ second.OnLoopInit init := by
  cases init with
  | none => simp [OnLoopInit]
  | some init => cases init <;> exact Iff.rfl

mutual

/-- The parts of a statement meet both requirements if they meet each of them. -/
theorem onStatement_both : (statement : Statement) →
    ((first.both second).OnStatement statement ↔
      first.OnStatement statement ∧ second.OnStatement statement)
  | .evaluate _ | .raise _ | .bindings _ _ | .declare _ => by
      simp only [OnStatement]
      exact Iff.rfl
  | .block statements => by
      simp only [OnStatement]
      exact onStatements_both statements
  | .labeled _ body => by
      simp only [OnStatement]
      exact onStatement_both body
  | .giveBack _ => by
      simp only [OnStatement]
      exact onOptional_both
  | .branch _ consequent alternate => by
      simp only [OnStatement, onStatement_both consequent, onAlternate_both alternate]
      rw [and_and_and_comm]
      exact and_and_and_comm
  | .whileLoop _ body | .doWhileLoop body _ => by
      simp only [OnStatement, onStatement_both body]
      rw [and_and_and_comm]
      exact Iff.rfl
  | .forLoop _ _ _ body => by
      simp only [OnStatement, onStatement_both body, onLoopInit_both, onOptional_both]
      constructor
      · rintro ⟨⟨start, start'⟩, ⟨test, test'⟩, ⟨update, update'⟩, body, body'⟩
        exact ⟨⟨start, test, update, body⟩, start', test', update', body'⟩
      · rintro ⟨⟨start, test, update, body⟩, start', test', update', body'⟩
        exact ⟨⟨start, start'⟩, ⟨test, test'⟩, ⟨update, update'⟩, body, body'⟩
  | .breakOut _ | .continueLoop _ | .empty => by
      simp only [OnStatement, and_self]

theorem onAlternate_both : (alternate : Option Statement) →
    ((first.both second).OnAlternate alternate ↔
      first.OnAlternate alternate ∧ second.OnAlternate alternate)
  | none => by
      simp only [OnAlternate, and_self]
  | some statement => by
      simp only [OnAlternate]
      exact onStatement_both statement

/-- The parts of statements meet both requirements if they meet each of them. -/
theorem onStatements_both : (statements : List Statement) →
    ((first.both second).OnStatements statements ↔
      first.OnStatements statements ∧ second.OnStatements statements)
  | [] => by
      simp only [OnStatements, and_self]
  | statement :: rest => by
      simp only [OnStatements, onStatement_both statement, onStatements_both rest]
      rw [and_and_and_comm]

end

end

open Contract in
/-- The requirements allow returns to be routed through a checker. -/
structure Routes (parts : Parts) (checker : Checker) : Prop where
  argument {argument : Expression} :
    parts.expression argument → parts.expression (checker.call (some argument))
  bare : parts.expression (checker.call (some (.literal .undefined)))
  check : parts.expression (checker.call none)

section

set_option linter.unusedSectionVars false

open Contract

variable {checker : Checker} (routes : parts.Routes checker)

include routes

mutual

/-- The parts of a statement meet their requirements after routing. -/
theorem onStatement_route : (statement : Statement) →
    parts.OnStatement statement → parts.OnStatement (checker.route statement)
  | .giveBack none, _ => by
      rw [Checker.route]
      intro given equal
      cases equal
      exact routes.bare
  | .giveBack (some argument), holds => by
      rw [Checker.route]
      intro given equal
      cases equal
      exact routes.argument (holds argument rfl)
  | .block statements, holds => by
      rw [OnStatement] at holds
      rw [Checker.route, OnStatement]
      exact onStatements_routeAll statements holds
  | .labeled _ body, holds => by
      rw [OnStatement] at holds
      rw [Checker.route, OnStatement]
      exact onStatement_route body holds
  | .branch _ consequent alternate, holds => by
      rw [OnStatement] at holds
      rw [Checker.route, OnStatement]
      exact ⟨holds.1, onStatement_route consequent holds.2.1,
        onAlternate_route alternate holds.2.2⟩
  | .whileLoop _ body, holds | .doWhileLoop body _, holds => by
      rw [OnStatement] at holds
      rw [Checker.route, OnStatement]
      exact ⟨holds.1, onStatement_route body holds.2⟩
  | .forLoop _ _ _ body, holds => by
      rw [OnStatement] at holds
      rw [Checker.route, OnStatement]
      exact ⟨holds.1, holds.2.1, holds.2.2.1, onStatement_route body holds.2.2.2⟩
  | .evaluate _, holds | .raise _, holds | .bindings _ _, holds | .declare _, holds
  | .breakOut _, holds | .continueLoop _, holds | .empty, holds => by
      rw [Checker.route]
      · exact holds
      all_goals intros; contradiction

theorem onAlternate_route : (alternate : Option Statement) →
    parts.OnAlternate alternate → parts.OnAlternate (checker.routeAlternate alternate)
  | none, _ => by
      rw [Checker.routeAlternate, OnAlternate]
      trivial
  | some statement, holds => by
      rw [OnAlternate] at holds
      rw [Checker.routeAlternate, OnAlternate]
      exact onStatement_route statement holds

/-- The parts of statements meet their requirements after routing. -/
theorem onStatements_routeAll : (statements : List Statement) →
    parts.OnStatements statements → parts.OnStatements (checker.routeAll statements)
  | [], _ => by
      rw [Checker.routeAll, OnStatements]
      trivial
  | statement :: rest, holds => by
      rw [OnStatements] at holds
      rw [Checker.routeAll, OnStatements]
      exact ⟨onStatement_route statement holds.1, onStatements_routeAll rest holds.2⟩

end

theorem onStatements_exitCheck (statements : List Statement) :
    parts.OnStatements (checker.exitCheck statements) := by
  unfold Checker.exitCheck
  split
  · rw [OnStatements]
    trivial
  · rw [onStatements_singleton, Checker.check, OnStatement]
    exact routes.check

end

end Parts

end Covenant
