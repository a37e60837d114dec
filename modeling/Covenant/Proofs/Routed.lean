import Covenant.Proofs.Postcondition
import Covenant.Proofs.Woven

/-!
# Statements with other returns

Statements that a walk has not come to yet are those of the source with their
returns routed through the checkers of the invariants met so far.  Changing
returns leaves the shape of statements, and whatever they state as contracts,
as it was.

Statements whose returns pass through checkers are woven from the statements
themselves, and so are statements of which this was said before and that are
routed once more.
-/

namespace Covenant.Contract

open Machine

/-! ## Changing returns -/

mutual

/-- A statement with other returned values. -/
def mapReturns (change : Option Expression → Option Expression) : Statement → Statement
  | .giveBack argument => .giveBack (change argument)
  | .block statements => .block (mapReturnsOfAll change statements)
  | .labeled label body => .labeled label (mapReturns change body)
  | .branch test consequent alternate =>
    .branch test (mapReturns change consequent) (mapReturnsOfAlternate change alternate)
  | .whileLoop test body => .whileLoop test (mapReturns change body)
  | .doWhileLoop body test => .doWhileLoop (mapReturns change body) test
  | .forLoop init test update body => .forLoop init test update (mapReturns change body)
  | statement => statement

/-- A statement that may be missing, with other returned values. -/
def mapReturnsOfAlternate (change : Option Expression → Option Expression) :
    Option Statement → Option Statement
  | none => none
  | some statement => some (mapReturns change statement)

/-- Statements with other returned values. -/
def mapReturnsOfAll (change : Option Expression → Option Expression) :
    List Statement → List Statement
  | [] => []
  | statement :: rest => mapReturns change statement :: mapReturnsOfAll change rest

end

/-- A returned value that passes through one more checker. -/
def Checker.passing (checker : Checker) (change : Option Expression → Option Expression)
    (argument : Option Expression) : Option Expression :=
  some (checker.call (some ((change argument).getD (.literal .undefined))))

mutual

/-- Routing changes returns that were changed before once more. -/
theorem route_mapReturns
    (checker : Checker) (change : Option Expression → Option Expression) :
    (statement : Statement) →
      checker.route (mapReturns change statement) = mapReturns (checker.passing change) statement
  | .giveBack argument => by
      rw [mapReturns, mapReturns, Checker.route, Checker.passing]
  | .block statements => by
      rw [mapReturns, mapReturns, Checker.route, routeAll_mapReturns checker change statements]
  | .labeled _ body => by
      rw [mapReturns, mapReturns, Checker.route, route_mapReturns checker change body]
  | .branch _ consequent alternate => by
      rw [mapReturns, mapReturns, Checker.route, route_mapReturns checker change consequent,
        routeAlternate_mapReturns checker change alternate]
  | .whileLoop _ body | .doWhileLoop body _ | .forLoop _ _ _ body => by
      rw [mapReturns, mapReturns, Checker.route, route_mapReturns checker change body]
  | .evaluate _ | .bindings _ _ | .declare _ | .raise _ | .breakOut _ | .continueLoop _
  | .empty => by simp [mapReturns, Checker.route]

theorem routeAlternate_mapReturns
    (checker : Checker) (change : Option Expression → Option Expression) :
    (alternate : Option Statement) →
      checker.routeAlternate (mapReturnsOfAlternate change alternate) =
        mapReturnsOfAlternate (checker.passing change) alternate
  | none => by rw [mapReturnsOfAlternate, mapReturnsOfAlternate, Checker.routeAlternate]
  | some statement => by
      rw [mapReturnsOfAlternate, mapReturnsOfAlternate, Checker.routeAlternate,
        route_mapReturns checker change statement]

/-- Routing changes returns of statements that were changed before once more. -/
theorem routeAll_mapReturns
    (checker : Checker) (change : Option Expression → Option Expression) :
    (statements : List Statement) →
      checker.routeAll (mapReturnsOfAll change statements) =
        mapReturnsOfAll (checker.passing change) statements
  | [] => by rw [mapReturnsOfAll, mapReturnsOfAll, Checker.routeAll]
  | statement :: rest => by
      rw [mapReturnsOfAll, mapReturnsOfAll, Checker.routeAll,
        route_mapReturns checker change statement, routeAll_mapReturns checker change rest]

end

mutual

/-- Returns that are not changed leave a statement as it is. -/
theorem mapReturns_id : (statement : Statement) → mapReturns id statement = statement
  | .giveBack _ => by rw [mapReturns, id]
  | .block statements => by rw [mapReturns, mapReturnsOfAll_id statements]
  | .labeled _ body => by rw [mapReturns, mapReturns_id body]
  | .branch _ consequent alternate => by
      rw [mapReturns, mapReturns_id consequent, mapReturnsOfAlternate_id alternate]
  | .whileLoop _ body | .doWhileLoop body _ | .forLoop _ _ _ body => by
      rw [mapReturns, mapReturns_id body]
  | .evaluate _ | .bindings _ _ | .declare _ | .raise _ | .breakOut _ | .continueLoop _
  | .empty => by simp [mapReturns]

theorem mapReturnsOfAlternate_id : (alternate : Option Statement) →
    mapReturnsOfAlternate id alternate = alternate
  | none => by rw [mapReturnsOfAlternate]
  | some statement => by rw [mapReturnsOfAlternate, mapReturns_id statement]

theorem mapReturnsOfAll_id : (statements : List Statement) →
    mapReturnsOfAll id statements = statements
  | [] => by rw [mapReturnsOfAll]
  | statement :: rest => by
      rw [mapReturnsOfAll, mapReturns_id statement, mapReturnsOfAll_id rest]

end

section

variable (change : Option Expression → Option Expression)

@[simp]
theorem label?_mapReturns (statement : Statement) :
    (mapReturns change statement).label? = statement.label? := by
  cases statement <;> simp [mapReturns, Statement.label?]

@[simp]
theorem isSimple_mapReturns (statement : Statement) :
    isSimple (mapReturns change statement) = isSimple statement := by
  cases statement <;> simp [mapReturns, isSimple]

@[simp]
theorem recognizes_mapReturns (context : Context) (statement : Statement) :
    context.recognizes (mapReturns change statement) = context.recognizes statement := by
  rw [Context.recognizes, Context.recognizes, label?_mapReturns]

/-- What is left of a statement without its label has the same returns. -/
theorem unlabeled_mapReturns (label : String) (body : Statement) :
    (Statement.labeled label (mapReturns change body)).unlabeled =
      mapReturnsOfAll change (Statement.labeled label body).unlabeled := by
  cases body <;> simp [mapReturns, Statement.unlabeled, mapReturnsOfAll]

theorem mapReturnsOfAll_append (first second : List Statement) :
    mapReturnsOfAll change (first ++ second) =
      mapReturnsOfAll change first ++ mapReturnsOfAll change second := by
  induction first with
  | nil => rw [List.nil_append, mapReturnsOfAll, List.nil_append]
  | cons statement rest induction =>
      rw [List.cons_append, mapReturnsOfAll, mapReturnsOfAll, induction, List.cons_append]

theorem exists_of_mapReturns_labeled
    {statement body : Statement} {label : String}
    (equal : .labeled label body = mapReturns change statement) :
    ∃ inner, statement = .labeled label inner ∧ body = mapReturns change inner := by
  cases statement <;> simp [mapReturns] at equal
  obtain ⟨rfl, rfl⟩ := equal
  exact ⟨_, rfl, rfl⟩

end

mutual

/-- A body with other returns only states conditions if the body itself does. -/
theorem conditions_of_mapReturns
    {site : Site} {change : Option Expression → Option Expression} :
    (body : Statement) → {given : List Condition} →
      conditions site (mapReturns change body) = .ok given → conditions site body = .ok given
  | .block statements, _, outcome => by
      rw [mapReturns, conditions] at outcome
      rw [conditions]
      exact conditionsOfStatements_of_mapReturns statements outcome
  | .labeled _ _, _, outcome | .giveBack _, _, outcome | .branch _ _ _, _, outcome
  | .whileLoop _ _, _, outcome | .doWhileLoop _ _, _, outcome
  | .forLoop _ _ _ _, _, outcome => by simp [mapReturns, conditions] at outcome
  | .evaluate _, _, outcome | .empty, _, outcome | .bindings _ _, _, outcome
  | .declare _, _, outcome | .raise _, _, outcome | .breakOut _, _, outcome
  | .continueLoop _, _, outcome => by simpa [mapReturns] using outcome

theorem conditionsOfStatements_of_mapReturns
    {site : Site} {change : Option Expression → Option Expression} :
    (statements : List Statement) → {given : List Condition} →
      conditionsOfStatements site (mapReturnsOfAll change statements) = .ok given →
        conditionsOfStatements site statements = .ok given
  | [], _, outcome => by
      rw [mapReturnsOfAll] at outcome
      exact outcome
  | statement :: rest, _, outcome => by
      rw [mapReturnsOfAll, conditionsOfStatements] at outcome
      rw [conditionsOfStatements]
      cases first : conditions site (mapReturns change statement) with
      | error reason =>
          rw [first] at outcome
          cases outcome
      | ok found =>
          cases others : conditionsOfStatements site (mapReturnsOfAll change rest) with
          | error reason =>
              rw [first, others] at outcome
              cases outcome
          | ok otherFound =>
              rw [first, others] at outcome
              rw [conditions_of_mapReturns statement first,
                conditionsOfStatements_of_mapReturns rest others]
              exact outcome

end

end Covenant.Contract

/-! ## Statements whose returns pass through checkers -/

namespace Covenant.Woven

open Contract Machine

variable {code : Correspondence}

/-- Returned values are changed by nothing but passing through checkers. -/
def Passes (code : Correspondence) (change : Option Expression → Option Expression) : Prop :=
  ∀ argument other, Returned code argument other → Returned code (change argument) other

theorem passes_id : Passes code id :=
  fun _ _ returned => returned

theorem Passes.passing
    {change : Option Expression → Option Expression} (passes : Passes code change)
    {checker : Checker} (named : code.checker checker.name) :
    Passes code (checker.passing change) :=
  fun argument other returned => .routed named (passes argument other returned)

/-- The parts of statements that correspond to themselves. -/
def itself (code : Correspondence) : Parts where
  expression expression := code.exchange.OnExpression expression expression
  function function := code.function function function
  declared declarators := code.exchange.OnDeclarators declarators declarators

theorem onOptional_itself
    {expression : Option Expression} (holds : (itself code).OnOptional expression) :
    code.exchange.OnOptional expression expression := by
  cases expression with
  | none => exact .none
  | some expression => exact .some (holds expression rfl)

theorem onLoopInit_itself :
    {init : Option LoopInit} → (itself code).OnLoopInit init → code.exchange.OnLoopInit init init
  | none, _ => .none
  | some (.bindings _ _), holds => .bindings holds
  | some (.evaluate _), holds => .evaluate holds

section

set_option linter.unusedSectionVars false

variable {change : Option Expression → Option Expression} (passes : Passes code change)

include passes

mutual

/-- A statement whose returns pass through checkers is woven from the statement itself. -/
theorem onStatement_mapReturns : (statement : Statement) →
    (itself code).OnStatement statement →
      OnStatement code (mapReturns change statement) statement
  | .evaluate _, holds => by
      rw [Parts.OnStatement] at holds
      simpa [mapReturns] using .evaluate holds
  | .block statements, holds => by
      rw [Parts.OnStatement] at holds
      rw [mapReturns]
      exact .block (onStatements_mapReturns statements holds)
  | .labeled _ body, holds => by
      rw [Parts.OnStatement] at holds
      rw [mapReturns]
      exact .labeled (onStatement_mapReturns body holds)
  | .giveBack argument, holds => by
      rw [Parts.OnStatement] at holds
      rw [mapReturns]
      exact .giveBack (passes argument argument (.same (onOptional_itself holds)))
  | .branch _ consequent alternate, holds => by
      rw [Parts.OnStatement] at holds
      rw [mapReturns]
      exact .branch holds.1 (onStatement_mapReturns consequent holds.2.1)
        (onAlternate_mapReturns alternate holds.2.2)
  | .whileLoop _ body, holds => by
      rw [Parts.OnStatement] at holds
      rw [mapReturns]
      exact .whileLoop holds.1 (onStatement_mapReturns body holds.2)
  | .doWhileLoop body _, holds => by
      rw [Parts.OnStatement] at holds
      rw [mapReturns]
      exact .doWhileLoop (onStatement_mapReturns body holds.2) holds.1
  | .forLoop _ _ _ body, holds => by
      rw [Parts.OnStatement] at holds
      rw [mapReturns]
      exact .forLoop (onLoopInit_itself holds.1) (onOptional_itself holds.2.1)
        (onOptional_itself holds.2.2.1) (onStatement_mapReturns body holds.2.2.2)
  | .bindings _ _, holds => by
      rw [Parts.OnStatement] at holds
      simpa [mapReturns] using .bindings holds
  | .declare _, holds => by
      rw [Parts.OnStatement] at holds
      simpa [mapReturns] using .declare holds
  | .raise _, holds => by
      rw [Parts.OnStatement] at holds
      simpa [mapReturns] using .raise holds
  | .breakOut label, _ => by simpa [mapReturns] using .breakOut label
  | .continueLoop label, _ => by simpa [mapReturns] using .continueLoop label
  | .empty, _ => by simpa [mapReturns] using .empty

theorem onAlternate_mapReturns : (alternate : Option Statement) →
    (itself code).OnAlternate alternate →
      OnAlternate code (mapReturnsOfAlternate change alternate) alternate
  | none, _ => by
      rw [mapReturnsOfAlternate]
      exact .none
  | some statement, holds => by
      rw [Parts.OnAlternate] at holds
      rw [mapReturnsOfAlternate]
      exact .some (onStatement_mapReturns statement holds)

/-- Statements whose returns pass through checkers are woven from the statements themselves. -/
theorem onStatements_mapReturns : (statements : List Statement) →
    (itself code).OnStatements statements →
      OnStatements code (mapReturnsOfAll change statements) statements
  | [], _ => by
      rw [mapReturnsOfAll]
      exact .nil
  | statement :: rest, holds => by
      rw [Parts.OnStatements] at holds
      rw [mapReturnsOfAll]
      exact .cons (onStatement_mapReturns statement holds.1)
        (onStatements_mapReturns rest holds.2)

end

end

/-- Routing leaves a silent statement as it is. -/
theorem Silent.route_eq
    {statement : Statement} (silent : Silent code statement) (checker : Checker) :
    checker.route statement = statement := by
  cases silent with
  | guard plain =>
      obtain ⟨test, message, rfl, _, _⟩ := plain
      simp [guardClause, Checker.route, Checker.routeAll, Checker.routeAlternate]
  | check => simp [Checker.check, Checker.route]
  | declaration => simp [Checker.declaration, Checker.route]
  | constant => simp [Checker.route]

section

set_option linter.unusedSectionVars false

variable {checker : Checker} (named : code.checker checker.name)

include named

mutual

/-- A woven statement is still woven when its returns are routed through a checker. -/
theorem onStatement_route : {statement other : Statement} →
    OnStatement code statement other → OnStatement code (checker.route statement) other
  | _, _, .evaluate inner => by simpa [Checker.route] using .evaluate inner
  | _, _, .block inner => by
      rw [Checker.route]
      exact .block (onStatements_routeAll inner)
  | _, _, .labeled inner => by
      rw [Checker.route]
      exact .labeled (onStatement_route inner)
  | _, _, .giveBack inner => by
      rw [Checker.route]
      exact .giveBack (.routed named inner)
  | _, _, .branch test consequent alternate => by
      rw [Checker.route]
      exact .branch test (onStatement_route consequent) (onAlternate_route alternate)
  | _, _, .whileLoop test body => by
      rw [Checker.route]
      exact .whileLoop test (onStatement_route body)
  | _, _, .doWhileLoop body test => by
      rw [Checker.route]
      exact .doWhileLoop (onStatement_route body) test
  | _, _, .forLoop init test update body => by
      rw [Checker.route]
      exact .forLoop init test update (onStatement_route body)
  | _, _, .bindings inner => by simpa [Checker.route] using .bindings inner
  | _, _, .declare inner => by simpa [Checker.route] using .declare inner
  | _, _, .raise inner => by simpa [Checker.route] using .raise inner
  | _, _, .breakOut label => by simpa [Checker.route] using .breakOut label
  | _, _, .continueLoop label => by simpa [Checker.route] using .continueLoop label
  | _, _, .empty => by simpa [Checker.route] using .empty

theorem onAlternate_route : {alternate other : Option Statement} →
    OnAlternate code alternate other → OnAlternate code (checker.routeAlternate alternate) other
  | _, _, .none => by
      rw [Checker.routeAlternate]
      exact .none
  | _, _, .some inner => by
      rw [Checker.routeAlternate]
      exact .some (onStatement_route inner)

/-- Woven statements are still woven when their returns are routed through a checker. -/
theorem onStatements_routeAll : {statements others : List Statement} →
    OnStatements code statements others → OnStatements code (checker.routeAll statements) others
  | _, _, .nil => by
      rw [Checker.routeAll]
      exact .nil
  | _, _, .cons first second => by
      rw [Checker.routeAll]
      exact .cons (onStatement_route first) (onStatements_routeAll second)
  | _, _, .silent first second => by
      rw [Checker.routeAll, first.route_eq checker]
      exact .silent first (onStatements_routeAll second)

end

end

theorem onStatements_append
    {first others : List Statement} (before : OnStatements code first others)
    {second rest : List Statement} (after : OnStatements code second rest) :
    OnStatements code (first ++ second) (others ++ rest) := by
  induction first generalizing others with
  | nil =>
      cases before
      exact after
  | cons statement more induction =>
      cases before with
      | cons head tail => exact .cons head (induction tail)
      | silent head tail => exact .silent head (induction tail)

/-- One more statement can be woven after others. -/
theorem OnStatements.concat
    {statements others : List Statement} (woven : OnStatements code statements others)
    {statement other : Statement} (last : OnStatement code statement other) :
    OnStatements code (statements ++ [statement]) (others ++ [other]) :=
  onStatements_append woven (.cons last .nil)

/-- Silent statements can stand before others. -/
theorem OnStatements.precede
    {statements others : List Statement} (woven : OnStatements code statements others)
    {silent : List Statement} (each : ∀ statement ∈ silent, Silent code statement) :
    OnStatements code (silent ++ statements) others := by
  induction silent with
  | nil => exact woven
  | cons statement rest induction =>
      exact .silent (each statement List.mem_cons_self)
        (induction fun other member => each other (List.mem_cons_of_mem _ member))

/-- Silent statements can stand after others. -/
theorem OnStatements.follow
    {statements others : List Statement} (woven : OnStatements code statements others)
    {silent : List Statement} (each : ∀ statement ∈ silent, Silent code statement) :
    OnStatements code (statements ++ silent) others := by
  have last : OnStatements code silent [] := by
    have alone := OnStatements.precede .nil each
    rwa [List.append_nil] at alone
  have whole := onStatements_append woven last
  rwa [List.append_nil] at whole

end Covenant.Woven
