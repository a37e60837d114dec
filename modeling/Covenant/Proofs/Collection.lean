import Mathlib.Data.List.Forall2
import Covenant.Contract.Checker
import Covenant.Proofs.Exchange
import Covenant.Proofs.Parts

/-!
# Collecting parts of statements

What is collected from statements, in source order and without entering
functions: something for every expression, declared function and declaration
of variables, and perhaps something for a labeled statement as a whole.

Routing changes a collection only in what it collects, and related statements
have related collections.
-/

namespace Covenant

/-- What is collected from statements outside functions. -/
structure Collection (α : Type) where
  expression : Expression → List α
  function : Function → List α
  declared : List Declarator → List α
  /-- What a labeled statement gives as a whole, if it is not looked into. -/
  labeled : String → Statement → Option (List α)

namespace Collection

variable {α β : Type}

/-- What is collected from an expression that may be missing. -/
def ofOptional (collection : Collection α) : Option Expression → List α
  | none => []
  | some expression => collection.expression expression

/-- What is collected from the initial step of a counting loop. -/
def ofLoopInit (collection : Collection α) : Option LoopInit → List α
  | none => []
  | some (.bindings _ declarators) => collection.declared declarators
  | some (.evaluate expression) => collection.expression expression

mutual

/-- What is collected from a statement. -/
def ofStatement (collection : Collection α) : Statement → List α
  | .evaluate expression | .raise expression => collection.expression expression
  | .block statements => collection.ofStatements statements
  | .labeled label body =>
    match collection.labeled label body with
    | some whole => whole
    | none => collection.ofStatement body
  | .giveBack argument => collection.ofOptional argument
  | .branch test consequent alternate =>
    collection.expression test ++ collection.ofStatement consequent ++
      collection.ofAlternate alternate
  | .whileLoop test body => collection.expression test ++ collection.ofStatement body
  | .doWhileLoop body test => collection.ofStatement body ++ collection.expression test
  | .forLoop init test update body =>
    collection.ofLoopInit init ++ collection.ofOptional test ++ collection.ofOptional update ++
      collection.ofStatement body
  | .bindings _ declarators => collection.declared declarators
  | .declare function => collection.function function
  | .breakOut _ | .continueLoop _ | .empty => []

/-- What is collected from a statement that may be missing. -/
def ofAlternate (collection : Collection α) : Option Statement → List α
  | none => []
  | some statement => collection.ofStatement statement

/-- What is collected from statements in turn. -/
def ofStatements (collection : Collection α) : List Statement → List α
  | [] => []
  | statement :: rest => collection.ofStatement statement ++ collection.ofStatements rest

end

/-- What is collected from the body of a function. -/
def ofBody (collection : Collection α) : FunctionBody → List α
  | .block statements => collection.ofStatements statements
  | .result expression => collection.expression expression

theorem ofStatements_append (collection : Collection α) (first second : List Statement) :
    collection.ofStatements (first ++ second) =
      collection.ofStatements first ++ collection.ofStatements second := by
  induction first with
  | nil => simp [ofStatements]
  | cons statement rest induction => simp [ofStatements, induction]

theorem ofStatements_singleton (collection : Collection α) (statement : Statement) :
    collection.ofStatements [statement] = collection.ofStatement statement := by
  simp [ofStatements]

/-- Nothing is collected from statements if nothing is from any of them. -/
theorem ofStatements_eq_nil
    {collection : Collection α} {statements : List Statement}
    (each : ∀ statement ∈ statements, collection.ofStatement statement = []) :
    collection.ofStatements statements = [] := by
  induction statements with
  | nil => rw [ofStatements]
  | cons statement rest induction =>
      rw [ofStatements, each statement List.mem_cons_self,
        induction fun other member => each other (List.mem_cons_of_mem _ member),
        List.append_nil]

/-- What is left of a statement without its label gives what is collected inside it. -/
theorem ofStatements_unlabeled (collection : Collection α) (label : String) (body : Statement) :
    collection.ofStatements (Statement.labeled label body).unlabeled =
      collection.ofStatement body := by
  cases body <;> simp [Statement.unlabeled, ofStatement, ofStatements]

/-- Requirements on the parts of statements hold of what is collected from the parts. -/
structure Meets (collection : Collection α) (parts : Parts) (property : α → Prop) : Prop where
  expression {expression : Expression} :
    parts.expression expression → ∀ element ∈ collection.expression expression, property element
  function {function : Function} :
    parts.function function → ∀ element ∈ collection.function function, property element
  declared {declarators : List Declarator} :
    parts.declared declarators → ∀ element ∈ collection.declared declarators, property element
  labeled {label : String} {body : Statement} {whole : List α} :
    parts.OnStatement body → collection.labeled label body = some whole →
      ∀ element ∈ whole, property element

section

set_option linter.unusedSectionVars false

variable {collection : Collection α} {parts : Parts} {property : α → Prop}
  (meets : collection.Meets parts property)

include meets

theorem forall_ofOptional {expression : Option Expression} (holds : parts.OnOptional expression) :
    ∀ element ∈ collection.ofOptional expression, property element := by
  cases expression with
  | none =>
      intro element member
      cases member
  | some expression => exact meets.expression (holds expression rfl)

theorem forall_ofLoopInit {init : Option LoopInit} (holds : parts.OnLoopInit init) :
    ∀ element ∈ collection.ofLoopInit init, property element := by
  cases init with
  | none =>
      intro element member
      cases member
  | some init =>
      cases init with
      | bindings kind declarators => exact meets.declared holds
      | evaluate expression => exact meets.expression holds

mutual

/-- What is collected from a statement has a property if its parts meet the requirements. -/
theorem forall_ofStatement : (statement : Statement) → parts.OnStatement statement →
    ∀ element ∈ collection.ofStatement statement, property element
  | .evaluate _, holds, element, member | .raise _, holds, element, member => by
      rw [Parts.OnStatement] at holds
      rw [ofStatement] at member
      exact meets.expression holds element member
  | .block statements, holds, element, member => by
      rw [Parts.OnStatement] at holds
      rw [ofStatement] at member
      exact forall_ofStatements statements holds element member
  | .labeled label body, holds, element, member => by
      rw [Parts.OnStatement] at holds
      rw [ofStatement] at member
      cases whole : collection.labeled label body with
      | some given =>
          rw [whole] at member
          exact meets.labeled holds whole element member
      | none =>
          rw [whole] at member
          exact forall_ofStatement body holds element member
  | .giveBack _, holds, element, member => by
      rw [Parts.OnStatement] at holds
      rw [ofStatement] at member
      exact forall_ofOptional meets holds element member
  | .branch _ consequent alternate, holds, element, member => by
      rw [Parts.OnStatement] at holds
      rw [ofStatement, List.mem_append, List.mem_append] at member
      rcases member with (inTest | inConsequent) | inAlternate
      · exact meets.expression holds.1 element inTest
      · exact forall_ofStatement consequent holds.2.1 element inConsequent
      · exact forall_ofAlternate alternate holds.2.2 element inAlternate
  | .whileLoop _ body, holds, element, member => by
      rw [Parts.OnStatement] at holds
      rw [ofStatement, List.mem_append] at member
      rcases member with inTest | inBody
      · exact meets.expression holds.1 element inTest
      · exact forall_ofStatement body holds.2 element inBody
  | .doWhileLoop body _, holds, element, member => by
      rw [Parts.OnStatement] at holds
      rw [ofStatement, List.mem_append] at member
      rcases member with inBody | inTest
      · exact forall_ofStatement body holds.2 element inBody
      · exact meets.expression holds.1 element inTest
  | .forLoop _ _ _ body, holds, element, member => by
      rw [Parts.OnStatement] at holds
      rw [ofStatement, List.mem_append, List.mem_append, List.mem_append] at member
      rcases member with ((inInit | inTest) | inUpdate) | inBody
      · exact forall_ofLoopInit meets holds.1 element inInit
      · exact forall_ofOptional meets holds.2.1 element inTest
      · exact forall_ofOptional meets holds.2.2.1 element inUpdate
      · exact forall_ofStatement body holds.2.2.2 element inBody
  | .bindings _ _, holds, element, member => by
      rw [Parts.OnStatement] at holds
      rw [ofStatement] at member
      exact meets.declared holds element member
  | .declare _, holds, element, member => by
      rw [Parts.OnStatement] at holds
      rw [ofStatement] at member
      exact meets.function holds element member
  | .breakOut _, _, element, member | .continueLoop _, _, element, member
  | .empty, _, element, member => by
      rw [ofStatement] at member
      cases member

theorem forall_ofAlternate : (alternate : Option Statement) → parts.OnAlternate alternate →
    ∀ element ∈ collection.ofAlternate alternate, property element
  | none, _, element, member => by
      rw [ofAlternate] at member
      cases member
  | some statement, holds, element, member => by
      rw [Parts.OnAlternate] at holds
      rw [ofAlternate] at member
      exact forall_ofStatement statement holds element member

/-- What is collected from statements has a property if their parts meet the requirements. -/
theorem forall_ofStatements : (statements : List Statement) → parts.OnStatements statements →
    ∀ element ∈ collection.ofStatements statements, property element
  | [], _, element, member => by
      rw [ofStatements] at member
      cases member
  | statement :: rest, holds, element, member => by
      rw [Parts.OnStatements] at holds
      rw [ofStatements, List.mem_append] at member
      rcases member with inFirst | inRest
      · exact forall_ofStatement statement holds.1 element inFirst
      · exact forall_ofStatements rest holds.2 element inRest

end

end

/-- Parts meet further requirements if something holds of all that is collected from them. -/
structure Completes (collection : Collection α) (parts : Parts) (property : α → Prop)
    (further : Parts) : Prop where
  expression {expression : Expression} :
    parts.expression expression → (∀ element ∈ collection.expression expression, property element) →
      further.expression expression
  function {function : Function} :
    parts.function function → (∀ element ∈ collection.function function, property element) →
      further.function function
  declared {declarators : List Declarator} :
    parts.declared declarators → (∀ element ∈ collection.declared declarators, property element) →
      further.declared declarators
  labeled (label : String) (body : Statement) : collection.labeled label body = none

section

set_option linter.unusedSectionVars false

variable {collection : Collection α} {parts further : Parts} {property : α → Prop}
  (completes : collection.Completes parts property further)

include completes

theorem completeOptional {expression : Option Expression} (holds : parts.OnOptional expression)
    (each : ∀ element ∈ collection.ofOptional expression, property element) :
    further.OnOptional expression := by
  intro given equal
  cases equal
  exact completes.expression (holds given rfl) each

theorem completeLoopInit : {init : Option LoopInit} → parts.OnLoopInit init →
    (∀ element ∈ collection.ofLoopInit init, property element) → further.OnLoopInit init
  | none, _, _ => trivial
  | some (.bindings _ _), holds, each => completes.declared holds each
  | some (.evaluate _), holds, each => completes.expression holds each

mutual

/-- A statement meets further requirements if something holds of all that is collected from it. -/
theorem completeStatement : (statement : Statement) → parts.OnStatement statement →
    (∀ element ∈ collection.ofStatement statement, property element) →
      further.OnStatement statement
  | .evaluate _, holds, each | .raise _, holds, each => by
      rw [Parts.OnStatement] at holds ⊢
      rw [ofStatement] at each
      exact completes.expression holds each
  | .block statements, holds, each => by
      rw [Parts.OnStatement] at holds ⊢
      rw [ofStatement] at each
      exact completeStatements statements holds each
  | .labeled label body, holds, each => by
      rw [Parts.OnStatement] at holds ⊢
      rw [ofStatement, completes.labeled] at each
      exact completeStatement body holds each
  | .giveBack _, holds, each => by
      rw [Parts.OnStatement] at holds ⊢
      rw [ofStatement] at each
      exact completeOptional completes holds each
  | .branch _ consequent alternate, holds, each => by
      rw [Parts.OnStatement] at holds ⊢
      simp only [ofStatement, List.forall_mem_append] at each
      exact ⟨completes.expression holds.1 each.1.1,
        completeStatement consequent holds.2.1 each.1.2,
        completeAlternate alternate holds.2.2 each.2⟩
  | .whileLoop _ body, holds, each => by
      rw [Parts.OnStatement] at holds ⊢
      simp only [ofStatement, List.forall_mem_append] at each
      exact ⟨completes.expression holds.1 each.1, completeStatement body holds.2 each.2⟩
  | .doWhileLoop body _, holds, each => by
      rw [Parts.OnStatement] at holds ⊢
      simp only [ofStatement, List.forall_mem_append] at each
      exact ⟨completes.expression holds.1 each.2, completeStatement body holds.2 each.1⟩
  | .forLoop _ _ _ body, holds, each => by
      rw [Parts.OnStatement] at holds ⊢
      simp only [ofStatement, List.forall_mem_append] at each
      exact ⟨completeLoopInit completes holds.1 each.1.1.1,
        completeOptional completes holds.2.1 each.1.1.2,
        completeOptional completes holds.2.2.1 each.1.2,
        completeStatement body holds.2.2.2 each.2⟩
  | .bindings _ _, holds, each => by
      rw [Parts.OnStatement] at holds ⊢
      rw [ofStatement] at each
      exact completes.declared holds each
  | .declare _, holds, each => by
      rw [Parts.OnStatement] at holds ⊢
      rw [ofStatement] at each
      exact completes.function holds each
  | .breakOut _, _, _ | .continueLoop _, _, _ | .empty, _, _ => by
      rw [Parts.OnStatement]
      trivial

theorem completeAlternate : (alternate : Option Statement) → parts.OnAlternate alternate →
    (∀ element ∈ collection.ofAlternate alternate, property element) →
      further.OnAlternate alternate
  | none, _, _ => by
      rw [Parts.OnAlternate]
      trivial
  | some statement, holds, each => by
      rw [Parts.OnAlternate] at holds ⊢
      rw [ofAlternate] at each
      exact completeStatement statement holds each

/-- Statements meet further requirements if something holds of all that is collected from them. -/
theorem completeStatements : (statements : List Statement) → parts.OnStatements statements →
    (∀ element ∈ collection.ofStatements statements, property element) →
      further.OnStatements statements
  | [], _, _ => by
      rw [Parts.OnStatements]
      trivial
  | statement :: rest, holds, each => by
      rw [Parts.OnStatements] at holds ⊢
      simp only [ofStatements, List.forall_mem_append] at each
      exact ⟨completeStatement statement holds.1 each.1, completeStatements rest holds.2 each.2⟩

end

end

open Contract in
/-- Routing through a checker changes what is collected, and nothing but that. -/
structure Routes (collection : Collection α) (checker : Checker) (change : α → α) : Prop where
  expression (expression : Expression) :
    (collection.expression expression).map change = collection.expression expression
  argument (argument : Expression) :
    collection.expression (checker.call (some argument)) = collection.expression argument
  bare : collection.expression (.literal .undefined) = []
  check : collection.expression (checker.call none) = []
  function (function : Function) :
    (collection.function function).map change = collection.function function
  declared (declarators : List Declarator) :
    (collection.declared declarators).map change = collection.declared declarators
  labeled (label : String) (body : Statement) :
    collection.labeled label (checker.route body) =
      (collection.labeled label body).map (List.map change)

section

set_option linter.unusedSectionVars false

open Contract

variable {collection : Collection α} {checker : Checker} {change : α → α}
  (routes : collection.Routes checker change)

include routes

theorem map_ofOptional (expression : Option Expression) :
    (collection.ofOptional expression).map change = collection.ofOptional expression := by
  cases expression with
  | none => rfl
  | some expression => exact routes.expression expression

theorem map_ofLoopInit (init : Option LoopInit) :
    (collection.ofLoopInit init).map change = collection.ofLoopInit init := by
  cases init with
  | none => rfl
  | some init =>
      cases init with
      | bindings kind declarators => exact routes.declared declarators
      | evaluate expression => exact routes.expression expression

mutual

/-- From a routed statement the same is collected, but for the change. -/
theorem ofStatement_route : (statement : Statement) →
    collection.ofStatement (checker.route statement) =
      (collection.ofStatement statement).map change
  | .giveBack argument => by
      rw [Checker.route, ofStatement, ofStatement, map_ofOptional routes, ofOptional,
        routes.argument]
      cases argument with
      | none => exact routes.bare
      | some argument => rfl
  | .block statements => by
      rw [Checker.route, ofStatement, ofStatement]
      exact ofStatements_routeAll statements
  | .labeled label body => by
      rw [Checker.route, ofStatement, ofStatement, routes.labeled]
      cases collection.labeled label body with
      | none => exact ofStatement_route body
      | some whole => rfl
  | .branch test consequent alternate => by
      rw [Checker.route, ofStatement, ofStatement, List.map_append, List.map_append,
        routes.expression, ofStatement_route consequent, ofAlternate_route alternate]
  | .whileLoop test body => by
      rw [Checker.route, ofStatement, ofStatement, List.map_append, routes.expression,
        ofStatement_route body]
  | .doWhileLoop body test => by
      rw [Checker.route, ofStatement, ofStatement, List.map_append, routes.expression,
        ofStatement_route body]
  | .forLoop init test update body => by
      rw [Checker.route, ofStatement, ofStatement, List.map_append, List.map_append,
        List.map_append, map_ofLoopInit routes, map_ofOptional routes, map_ofOptional routes,
        ofStatement_route body]
  | .evaluate expression | .raise expression => by
      rw [Checker.route, ofStatement]
      · exact (routes.expression expression).symm
      all_goals intros; contradiction
  | .bindings _ declarators => by
      rw [Checker.route, ofStatement]
      · exact (routes.declared declarators).symm
      all_goals intros; contradiction
  | .declare function => by
      rw [Checker.route, ofStatement]
      · exact (routes.function function).symm
      all_goals intros; contradiction
  | .breakOut _ | .continueLoop _ | .empty => by
      rw [Checker.route, ofStatement]
      · rfl
      all_goals intros; contradiction

theorem ofAlternate_route : (alternate : Option Statement) →
    collection.ofAlternate (checker.routeAlternate alternate) =
      (collection.ofAlternate alternate).map change
  | none => by
      rw [Checker.routeAlternate, ofAlternate]
      rfl
  | some statement => by
      rw [Checker.routeAlternate, ofAlternate, ofAlternate]
      exact ofStatement_route statement

/-- From routed statements the same is collected, but for the change. -/
theorem ofStatements_routeAll : (statements : List Statement) →
    collection.ofStatements (checker.routeAll statements) =
      (collection.ofStatements statements).map change
  | [] => by
      rw [Checker.routeAll, ofStatements]
      rfl
  | statement :: rest => by
      rw [Checker.routeAll, ofStatements, ofStatements, List.map_append,
        ofStatement_route statement, ofStatements_routeAll rest]

end

/-- Nothing is collected from the check at the end of statements. -/
theorem ofStatements_exitCheck (statements : List Statement) :
    collection.ofStatements (checker.exitCheck statements) = [] := by
  unfold Checker.exitCheck
  split
  · rw [ofStatements]
  · rw [ofStatements_singleton, Checker.check, ofStatement, routes.check]

end

/-- An exchange relates what is collected to what is collected afterwards. -/
structure Carried (exchange : Exchange) (collection : Collection α) (other : Collection β)
    (related : α → β → Prop) : Prop where
  expression {source target : Expression} :
    exchange.OnExpression source target →
      List.Forall₂ related (collection.expression source) (other.expression target)
  function {source target : Function} :
    exchange.function source target →
      List.Forall₂ related (collection.function source) (other.function target)
  declared {source target : List Declarator} :
    exchange.OnDeclarators source target →
      List.Forall₂ related (collection.declared source) (other.declared target)
  statement {source target : Statement} :
    exchange.statement source target →
      List.Forall₂ related (collection.ofStatement source) (other.ofStatement target)
  labeled (label : String) (body : Statement) :
    collection.labeled label body = none ∧ other.labeled label body = none

section

set_option linter.unusedSectionVars false

variable {exchange : Exchange} {collection : Collection α} {other : Collection β}
  {related : α → β → Prop} (carried : Carried exchange collection other related)

include carried

theorem forall₂_ofOptional {source target : Option Expression}
    (given : exchange.OnOptional source target) :
    List.Forall₂ related (collection.ofOptional source) (other.ofOptional target) := by
  cases given with
  | none => exact .nil
  | some inner => exact carried.expression inner

theorem forall₂_ofLoopInit {source target : Option LoopInit} :
    exchange.OnLoopInit source target →
      List.Forall₂ related (collection.ofLoopInit source) (other.ofLoopInit target)
  | .none => .nil
  | .bindings inner => carried.declared inner
  | .evaluate inner => carried.expression inner

mutual

/-- Related statements have related collections. -/
theorem forall₂_ofStatement {source target : Statement} :
    exchange.OnStatement source target →
      List.Forall₂ related (collection.ofStatement source) (other.ofStatement target)
  | .exchanged given => carried.statement given
  | .evaluate inner | .raise inner => by
      rw [ofStatement, ofStatement]
      exact carried.expression inner
  | .block inner => by
      rw [ofStatement, ofStatement]
      exact forall₂_ofStatements inner
  | @Exchange.OnStatement.labeled _ label body result inner => by
      rw [ofStatement, ofStatement, (carried.labeled label body).1,
        (carried.labeled label result).2]
      exact forall₂_ofStatement inner
  | .giveBack inner => by
      rw [ofStatement, ofStatement]
      exact forall₂_ofOptional carried inner
  | .branch test consequent alternate => by
      rw [ofStatement, ofStatement]
      exact List.rel_append
        (List.rel_append (carried.expression test) (forall₂_ofStatement consequent))
        (forall₂_ofAlternate alternate)
  | .whileLoop test body => by
      rw [ofStatement, ofStatement]
      exact List.rel_append (carried.expression test) (forall₂_ofStatement body)
  | .doWhileLoop body test => by
      rw [ofStatement, ofStatement]
      exact List.rel_append (forall₂_ofStatement body) (carried.expression test)
  | .forLoop init test update body => by
      rw [ofStatement, ofStatement]
      exact List.rel_append
        (List.rel_append
          (List.rel_append (forall₂_ofLoopInit carried init) (forall₂_ofOptional carried test))
          (forall₂_ofOptional carried update))
        (forall₂_ofStatement body)
  | .bindings inner => by
      rw [ofStatement, ofStatement]
      exact carried.declared inner
  | .declare inner => by
      rw [ofStatement, ofStatement]
      exact carried.function inner
  | .breakOut _ | .continueLoop _ | .empty => by
      rw [ofStatement, ofStatement]
      exact .nil

theorem forall₂_ofAlternate {source target : Option Statement} :
    exchange.OnAlternate source target →
      List.Forall₂ related (collection.ofAlternate source) (other.ofAlternate target)
  | .none => by
      rw [ofAlternate, ofAlternate]
      exact .nil
  | .some inner => by
      rw [ofAlternate, ofAlternate]
      exact forall₂_ofStatement inner

/-- Related lists of statements have related collections. -/
theorem forall₂_ofStatements {source target : List Statement} :
    exchange.OnStatements source target →
      List.Forall₂ related (collection.ofStatements source) (other.ofStatements target)
  | .nil => by
      rw [ofStatements, ofStatements]
      exact .nil
  | .cons head rest => by
      rw [ofStatements, ofStatements]
      exact List.rel_append (forall₂_ofStatement head) (forall₂_ofStatements rest)

end

end

end Collection

end Covenant
