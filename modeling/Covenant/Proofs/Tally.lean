import Mathlib.Algebra.BigOperators.Ring.List
import Mathlib.Algebra.Ring.Nat
import Covenant.Proofs.Survival

/-!
# Counting over statements

A tally counts something over statements, without entering functions: so much
for every expression, branch, return and declaration, and perhaps something
for a labeled statement as a whole.

Tallies may be combined, a collection can be counted, and routing changes a
tally only in its returns.
-/

namespace Covenant

/-- What the parts of statements count for. -/
structure Tally where
  expression : Expression → Nat
  /-- A return with its argument. -/
  returned : Option Expression → Nat
  /-- A choice between statements, its test apart. -/
  branch : Nat
  /-- The variables of a counting loop. -/
  loop : List Declarator → Nat
  declared : DeclarationKind → List Declarator → Nat
  function : Function → Nat
  /-- What a labeled statement counts for as a whole, if it is not looked into. -/
  labeled : String → Statement → Option Nat

namespace Tally

/-- The tally that counts nothing. -/
def zero : Tally where
  expression _ := 0
  returned _ := 0
  branch := 0
  loop _ := 0
  declared _ _ := 0
  function _ := 0
  labeled _ _ := none

/-- The tally of the returns themselves. -/
def returns : Tally :=
  { zero with returned := fun _ => 1 }

/-- The tally of branches. -/
def branches : Tally :=
  { zero with branch := 1 }

/-- The count of an expression that may be missing. -/
def ofOptional (tally : Tally) : Option Expression → Nat
  | none => 0
  | some expression => tally.expression expression

/-- The count of the initial step of a counting loop. -/
def ofLoopInit (tally : Tally) : Option LoopInit → Nat
  | none => 0
  | some (.bindings _ declarators) => tally.loop declarators
  | some (.evaluate expression) => tally.expression expression

mutual

/-- The count of a statement. -/
def ofStatement (tally : Tally) : Statement → Nat
  | .evaluate expression | .raise expression => tally.expression expression
  | .block statements => tally.ofStatements statements
  | .labeled label body => (tally.labeled label body).getD (tally.ofStatement body)
  | .giveBack argument => tally.returned argument
  | .branch test consequent alternate =>
    tally.branch + tally.expression test + tally.ofStatement consequent +
      tally.ofAlternate alternate
  | .whileLoop test body => tally.expression test + tally.ofStatement body
  | .doWhileLoop body test => tally.ofStatement body + tally.expression test
  | .forLoop init test update body =>
    tally.ofLoopInit init + tally.ofOptional test + tally.ofOptional update +
      tally.ofStatement body
  | .bindings kind declarators => tally.declared kind declarators
  | .declare function => tally.function function
  | .breakOut _ | .continueLoop _ | .empty => 0

/-- The count of a statement that may be missing. -/
def ofAlternate (tally : Tally) : Option Statement → Nat
  | none => 0
  | some statement => tally.ofStatement statement

/-- The count of statements. -/
def ofStatements (tally : Tally) : List Statement → Nat
  | [] => 0
  | statement :: rest => tally.ofStatement statement + tally.ofStatements rest

end

@[simp]
theorem ofStatements_append (tally : Tally) (first second : List Statement) :
    tally.ofStatements (first ++ second) =
      tally.ofStatements first + tally.ofStatements second := by
  induction first with
  | nil => simp [ofStatements]
  | cons statement rest induction => simp [ofStatements, induction, Nat.add_assoc]

@[simp]
theorem ofStatements_singleton (tally : Tally) (statement : Statement) :
    tally.ofStatements [statement] = tally.ofStatement statement := by
  simp [ofStatements]

/-- Statements that count for the same each count for it as often as there are statements. -/
theorem ofStatements_of_each {tally : Tally} {statements : List Statement} {each : Nat}
    (same : ∀ statement ∈ statements, tally.ofStatement statement = each) :
    tally.ofStatements statements = each * statements.length := by
  induction statements with
  | nil => rfl
  | cons statement rest induction =>
      rw [ofStatements, same statement List.mem_cons_self,
        induction fun other member => same other (List.mem_cons_of_mem _ member),
        List.length_cons, Nat.mul_add]
      omega

/-- What is left of a statement without its label counts as much as what is inside it. -/
theorem ofStatements_unlabeled (tally : Tally) (label : String) (body : Statement) :
    tally.ofStatements (Statement.labeled label body).unlabeled = tally.ofStatement body := by
  cases body <;> simp [Statement.unlabeled, ofStatement]

/-- A labeled statement that is looked into counts as much as what is inside it. -/
theorem ofStatement_labeled {tally : Tally} {label : String} {body : Statement}
    (enters : tally.labeled label body = none) :
    tally.ofStatement (.labeled label body) = tally.ofStatement body := by
  rw [ofStatement, enters]
  rfl

theorem ofStatement_of_labeled {tally : Tally} {label : String} {body : Statement} {whole : Nat}
    (given : tally.labeled label body = some whole) :
    tally.ofStatement (.labeled label body) = whole := by
  rw [ofStatement, given]
  rfl

/-! ## Combined tallies -/

/-- On parts that meet requirements, a tally is a multiple of one with another one added. -/
structure Combines (parts : Parts) (whole : Tally) (scale : Nat) (first second : Tally) :
    Prop where
  expression {expression : Expression} : parts.expression expression →
    whole.expression expression = scale * first.expression expression + second.expression expression
  returned {argument : Option Expression} : parts.OnOptional argument →
    whole.returned argument = scale * first.returned argument + second.returned argument
  branch : whole.branch = scale * first.branch + second.branch
  loop {declarators : List Declarator} : parts.declared declarators →
    whole.loop declarators = scale * first.loop declarators + second.loop declarators
  declared {kind : DeclarationKind} {declarators : List Declarator} : parts.declared declarators →
    whole.declared kind declarators =
      scale * first.declared kind declarators + second.declared kind declarators
  function {function : Function} : parts.function function →
    whole.function function = scale * first.function function + second.function function
  labeled {label : String} {body : Statement} : parts.OnStatement body →
    whole.ofStatement body = scale * first.ofStatement body + second.ofStatement body →
      whole.ofStatement (.labeled label body) =
        scale * first.ofStatement (.labeled label body) + second.ofStatement (.labeled label body)

section

set_option linter.unusedSectionVars false

variable {parts : Parts} {whole first second : Tally} {scale : Nat}
  (combines : Combines parts whole scale first second)

include combines

theorem ofOptional_combines {expression : Option Expression}
    (holds : parts.OnOptional expression) :
    whole.ofOptional expression =
      scale * first.ofOptional expression + second.ofOptional expression := by
  cases expression with
  | none => rfl
  | some given => exact combines.expression (holds given rfl)

theorem ofLoopInit_combines {init : Option LoopInit} (holds : parts.OnLoopInit init) :
    whole.ofLoopInit init = scale * first.ofLoopInit init + second.ofLoopInit init := by
  rcases init with _ | ⟨_, declarators⟩ | expression
  · rfl
  · exact combines.loop holds
  · exact combines.expression holds

mutual

theorem ofStatement_combines : (statement : Statement) → parts.OnStatement statement →
    whole.ofStatement statement =
      scale * first.ofStatement statement + second.ofStatement statement
  | .evaluate _, holds | .raise _, holds => by
      rw [Parts.OnStatement] at holds
      simp only [ofStatement]
      exact combines.expression holds
  | .block statements, holds => by
      rw [Parts.OnStatement] at holds
      simp only [ofStatement]
      exact ofStatements_combines statements holds
  | .labeled _ body, holds => by
      rw [Parts.OnStatement] at holds
      exact combines.labeled holds (ofStatement_combines body holds)
  | .giveBack _, holds => by
      rw [Parts.OnStatement] at holds
      simp only [ofStatement]
      exact combines.returned holds
  | .branch _ consequent alternate, holds => by
      rw [Parts.OnStatement] at holds
      simp only [ofStatement, combines.branch, combines.expression holds.1,
        ofStatement_combines consequent holds.2.1, ofAlternate_combines alternate holds.2.2,
        Nat.mul_add]
      omega
  | .whileLoop _ body, holds | .doWhileLoop body _, holds => by
      rw [Parts.OnStatement] at holds
      simp only [ofStatement, combines.expression holds.1, ofStatement_combines body holds.2,
        Nat.mul_add]
      omega
  | .forLoop _ _ _ body, holds => by
      rw [Parts.OnStatement] at holds
      simp only [ofStatement, ofLoopInit_combines combines holds.1,
        ofOptional_combines combines holds.2.1, ofOptional_combines combines holds.2.2.1,
        ofStatement_combines body holds.2.2.2, Nat.mul_add]
      omega
  | .bindings _ _, holds => by
      rw [Parts.OnStatement] at holds
      simp only [ofStatement]
      exact combines.declared holds
  | .declare _, holds => by
      rw [Parts.OnStatement] at holds
      simp only [ofStatement]
      exact combines.function holds
  | .breakOut _, _ | .continueLoop _, _ | .empty, _ => by
      simp only [ofStatement, Nat.mul_zero]

theorem ofAlternate_combines : (alternate : Option Statement) → parts.OnAlternate alternate →
    whole.ofAlternate alternate =
      scale * first.ofAlternate alternate + second.ofAlternate alternate
  | none, _ => by simp only [ofAlternate, Nat.mul_zero]
  | some statement, holds => by
      rw [Parts.OnAlternate] at holds
      simp only [ofAlternate]
      exact ofStatement_combines statement holds

/-- What holds of the counts of parts holds of the counts of statements. -/
theorem ofStatements_combines : (statements : List Statement) → parts.OnStatements statements →
    whole.ofStatements statements =
      scale * first.ofStatements statements + second.ofStatements statements
  | [], _ => by simp only [ofStatements, Nat.mul_zero]
  | statement :: rest, holds => by
      rw [Parts.OnStatements] at holds
      simp only [ofStatements, ofStatement_combines statement holds.1,
        ofStatements_combines rest holds.2, Nat.mul_add]
      omega

end

end

/-- The tally that counts nothing is made up of nothing. -/
theorem combines_zero (parts : Parts) : Combines parts zero 1 zero zero where
  expression _ := rfl
  returned _ := rfl
  branch := rfl
  loop _ := rfl
  declared _ := rfl
  function _ := rfl
  labeled _ same := by rwa [ofStatement_labeled rfl]

@[simp]
theorem ofStatements_zero (statements : List Statement) : zero.ofStatements statements = 0 := by
  have twice := ofStatements_combines (combines_zero ⟨fun _ => True, fun _ => True, fun _ => True⟩)
    statements
    (Parts.onStatements_of_all (fun _ => trivial) (fun _ => trivial) (fun _ => trivial) statements)
  omega

/-! ## Counting what is collected -/

/-- The tally of what a collection collects, each element at its worth. -/
def ofCollection {α : Type} (collection : Collection α) (worth : α → Nat) : Tally where
  expression expression := ((collection.expression expression).map worth).sum
  returned argument := ((collection.ofOptional argument).map worth).sum
  branch := 0
  loop declarators := ((collection.declared declarators).map worth).sum
  declared _ declarators := ((collection.declared declarators).map worth).sum
  function function := ((collection.function function).map worth).sum
  labeled label body := (collection.labeled label body).map fun whole => (whole.map worth).sum

section

variable {α : Type} (collection : Collection α) (worth : α → Nat)

theorem ofOptional_ofCollection (expression : Option Expression) :
    (ofCollection collection worth).ofOptional expression =
      ((collection.ofOptional expression).map worth).sum := by
  cases expression <;> rfl

theorem ofLoopInit_ofCollection (init : Option LoopInit) :
    (ofCollection collection worth).ofLoopInit init =
      ((collection.ofLoopInit init).map worth).sum := by
  rcases init with _ | _ | _ <;> rfl

mutual

theorem ofStatement_ofCollection : (statement : Statement) →
    (ofCollection collection worth).ofStatement statement =
      ((collection.ofStatement statement).map worth).sum
  | .evaluate _ | .raise _ | .giveBack _ | .bindings _ _ | .declare _ => by
      rw [ofStatement, Collection.ofStatement]
      rfl
  | .block statements => by
      rw [ofStatement, Collection.ofStatement]
      exact ofStatements_ofCollection statements
  | .labeled label body => by
      rw [ofStatement, Collection.ofStatement, ofStatement_ofCollection body]
      cases given : collection.labeled label body <;> simp [ofCollection, given]
  | .branch test consequent alternate => by
      rw [ofStatement, Collection.ofStatement, ofStatement_ofCollection consequent,
        ofAlternate_ofCollection alternate]
      simp [ofCollection, Nat.add_assoc]
  | .whileLoop _ body | .doWhileLoop body _ => by
      rw [ofStatement, Collection.ofStatement, ofStatement_ofCollection body]
      simp [ofCollection]
  | .forLoop init test update body => by
      rw [ofStatement, Collection.ofStatement, ofStatement_ofCollection body,
        ofLoopInit_ofCollection, ofOptional_ofCollection, ofOptional_ofCollection]
      simp [Nat.add_assoc]
  | .breakOut _ | .continueLoop _ | .empty => by
      rw [ofStatement, Collection.ofStatement]
      rfl

theorem ofAlternate_ofCollection : (alternate : Option Statement) →
    (ofCollection collection worth).ofAlternate alternate =
      ((collection.ofAlternate alternate).map worth).sum
  | none => by
      rw [ofAlternate, Collection.ofAlternate]
      rfl
  | some statement => by
      rw [ofAlternate, Collection.ofAlternate]
      exact ofStatement_ofCollection statement

/-- A collection is counted element by element. -/
theorem ofStatements_ofCollection : (statements : List Statement) →
    (ofCollection collection worth).ofStatements statements =
      ((collection.ofStatements statements).map worth).sum
  | [] => by
      rw [ofStatements, Collection.ofStatements]
      rfl
  | statement :: rest => by
      rw [ofStatements, Collection.ofStatements, ofStatement_ofCollection statement,
        ofStatements_ofCollection rest]
      simp

end

end

/-! ## Trees that differ in their functions -/

/-- Related trees have the same counts. -/
structure Kept (exchange : Exchange) (tally : Tally) : Prop where
  expression {source target : Expression} :
    exchange.OnExpression source target → tally.expression target = tally.expression source
  returned {source target : Option Expression} :
    exchange.OnOptional source target → tally.returned target = tally.returned source
  loop {source target : List Declarator} :
    exchange.OnDeclarators source target → tally.loop target = tally.loop source
  declared {kind : DeclarationKind} {source target : List Declarator} :
    exchange.OnDeclarators source target →
      tally.declared kind target = tally.declared kind source
  function {source target : Function} :
    exchange.function source target → tally.function target = tally.function source
  statement {source target : Statement} :
    exchange.statement source target → tally.ofStatement target = tally.ofStatement source
  labeled (label : String) (body : Statement) : tally.labeled label body = none

section

set_option linter.unusedSectionVars false

variable {exchange : Exchange} {tally : Tally} (kept : Kept exchange tally)

include kept

theorem ofOptional_kept {source target : Option Expression}
    (related : exchange.OnOptional source target) :
    tally.ofOptional target = tally.ofOptional source := by
  cases related with
  | none => rfl
  | some inner => exact kept.expression inner

theorem ofLoopInit_kept {source target : Option LoopInit}
    (related : exchange.OnLoopInit source target) :
    tally.ofLoopInit target = tally.ofLoopInit source := by
  cases related with
  | none => rfl
  | bindings inner => exact kept.loop inner
  | evaluate inner => exact kept.expression inner

mutual

theorem ofStatement_kept {source target : Statement} :
    exchange.OnStatement source target → tally.ofStatement target = tally.ofStatement source
  | .exchanged given => kept.statement given
  | .evaluate inner | .raise inner => by
      rw [ofStatement, ofStatement]
      exact kept.expression inner
  | .block inner => by
      rw [ofStatement, ofStatement]
      exact ofStatements_kept inner
  | .labeled inner => by
      rw [ofStatement_labeled (kept.labeled _ _), ofStatement_labeled (kept.labeled _ _)]
      exact ofStatement_kept inner
  | .giveBack inner => by
      rw [ofStatement, ofStatement]
      exact kept.returned inner
  | .branch test consequent alternate => by
      rw [ofStatement, ofStatement, kept.expression test, ofStatement_kept consequent,
        ofAlternate_kept alternate]
  | .whileLoop test body => by
      rw [ofStatement, ofStatement, kept.expression test, ofStatement_kept body]
  | .doWhileLoop body test => by
      rw [ofStatement, ofStatement, kept.expression test, ofStatement_kept body]
  | .forLoop init test update body => by
      rw [ofStatement, ofStatement, ofLoopInit_kept kept init, ofOptional_kept kept test,
        ofOptional_kept kept update, ofStatement_kept body]
  | .bindings inner => by
      rw [ofStatement, ofStatement]
      exact kept.declared inner
  | .declare inner => by
      rw [ofStatement, ofStatement]
      exact kept.function inner
  | .breakOut _ | .continueLoop _ | .empty => rfl

theorem ofAlternate_kept {source target : Option Statement} :
    exchange.OnAlternate source target → tally.ofAlternate target = tally.ofAlternate source
  | .none => rfl
  | .some inner => by
      rw [ofAlternate, ofAlternate]
      exact ofStatement_kept inner

/-- Related statements have the same counts if related parts have. -/
theorem ofStatements_kept {source target : List Statement} :
    exchange.OnStatements source target → tally.ofStatements target = tally.ofStatements source
  | .nil => rfl
  | .cons head rest => by
      rw [ofStatements, ofStatements, ofStatement_kept head, ofStatements_kept rest]

end

end

/-! ## Routed returns -/

open Contract

mutual

theorem ofStatement_returns : (statement : Statement) →
    returns.ofStatement statement = countReturns statement
  | .block statements => by
      rw [ofStatement, countReturns]
      exact ofStatements_returns statements
  | .labeled _ body => by
      rw [ofStatement_labeled rfl, countReturns]
      exact ofStatement_returns body
  | .branch _ consequent alternate => by
      rw [ofStatement, countReturns, ofStatement_returns consequent, ofAlternate_returns alternate]
      simp [returns, zero]
  | .whileLoop _ body | .doWhileLoop body _ => by
      rw [ofStatement, countReturns, ofStatement_returns body]
      simp [returns, zero]
  | .forLoop init test update body => by
      rw [ofStatement, countReturns, ofStatement_returns body]
      rcases init with _ | _ | _ <;> cases test <;> cases update <;>
        simp [ofLoopInit, ofOptional, returns, zero]
  | .giveBack _ | .evaluate _ | .raise _ | .bindings _ _ | .declare _ | .breakOut _
  | .continueLoop _ | .empty => rfl

theorem ofAlternate_returns : (alternate : Option Statement) →
    returns.ofAlternate alternate = countReturnsOfAlternate alternate
  | none => rfl
  | some statement => by
      rw [ofAlternate, countReturnsOfAlternate]
      exact ofStatement_returns statement

/-- The tally of returns gives their number. -/
theorem ofStatements_returns : (statements : List Statement) →
    returns.ofStatements statements = countReturnsOfAll statements
  | [] => rfl
  | statement :: rest => by
      rw [ofStatements, countReturnsOfAll, ofStatement_returns statement,
        ofStatements_returns rest]

end

/-- Routing through a checker makes every return that another tally counts worth more. -/
structure Routed (checker : Checker) (worth : Nat) (tally counted : Tally) : Prop where
  returned (argument : Option Expression) :
    tally.returned (some (checker.call (some (argument.getD (.literal .undefined))))) =
      tally.returned argument + worth * counted.returned argument
  expression (expression : Expression) : counted.expression expression = 0
  branch : counted.branch = 0
  loop (declarators : List Declarator) : counted.loop declarators = 0
  declared (kind : DeclarationKind) (declarators : List Declarator) :
    counted.declared kind declarators = 0
  function (function : Function) : counted.function function = 0
  labeled (label : String) (body : Statement) :
    tally.ofStatement (checker.route body) =
        tally.ofStatement body + worth * counted.ofStatement body →
      tally.ofStatement (.labeled label (checker.route body)) =
        tally.ofStatement (.labeled label body) + worth * counted.ofStatement (.labeled label body)

section

set_option linter.unusedSectionVars false

variable {checker : Checker} {worth : Nat} {tally counted : Tally}
  (routed : Routed checker worth tally counted)

include routed

theorem ofOptional_routed (expression : Option Expression) :
    counted.ofOptional expression = 0 := by
  cases expression with
  | none => rfl
  | some expression => exact routed.expression expression

theorem ofLoopInit_routed (init : Option LoopInit) : counted.ofLoopInit init = 0 := by
  rcases init with _ | ⟨_, declarators⟩ | expression
  · rfl
  · exact routed.loop declarators
  · exact routed.expression expression

mutual

theorem ofStatement_route : (statement : Statement) →
    tally.ofStatement (checker.route statement) =
      tally.ofStatement statement + worth * counted.ofStatement statement
  | .giveBack argument => by
      rw [Checker.route, ofStatement, ofStatement, ofStatement]
      exact routed.returned argument
  | .block statements => by
      rw [Checker.route, ofStatement, ofStatement, ofStatement]
      exact ofStatements_routeAll statements
  | .labeled label body => by
      rw [Checker.route]
      exact routed.labeled label body (ofStatement_route body)
  | .branch test consequent alternate => by
      simp only [Checker.route, ofStatement, ofStatement_route consequent,
        ofAlternate_route alternate, routed.branch, routed.expression, Nat.mul_add]
      omega
  | .whileLoop test body | .doWhileLoop body test => by
      simp only [Checker.route, ofStatement, ofStatement_route body, routed.expression,
        Nat.mul_add]
      omega
  | .forLoop init test update body => by
      simp only [Checker.route, ofStatement, ofStatement_route body, ofLoopInit_routed routed,
        ofOptional_routed routed, Nat.mul_add]
      omega
  | .evaluate _ | .raise _ | .bindings _ _ | .declare _ | .breakOut _ | .continueLoop _
  | .empty => by
      simp only [Checker.route, ofStatement, routed.expression, routed.declared,
        routed.function, Nat.mul_zero, Nat.add_zero]

theorem ofAlternate_route : (alternate : Option Statement) →
    tally.ofAlternate (checker.routeAlternate alternate) =
      tally.ofAlternate alternate + worth * counted.ofAlternate alternate
  | none => by simp only [Checker.routeAlternate, ofAlternate, Nat.mul_zero]
  | some statement => by
      rw [Checker.routeAlternate, ofAlternate, ofAlternate, ofAlternate]
      exact ofStatement_route statement

/-- Routed statements count as much more as their returns are worth. -/
theorem ofStatements_routeAll : (statements : List Statement) →
    tally.ofStatements (checker.routeAll statements) =
      tally.ofStatements statements + worth * counted.ofStatements statements
  | [] => by simp only [Checker.routeAll, ofStatements, Nat.mul_zero]
  | statement :: rest => by
      simp only [Checker.routeAll, ofStatements, ofStatement_route statement,
        ofStatements_routeAll rest, Nat.mul_add]
      omega

end

end

end Tally

end Covenant
