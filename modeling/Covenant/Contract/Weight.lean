import Covenant.Contract.Checker

/-!
# The weight of statements

How many statements a statement consists of, functions not entered.  A walk
over statements that removes labels and splices their bodies makes progress
by this measure: routing returns through a checker leaves it unchanged, and a
label weighs more than the one check that may be added when it is removed.
-/

namespace Covenant.Contract

mutual

/-- The number of statements in a statement, itself included. -/
def weight : Statement → Nat
  | .block statements => weightOfAll statements + 1
  | .labeled _ body => weight body + 1
  | .branch _ consequent alternate => weight consequent + weightOfAlternate alternate + 1
  | .whileLoop _ body | .doWhileLoop body _ | .forLoop _ _ _ body => weight body + 1
  | _ => 1

/-- The weight of a statement that may be missing. -/
def weightOfAlternate : Option Statement → Nat
  | none => 0
  | some statement => weight statement

/-- The weight of statements in turn. -/
def weightOfAll : List Statement → Nat
  | [] => 0
  | statement :: rest => weight statement + weightOfAll rest

end

theorem weight_pos (statement : Statement) : 0 < weight statement := by
  cases statement <;> simp [weight]

theorem weightOfAll_append (first second : List Statement) :
    weightOfAll (first ++ second) = weightOfAll first + weightOfAll second := by
  induction first with
  | nil => simp [weightOfAll]
  | cons statement rest hypothesis => simp [weightOfAll, hypothesis, Nat.add_assoc]

/-- What is left of a labeled statement without its label weighs less. -/
theorem weightOfAll_unlabeled_lt (label : String) (body : Statement) :
    weightOfAll (Statement.labeled label body).unlabeled < weight (.labeled label body) := by
  cases body with
  | block statements =>
    simp only [Statement.unlabeled, weight]
    omega
  | _ => simp [Statement.unlabeled, weight, weightOfAll]

mutual

/-- Routing keeps the weight of a statement. -/
theorem weight_route (checker : Checker) : (statement : Statement) →
    weight (checker.route statement) = weight statement
  | .block statements => by
    simp [Checker.route, weight, weightOfAll_routeAll checker statements]
  | .labeled _ body => by simp [Checker.route, weight, weight_route checker body]
  | .branch _ consequent alternate => by
    simp [Checker.route, weight, weight_route checker consequent,
      weightOfAlternate_route checker alternate]
  | .whileLoop _ body => by simp [Checker.route, weight, weight_route checker body]
  | .doWhileLoop body _ => by simp [Checker.route, weight, weight_route checker body]
  | .forLoop _ _ _ body => by simp [Checker.route, weight, weight_route checker body]
  | .evaluate _ => by simp [Checker.route]
  | .giveBack _ => by simp [Checker.route, weight]
  | .bindings _ _ => by simp [Checker.route]
  | .declare _ => by simp [Checker.route]
  | .raise _ => by simp [Checker.route]
  | .breakOut _ => by simp [Checker.route]
  | .continueLoop _ => by simp [Checker.route]
  | .empty => by simp [Checker.route]

/-- Routing keeps the weight of a statement that may be missing. -/
theorem weightOfAlternate_route (checker : Checker) : (alternate : Option Statement) →
    weightOfAlternate (checker.routeAlternate alternate) = weightOfAlternate alternate
  | none => by simp [Checker.routeAlternate]
  | some statement => by
    simp [Checker.routeAlternate, weightOfAlternate, weight_route checker statement]

/-- Routing keeps the weight of statements. -/
theorem weightOfAll_routeAll (checker : Checker) : (statements : List Statement) →
    weightOfAll (checker.routeAll statements) = weightOfAll statements
  | [] => by simp [Checker.routeAll]
  | statement :: rest => by
    simp [Checker.routeAll, weightOfAll, weight_route checker statement,
      weightOfAll_routeAll checker rest]

end

/-- The check at the end of statements weighs at most one. -/
theorem weightOfAll_exitCheck_le (checker : Checker) (statements : List Statement) :
    weightOfAll (checker.exitCheck statements) ≤ 1 := by
  unfold Checker.exitCheck
  split <;> simp [weightOfAll, weight, Checker.check]

end Covenant.Contract
