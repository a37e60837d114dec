import Covenant.Proofs.Tally

/-!
# Returns that are routed and removed

What a walk leaves of some statements counts as much as those statements
without their contracts and without code for other environments.

An invariant routes the returns behind it before the walk has come to them.  If
such a return stands in code for another environment, its routing is undone
when that code is removed.
-/

namespace Covenant

open Contract

/-! ## What is left by a walk -/

section

variable (settings : Settings) (place : Place)

/-- The count of what a walk leaves of statements that it looks at. -/
def Tally.left (tally : Tally) : Tally :=
  { tally with
    labeled := fun label body =>
      match settings.roleOf label with
      | .contract kind => some (if place.ignores kind then tally.ofStatement body else 0)
      | .environment => if settings.actionFor label = .remove then some 0 else none
      | .other => none }

/-- The returns that a walk removes along with contracts and environments. -/
def Tally.removed : Tally :=
  { Tally.zero with
    labeled := fun label body =>
      match settings.roleOf label with
      | .contract kind => some (if place.ignores kind then 0 else countReturns body)
      | .environment =>
        if settings.actionFor label = .remove then some (countReturns body) else none
      | .other => none }

mutual

/--
How often the routing of a return through an invariant is undone, if so many
returns are removed from what stands behind a statement in its list.
-/
def undone (behind : Nat) : Statement → Nat
  | .labeled label body =>
    match settings.roleOf label with
    | .contract kind =>
      if kind = .invariant ∧ place.ignores kind = false ∧ settings.stripsContracts = false then
        behind
      else 0
    | .environment =>
      match settings.actionFor label with
      | .keep => undone 0 body
      | .remove => 0
      | .inline =>
        match body with
        | .block statements => undoneOfAll behind statements
        | body => undone behind body
    | .other => undone 0 body
  | .block statements => undoneOfAll 0 statements
  | .branch _ consequent alternate => undone 0 consequent + undoneOfAlternate alternate
  | .whileLoop _ body | .doWhileLoop body _ | .forLoop _ _ _ body => undone 0 body
  | _ => 0

/-- The same for a statement that may be missing. -/
def undoneOfAlternate : Option Statement → Nat
  | none => 0
  | some statement => undone 0 statement

/-- The same for the statements of a list, from which further ones may stand behind them. -/
def undoneOfAll (behind : Nat) : List Statement → Nat
  | [] => 0
  | statement :: rest =>
    undone ((Tally.removed settings place).ofStatements rest + behind) statement +
      undoneOfAll behind rest

end

/-- What is counted in a function and in the functions nested in it that are left. -/
def throughout (names : List String) (own : Place → List Statement → Nat) : Nat → Function → Nat
  | 0, _ => 0
  | fuel + 1, function =>
    match function.body with
    | .block statements =>
      own (.function function.name) statements +
        (((survivors settings (.function function.name) names).ofStatements statements).map
          (throughout names own fuel)).sum
    | .result expression =>
      ((functionsOf (expression.nodes false)).map (throughout names own fuel)).sum

end

namespace Program

variable (settings : Settings) (program : Program)

/-- What is counted in the statements of a program and in the functions that are left. -/
def throughout (own : Place → List Statement → Nat) : Nat :=
  own .topLevel program.statements +
    (((survivors settings .topLevel program.allNames).ofStatements program.statements).map
      (Covenant.throughout settings program.allNames own program.functions.length)).sum

/-- How many branches of a program stand neither in contracts nor in code that is removed. -/
def branchesLeft : Nat :=
  program.throughout settings fun place =>
    (Tally.left settings place Tally.branches).ofStatements

/-- How often the routing of a return is undone when code for another environment is removed. -/
def routingsUndone : Nat :=
  program.throughout settings fun place => undoneOfAll settings place 0

end Program

/-! ## Labels -/

section

variable {settings : Settings} {place : Place} {label : String}

/-- A label states a contract, or its code is removed, or its code stays. -/
theorem Contract.Settings.role_cases (settings : Settings) (label : String) :
    (∃ kind, settings.roleOf label = .contract kind) ∨
      (settings.roleOf label = .environment ∧ settings.actionFor label = .remove) ∨
        (settings.roleOf label = .other ∨
          settings.roleOf label = .environment ∧ settings.actionFor label ≠ .remove) := by
  cases role : settings.roleOf label with
  | contract kind => exact .inl ⟨kind, rfl⟩
  | other => exact .inr (.inr (.inl rfl))
  | environment =>
      by_cases action : settings.actionFor label = .remove
      · exact .inr (.inl ⟨rfl, action⟩)
      · exact .inr (.inr (.inr ⟨rfl, action⟩))

namespace Tally

variable {tally : Tally}

@[simp]
theorem left_expression (expression : Expression) :
    (tally.left settings place).expression expression = tally.expression expression :=
  rfl

@[simp]
theorem left_branch : (tally.left settings place).branch = tally.branch :=
  rfl

/-- Of a contract nothing is left to count, unless the contract is left alone. -/
theorem left_of_contract {kind : Kind} (role : settings.roleOf label = .contract kind)
    (body : Statement) :
    (tally.left settings place).ofStatement (.labeled label body) =
      if place.ignores kind then tally.ofStatement body else 0 :=
  ofStatement_of_labeled (by simp only [left, role])

theorem left_of_removed (role : settings.roleOf label = .environment)
    (action : settings.actionFor label = .remove) (body : Statement) :
    (tally.left settings place).ofStatement (.labeled label body) = 0 :=
  ofStatement_of_labeled (by simp only [left, role, action, if_true])

/-- Code that stays counts the same with its label as without it. -/
theorem left_of_entered
    (enters : settings.roleOf label = .other ∨
      settings.roleOf label = .environment ∧ settings.actionFor label ≠ .remove)
    (body : Statement) :
    (tally.left settings place).ofStatement (.labeled label body) =
      (tally.left settings place).ofStatement body := by
  refine ofStatement_labeled ?_
  rcases enters with role | ⟨role, action⟩
  · simp only [left, role]
  · simp only [left, role, action, if_false]

/-- Of statements that contain no others everything is left. -/
theorem left_of_isSimple {statement : Statement} (simple : isSimple statement = true) :
    (tally.left settings place).ofStatement statement = tally.ofStatement statement := by
  cases statement with
  | block | labeled | branch | whileLoop | doWhileLoop | forLoop => cases simple
  | _ => rfl

theorem left_ofLoopInit (init : Option LoopInit) :
    (tally.left settings place).ofLoopInit init = tally.ofLoopInit init := by
  rcases init with _ | _ | _ <;> rfl

theorem left_ofOptional (expression : Option Expression) :
    (tally.left settings place).ofOptional expression = tally.ofOptional expression := by
  cases expression <;> rfl

/-- What is left of tallies that make up another one makes up what is left of it. -/
theorem Combines.left {parts : Parts} {whole first second : Tally} {scale : Nat}
    (combines : Combines parts whole scale first second) (settings : Settings) (place : Place) :
    Combines parts (whole.left settings place) scale (first.left settings place)
      (second.left settings place) where
  expression := combines.expression
  returned := combines.returned
  branch := combines.branch
  loop := combines.loop
  declared := combines.declared
  function := combines.function
  labeled {label body} holds same := by
    rcases settings.role_cases label with ⟨kind, role⟩ | ⟨role, action⟩ | enters
    · rw [left_of_contract role, left_of_contract role, left_of_contract role]
      split
      · exact ofStatement_combines combines body holds
      · rfl
    · simp [left_of_removed role action]
    · rw [left_of_entered enters, left_of_entered enters, left_of_entered enters, same]

/-- What is left of nothing is nothing. -/
@[simp]
theorem ofStatements_left_zero (statements : List Statement) :
    (zero.left settings place).ofStatements statements = 0 := by
  have twice := ofStatements_combines
    ((combines_zero ⟨fun _ => True, fun _ => True, fun _ => True⟩).left settings place) statements
    (Parts.onStatements_of_all (fun _ => trivial) (fun _ => trivial) (fun _ => trivial) statements)
  omega

theorem removed_of_contract {kind : Kind} (role : settings.roleOf label = .contract kind)
    (body : Statement) :
    (removed settings place).ofStatement (.labeled label body) =
      if place.ignores kind then 0 else countReturns body :=
  ofStatement_of_labeled (by simp only [removed, role])

theorem removed_of_removed (role : settings.roleOf label = .environment)
    (action : settings.actionFor label = .remove) (body : Statement) :
    (removed settings place).ofStatement (.labeled label body) = countReturns body :=
  ofStatement_of_labeled (by simp only [removed, role, action, if_true])

theorem removed_of_entered
    (enters : settings.roleOf label = .other ∨
      settings.roleOf label = .environment ∧ settings.actionFor label ≠ .remove)
    (body : Statement) :
    (removed settings place).ofStatement (.labeled label body) =
      (removed settings place).ofStatement body := by
  refine ofStatement_labeled ?_
  rcases enters with role | ⟨role, action⟩
  · simp only [removed, role]
  · simp only [removed, role, action, if_false]

/-- Every return is left or removed. -/
theorem countReturns_eq_left_add_removed (settings : Settings) (place : Place)
    (statements : List Statement) :
    countReturnsOfAll statements =
      (returns.left settings place).ofStatements statements +
        (removed settings place).ofStatements statements := by
  have combines : Combines ⟨fun _ => True, fun _ => True, fun _ => True⟩ returns 1
      (returns.left settings place) (removed settings place) := by
    refine ⟨fun _ => rfl, fun _ => rfl, rfl, fun _ => rfl, fun _ => rfl, fun _ => rfl, ?_⟩
    intro label body _ same
    rw [ofStatement_labeled rfl]
    rcases settings.role_cases label with ⟨kind, role⟩ | ⟨role, action⟩ | enters
    · rw [left_of_contract role, removed_of_contract role, ofStatement_returns]
      split <;> simp
    · rw [left_of_removed role action, removed_of_removed role action, ofStatement_returns]
      simp
    · rw [left_of_entered enters, removed_of_entered enters, same]
  have whole := ofStatements_combines combines statements
    (Parts.onStatements_of_all (fun _ => trivial) (fun _ => trivial) (fun _ => trivial) statements)
  rw [ofStatements_returns, Nat.one_mul] at whole
  exact whole

/-! ## Routing -/

variable {checker : Checker}

/-- Routing adds no returns. -/
theorem countReturns_route (statement : Statement) :
    countReturns (checker.route statement) = countReturns statement := by
  have routed : Routed checker 0 returns zero := by
    refine ⟨fun _ => rfl, fun _ => rfl, rfl, fun _ => rfl, fun _ _ => rfl, fun _ => rfl, ?_⟩
    intro label body same
    rw [ofStatement_labeled rfl, ofStatement_labeled rfl, ofStatement_labeled rfl, same]
  have whole := ofStatement_route routed statement
  rwa [ofStatement_returns, ofStatement_returns, Nat.zero_mul, Nat.add_zero] at whole

/-- Routing does not change which returns are removed. -/
theorem removed_routeAll (statements : List Statement) :
    (removed settings place).ofStatements (checker.routeAll statements) =
      (removed settings place).ofStatements statements := by
  have routed : Routed checker 0 (removed settings place) zero := by
    refine ⟨fun _ => rfl, fun _ => rfl, rfl, fun _ => rfl, fun _ _ => rfl, fun _ => rfl, ?_⟩
    intro label body same
    rw [Nat.zero_mul, Nat.add_zero] at same ⊢
    rcases settings.role_cases label with ⟨kind, role⟩ | ⟨role, action⟩ | enters
    · rw [removed_of_contract role, removed_of_contract role, countReturns_route]
    · rw [removed_of_removed role action, removed_of_removed role action, countReturns_route]
    · rw [removed_of_entered enters, removed_of_entered enters, same]
  have whole := ofStatements_routeAll routed statements
  rwa [Nat.zero_mul, Nat.add_zero] at whole

/-- What is left counts more by the returns that are left. -/
theorem Routed.left {worth : Nat} {name : Option String} (routed : Routed checker worth tally returns) :
    Routed checker worth (tally.left settings (.function name))
      (returns.left settings (.function name)) := by
  refine ⟨routed.returned, fun _ => rfl, rfl, fun _ => rfl, fun _ _ => rfl, fun _ => rfl, ?_⟩
  intro label body same
  have heeded (kind : Kind) : Place.ignores (.function name) kind = false := rfl
  rcases settings.role_cases label with ⟨kind, role⟩ | ⟨role, action⟩ | enters
  · simp [left_of_contract role, heeded]
  · simp [left_of_removed role action]
  · rw [left_of_entered enters, left_of_entered enters, left_of_entered enters, same]

/-- The check at the end of statements counts as much as one that is left. -/
theorem left_exitCheck (free : tally.ofStatement checker.check = 0) (statements : List Statement) :
    (tally.left settings place).ofStatements (checker.exitCheck statements) = 0 := by
  unfold Checker.exitCheck
  split
  · rw [ofStatements]
  · rw [ofStatements_singleton, left_of_isSimple rfl, free]

theorem removed_exitCheck (statements : List Statement) :
    (removed settings place).ofStatements (checker.exitCheck statements) = 0 := by
  unfold Checker.exitCheck
  split <;> rfl

end Tally

/-! ## Routings that are undone -/

attribute [local simp] undone undoneOfAll

theorem undoneOfAll_append (behind : Nat) (first second : List Statement) :
    undoneOfAll settings place behind (first ++ second) =
      undoneOfAll settings place ((Tally.removed settings place).ofStatements second + behind)
          first +
        undoneOfAll settings place behind second := by
  induction first with
  | nil => simp
  | cons statement rest induction =>
      simp only [List.cons_append, undoneOfAll, induction, Tally.ofStatements_append,
        Nat.add_assoc]

theorem undoneOfAll_singleton (behind : Nat) (statement : Statement) :
    undoneOfAll settings place behind [statement] = undone settings place behind statement := by
  simp [Tally.ofStatements]

/-- What stands behind a statement without a label makes no difference inside it. -/
theorem undone_of_unlabeled {statement : Statement} (plain : statement.label? = none)
    (behind : Nat) : undone settings place behind statement = undone settings place 0 statement := by
  cases statement <;> first | rfl | cases plain

/-- Inside a statement that contains no others nothing is undone. -/
theorem undone_of_isSimple {statement : Statement} (simple : isSimple statement = true)
    (behind : Nat) : undone settings place behind statement = 0 := by
  cases statement <;> first | rfl | cases simple

/-- From a contract that counts as an invariant as many routings are undone as stand behind it. -/
theorem undone_of_contract {kind : Kind} (role : settings.roleOf label = .contract kind)
    (behind : Nat) (body : Statement) :
    undone settings place behind (.labeled label body) =
      if kind = .invariant ∧ place.ignores kind = false ∧ settings.stripsContracts = false then
        behind
      else 0 := by
  rw [undone.eq_def]
  simp only [role]

theorem undone_of_inlined (role : settings.roleOf label = .environment)
    (action : settings.actionFor label = .inline) (behind : Nat) (body : Statement) :
    undone settings place behind (.labeled label body) =
      undoneOfAll settings place behind (Statement.labeled label body).unlabeled := by
  cases body <;> simp [role, action, Statement.unlabeled, Tally.ofStatements]

/-- Behind the label of code that stays nothing stands. -/
theorem undone_of_entered
    (enters : settings.roleOf label = .other ∨
      settings.roleOf label = .environment ∧ settings.actionFor label = .keep)
    (behind : Nat) (body : Statement) :
    undone settings place behind (.labeled label body) = undone settings place 0 body := by
  rw [undone.eq_def]
  rcases enters with role | ⟨role, action⟩
  · simp only [role]
  · simp only [role, action]

theorem undone_of_removed (role : settings.roleOf label = .environment)
    (action : settings.actionFor label = .remove) (behind : Nat) (body : Statement) :
    undone settings place behind (.labeled label body) = 0 := by
  rw [undone.eq_def]
  simp only [role, action]

section

variable {checker : Checker}

mutual

theorem undone_route (behind : Nat) : (statement : Statement) →
    undone settings place behind (checker.route statement) =
      undone settings place behind statement
  | .labeled label body => by
      rw [Checker.route]
      cases role : settings.roleOf label with
      | contract kind => rw [undone_of_contract role, undone_of_contract role]
      | other =>
          rw [undone_of_entered (.inl role), undone_of_entered (.inl role), undone_route 0 body]
      | environment =>
          cases action : settings.actionFor label with
          | keep =>
              rw [undone_of_entered (.inr ⟨role, action⟩), undone_of_entered (.inr ⟨role, action⟩),
                undone_route 0 body]
          | remove => rw [undone_of_removed role action, undone_of_removed role action]
          | inline =>
              have alone := undone_route behind body
              rw [undone_of_inlined role action, undone_of_inlined role action]
              cases body with
              | block statements => exact undoneOfAll_routeAll behind statements
              | _ =>
                  refine (undoneOfAll_singleton behind _).trans (Eq.trans ?_
                    (undoneOfAll_singleton behind _).symm)
                  exact alone
  | .block statements => by
      rw [Checker.route, undone, undone]
      exact undoneOfAll_routeAll 0 statements
  | .branch _ consequent alternate => by
      rw [Checker.route, undone, undone, undone_route 0 consequent,
        undoneOfAlternate_route alternate]
  | .whileLoop _ body | .doWhileLoop body _ | .forLoop _ _ _ body => by
      rw [Checker.route, undone, undone]
      exact undone_route 0 body
  | .giveBack _ | .evaluate _ | .raise _ | .bindings _ _ | .declare _ | .breakOut _
  | .continueLoop _ | .empty => rfl

theorem undoneOfAlternate_route : (alternate : Option Statement) →
    undoneOfAlternate settings place (checker.routeAlternate alternate) =
      undoneOfAlternate settings place alternate
  | none => rfl
  | some statement => by
      rw [Checker.routeAlternate, undoneOfAlternate, undoneOfAlternate]
      exact undone_route 0 statement

/-- Routing makes no difference to which routings are undone. -/
theorem undoneOfAll_routeAll (behind : Nat) : (statements : List Statement) →
    undoneOfAll settings place behind (checker.routeAll statements) =
      undoneOfAll settings place behind statements
  | [] => rfl
  | statement :: rest => by
      rw [Checker.routeAll, undoneOfAll, undoneOfAll, Tally.removed_routeAll,
        undone_route _ statement, undoneOfAll_routeAll behind rest]

end

theorem undoneOfAll_exitCheck (behind : Nat) (statements : List Statement) :
    undoneOfAll settings place behind (checker.exitCheck statements) = 0 := by
  unfold Checker.exitCheck
  split <;> rfl

end

end

end Covenant
