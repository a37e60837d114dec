import Covenant.Proofs.Idempotence

/-!
# What is under the routing

A function with postconditions is finished before the functions nested in it
are transformed.  The result could as well have been reached the other way
round: it is finished from statements whose nested functions have been
transformed, with the same declarations in front.
-/

namespace Covenant.Contract

/-- What is exchanged are functions, and perhaps whole declarations of variables for themselves. -/
structure OnlyFunctions (exchange : Exchange) : Prop where
  expression {source target : Expression} : ¬ exchange.expression source target
  statement {source target : Statement} :
    exchange.statement source target →
      source = target ∧ ∃ kind declarators, source = .bindings kind declarators

/-- What is not a declaration of variables is not exchanged as a whole. -/
theorem OnlyFunctions.not_exchanged
    {exchange : Exchange} (only : OnlyFunctions exchange) {source target : Statement}
    (given : exchange.statement source target)
    (other : ∀ kind declarators, source ≠ .bindings kind declarators) : False := by
  obtain ⟨_, kind, declarators, equal⟩ := only.statement given
  exact other kind declarators equal

theorem onlyFunctions_nestedExchange
    (transform : Function → Transforming Function) (earliest latest : Work) :
    OnlyFunctions (nestedExchange transform earliest latest) where
  expression := id
  statement := by
    rintro source target ⟨equal, state, _, _, declares⟩
    refine ⟨equal, ?_⟩
    cases source with
    | bindings kind declarators => exact ⟨kind, declarators, rfl⟩
    | _ => cases declares

section

set_option linter.unusedSectionVars false

variable {exchange : Exchange} (only : OnlyFunctions exchange) {checker : Checker}

include only

/-- An exchange in a call of a checker is one in its argument. -/
theorem exists_of_call {argument target : Expression} :
    exchange.OnExpression (checker.call (some argument)) target →
      ∃ other, exchange.OnExpression argument other ∧ target = checker.call (some other)
  | .exchanged given => (only.expression given).elim
  | .call (.exchanged given) _ => (only.expression given).elim
  | .call (.identifier _) (.cons inner .nil) => ⟨_, inner, rfl⟩

theorem eq_of_check {target : Statement} (related : exchange.OnStatement checker.check target) :
    target = checker.check := by
  cases related with
  | exchanged given => exact (only.statement given).1.symm
  | evaluate inner =>
      cases inner with
      | exchanged given => exact (only.expression given).elim
      | call callee arguments =>
          cases callee with
          | exchanged given => exact (only.expression given).elim
          | identifier _ =>
              cases arguments
              rfl

theorem eq_of_literal {literal : Literal} {target : Expression}
    (related : exchange.OnExpression (.literal literal) target) :
    target = .literal literal := by
  cases related with
  | exchanged given => exact (only.expression given).elim
  | literal _ => rfl

mutual

/-- An exchange in a routed statement is one in the statement itself. -/
theorem exists_of_route : (source : Statement) → {target : Statement} →
    exchange.OnStatement (checker.route source) target →
      ∃ other, exchange.OnStatement source other ∧ target = checker.route other
  | .giveBack argument, _, related => by
      rw [Checker.route] at related
      cases related with
      | exchanged given => exact (only.not_exchanged given nofun).elim
      | giveBack inner =>
          cases inner with
          | some called =>
              obtain ⟨other, given, rfl⟩ := exists_of_call only called
              cases argument with
              | none =>
                  refine ⟨.giveBack none, .giveBack .none, ?_⟩
                  rw [Option.getD_none] at given
                  rw [eq_of_literal only given, Checker.route, Option.getD_none]
              | some argument =>
                  refine ⟨.giveBack (some other), .giveBack (.some given), ?_⟩
                  rw [Checker.route, Option.getD_some]
  | .block statements, _, related => by
      rw [Checker.route] at related
      cases related with
      | exchanged given => exact (only.not_exchanged given nofun).elim
      | block inner =>
          obtain ⟨others, given, rfl⟩ := exists_of_routeAll statements inner
          exact ⟨.block others, .block given, by rw [Checker.route]⟩
  | .labeled label body, _, related => by
      rw [Checker.route] at related
      cases related with
      | exchanged given => exact (only.not_exchanged given nofun).elim
      | labeled inner =>
          obtain ⟨other, given, rfl⟩ := exists_of_route body inner
          exact ⟨.labeled label other, .labeled given, by rw [Checker.route]⟩
  | .branch test consequent alternate, _, related => by
      rw [Checker.route] at related
      cases related with
      | exchanged given => exact (only.not_exchanged given nofun).elim
      | branch first second third =>
          obtain ⟨other, given, rfl⟩ := exists_of_route consequent second
          obtain ⟨another, alternates, rfl⟩ := exists_of_routeAlternate alternate third
          exact ⟨.branch _ other another, .branch first given alternates, by rw [Checker.route]⟩
  | .whileLoop test body, _, related => by
      rw [Checker.route] at related
      cases related with
      | exchanged given => exact (only.not_exchanged given nofun).elim
      | whileLoop first second =>
          obtain ⟨other, given, rfl⟩ := exists_of_route body second
          exact ⟨.whileLoop _ other, .whileLoop first given, by rw [Checker.route]⟩
  | .doWhileLoop body test, _, related => by
      rw [Checker.route] at related
      cases related with
      | exchanged given => exact (only.not_exchanged given nofun).elim
      | doWhileLoop first second =>
          obtain ⟨other, given, rfl⟩ := exists_of_route body first
          exact ⟨.doWhileLoop other _, .doWhileLoop given second, by rw [Checker.route]⟩
  | .forLoop init test update body, _, related => by
      rw [Checker.route] at related
      cases related with
      | exchanged given => exact (only.not_exchanged given nofun).elim
      | forLoop first second third fourth =>
          obtain ⟨other, given, rfl⟩ := exists_of_route body fourth
          exact ⟨.forLoop _ _ _ other, .forLoop first second third given, by rw [Checker.route]⟩
  | .bindings kind declarators, target, related => by
      rw [Checker.route] at related
      · refine ⟨target, related, ?_⟩
        cases related with
        | exchanged given =>
            obtain ⟨rfl, _⟩ := only.statement given
            rw [Checker.route] <;> intros <;> contradiction
        | bindings inner => rw [Checker.route] <;> intros <;> contradiction
      all_goals intros; contradiction
  | .evaluate _, target, related | .raise _, target, related | .declare _, target, related
  | .breakOut _, target, related | .continueLoop _, target, related | .empty, target, related => by
      rw [Checker.route] at related
      · refine ⟨target, related, ?_⟩
        cases related with
        | exchanged given => exact (only.not_exchanged given nofun).elim
        | _ => rw [Checker.route] <;> intros <;> contradiction
      all_goals intros; contradiction

theorem exists_of_routeAlternate : (source : Option Statement) → {target : Option Statement} →
    exchange.OnAlternate (checker.routeAlternate source) target →
      ∃ other, exchange.OnAlternate source other ∧ target = checker.routeAlternate other
  | none, _, related => by
      rw [Checker.routeAlternate] at related
      cases related
      exact ⟨none, .none, by rw [Checker.routeAlternate]⟩
  | some statement, _, related => by
      rw [Checker.routeAlternate] at related
      cases related with
      | some inner =>
          obtain ⟨other, given, rfl⟩ := exists_of_route statement inner
          exact ⟨some other, .some given, by rw [Checker.routeAlternate]⟩

/-- An exchange in routed statements is one in the statements themselves. -/
theorem exists_of_routeAll : (source : List Statement) → {target : List Statement} →
    exchange.OnStatements (checker.routeAll source) target →
      ∃ other, exchange.OnStatements source other ∧ target = checker.routeAll other
  | [], _, related => by
      rw [Checker.routeAll] at related
      cases related
      exact ⟨[], .nil, by rw [Checker.routeAll]⟩
  | statement :: rest, _, related => by
      rw [Checker.routeAll] at related
      cases related with
      | cons head tail =>
          obtain ⟨other, given, rfl⟩ := exists_of_route statement head
          obtain ⟨others, more, rfl⟩ := exists_of_routeAll rest tail
          exact ⟨other :: others, .cons given more, by rw [Checker.routeAll]⟩

end

omit only in
/-- An exchange in statements in turn is one in each part of them. -/
theorem exists_of_append {last target : List Statement} : {first : List Statement} →
    exchange.OnStatements (first ++ last) target →
      ∃ front back, target = front ++ back ∧ exchange.OnStatements first front ∧
        exchange.OnStatements last back
  | [], related => ⟨[], target, rfl, .nil, related⟩
  | statement :: rest, related => by
      cases related with
      | cons head tail =>
          obtain ⟨front, back, rfl, given, more⟩ := exists_of_append tail
          exact ⟨_ :: front, back, rfl, .cons head given, more⟩

/-- Exchanged statements return where the statements do. -/
theorem isReturn_of_exchange {source target : Statement}
    (related : exchange.OnStatement source target) : target.isReturn = source.isReturn := by
  cases related with
  | exchanged given => rw [(only.statement given).1]
  | _ => rfl

theorem endsInReturn_of_exchange {source target : List Statement}
    (related : exchange.OnStatements source target) :
    endsInReturn target = endsInReturn source := by
  induction source generalizing target with
  | nil =>
      cases related
      rfl
  | cons statement rest induction =>
      cases related with
      | cons head tail =>
          cases tail with
          | nil => exact isReturn_of_exchange only head
          | cons second others =>
              have later := induction (.cons second others)
              unfold endsInReturn at later ⊢
              rw [List.getLast?_cons_cons, List.getLast?_cons_cons]
              exact later

/-- An exchange in statements with a postcondition is one in the statements themselves. -/
theorem exists_of_applyPostcondition {source target : List Statement}
    (related : exchange.OnStatements (applyPostcondition source checker) target) :
    ∃ other, exchange.OnStatements source other ∧ target = applyPostcondition other checker := by
  rw [applyPostcondition, Checker.appendExitCheck] at related
  obtain ⟨front, back, rfl, routed, exit⟩ := exists_of_append related
  obtain ⟨other, given, rfl⟩ := exists_of_routeAll only source routed
  refine ⟨other, given, ?_⟩
  rw [applyPostcondition, Checker.appendExitCheck]
  congr 1
  unfold Checker.exitCheck at exit ⊢
  rw [endsInReturn_of_exchange only routed]
  split at exit
  case isTrue ends =>
    cases exit
    rw [if_pos ends]
  case isFalse falls =>
    cases exit with
    | cons head tail =>
        cases tail
        rw [if_neg falls, eq_of_check only head]

/-- An exchange in statements with postconditions is one in the statements themselves. -/
theorem exists_of_applyPostconditions (checkers : List Checker) :
    ∀ {source target : List Statement},
      exchange.OnStatements (checkers.foldl applyPostcondition source) target →
        ∃ other, exchange.OnStatements source other ∧
          target = checkers.foldl applyPostcondition other := by
  induction checkers with
  | nil => exact fun related => ⟨_, related, rfl⟩
  | cons checker rest induction =>
      intro source target related
      obtain ⟨middle, given, rfl⟩ := induction related
      obtain ⟨other, inner, rfl⟩ := exists_of_applyPostcondition only given
      exact ⟨other, inner, rfl⟩

end

/-! ## What stands in front -/

section

variable {transform : Function → Transforming Function}

/-- A declaration of checkers is passed over. -/
theorem onStatement_of_declaresHelpers
    {statement : Statement} {work : Work}
    (declares : declaresHelpers work.helperNames statement = true) :
    (nestedFunctions transform).onStatement statement work = .ok (statement, work) := by
  have hook : (nestedFunctions transform).statement statement work = .ok (some statement, work) :=
    nestedFunctions_statement_eq_ok.mpr ⟨if_pos declares, rfl⟩
  cases statement with
  | bindings kind declarators =>
      rw [Replacer.onStatement, step_bind_of_ok hook]
      rfl
  | _ => cases declares

theorem onStatements_cons_eq_ok
    {statement : Statement} {rest target : List Statement} {work after : Work} :
    (nestedFunctions transform).onStatements (statement :: rest) work = .ok (target, after) ↔
      ∃ first between others,
        (nestedFunctions transform).onStatement statement work = .ok (first, between) ∧
          (nestedFunctions transform).onStatements rest between = .ok (others, after) ∧
            target = first :: others := by
  rw [Replacer.onStatements, step_bind_eq_ok]
  constructor
  · rintro ⟨first, between, begun, outcome⟩
    obtain ⟨others, last, more, outcome⟩ := step_bind_eq_ok.mp outcome
    obtain ⟨rfl, rfl⟩ := step_pure_eq_ok.mp outcome
    exact ⟨first, between, others, begun, more, rfl⟩
  · rintro ⟨first, between, others, begun, more, rfl⟩
    refine ⟨first, between, begun, ?_⟩
    rw [step_bind_of_ok more]
    rfl

/-- Declarations of checkers in front stay as they are. -/
theorem onStatements_of_declaresHelpers
    {rest : List Statement} {work after : Work} : {front target : List Statement} →
      (∀ statement ∈ front, declaresHelpers work.helperNames statement = true) →
        (nestedFunctions transform).onStatements (front ++ rest) work = .ok (target, after) →
          ∃ others,
            (nestedFunctions transform).onStatements rest work = .ok (others, after) ∧
              target = front ++ others
  | [], target, _, outcome => ⟨target, outcome, rfl⟩
  | statement :: front, _, declares, outcome => by
      obtain ⟨first, between, others, begun, more, rfl⟩ := onStatements_cons_eq_ok.mp outcome
      have same := @onStatement_of_declaresHelpers transform _ _
        (declares statement List.mem_cons_self)
      rw [same] at begun
      cases begun
      obtain ⟨last, given, rfl⟩ := onStatements_of_declaresHelpers
        (fun other member => declares other (List.mem_cons_of_mem _ member)) more
      exact ⟨last, given, rfl⟩

/-- Statements without functions in front stay as they are. -/
theorem onStatements_of_noFunctions
    {rest : List Statement} {after : Work} : {front target : List Statement} → {work : Work} →
      (∀ statement ∈ front, (Parts.all fun _ => False).OnStatement statement) →
        (nestedFunctions transform).onStatements (front ++ rest) work = .ok (target, after) →
          ∃ others between,
            work.Idles between ∧
              (nestedFunctions transform).onStatements rest between = .ok (others, after) ∧
                target = front ++ others
  | [], target, work, _, outcome => ⟨target, work, .refl work, outcome, rfl⟩
  | statement :: front, _, work, bare, outcome => by
      obtain ⟨first, between, others, begun, more, rfl⟩ := onStatements_cons_eq_ok.mp outcome
      obtain ⟨kept, same, idle⟩ := @keeps_onStatement transform statement
        (Parts.OnStatement.imp (Parts.all_implies fun _ absurd => absurd.elim) statement
          (bare statement List.mem_cons_self)) work
      rw [same] at begun
      cases begun
      obtain ⟨last, later, idles, given, rfl⟩ := onStatements_of_noFunctions
        (fun other member => bare other (List.mem_cons_of_mem _ member)) more
      exact ⟨last, later, idle.trans idles, given, rfl⟩

end

/-- What stands in front of a function with contracts stays as it is. -/
theorem onStatements_of_prologue
    {transform : Function → Transforming Function} {parameter : String} {pass : Pass}
    (sound : pass.Sound) {rest target : List Statement} {work after : Work}
    (same : work.helperNames = pass.work.helperNames)
    (outcome : (nestedFunctions transform).onStatements (prologue parameter pass ++ rest) work =
      .ok (target, after)) :
    ∃ others between,
      work.Idles between ∧
        (nestedFunctions transform).onStatements rest between = .ok (others, after) ∧
          target = prologue parameter pass ++ others := by
  rw [prologue, List.append_assoc] at outcome
  obtain ⟨others, passed, rfl⟩ := onStatements_of_declaresHelpers (by
    intro statement member
    obtain ⟨checker, among, rfl⟩ := List.mem_map.mp member
    simpa [Checker.declaration, declaresHelpers, same] using (sound.checkers checker among).1)
    outcome
  obtain ⟨last, between, idles, given, rfl⟩ := onStatements_of_noFunctions (by
    intro statement member
    obtain ⟨binding, among, rfl⟩ := List.mem_map.mp member
    have none := binding.init.functionsOf_plain (sound.captured binding among).2.2
    rw [Parts.OnStatement]
    intro function inside
    simp [nodesOfDeclarators, nodesOfOptional, none] at inside) passed
  exact ⟨last, between, idles, given, by rw [prologue, List.append_assoc]⟩

/--
A transformed function is finished from what a walk leaves of its statements
once the functions in them are transformed.
-/
theorem exists_rest_of_transformFunction
    {settings : Settings} {names : List String} {fuel : Nat} {scopes : ScopeStack}
    {source target : Function} {statements : List Statement} {work after : Work}
    (shape : source.body = .block statements) (sound : work.Sound (· ∈ names))
    (outcome : transformFunction settings (fuel + 1) scopes source work = .ok (target, after)) :
    ∃ walked pass rest earliest,
      Walks (functionContext settings scopes source) (.list [] statements) work.start walked pass ∧
        pass.Sound ∧ pass.work.Sound (· ∈ names) ∧ earliest.Sound (· ∈ names) ∧
          (nestedExchange (transformFunction settings fuel (scopes.push source.scope)) earliest
            after).OnStatements walked rest ∧
            target = { source with body := .block (finish settings.tokens.result pass rest) } := by
  obtain ⟨walked, pass, final, walks, transformed, rfl⟩ :=
    (transformFunction_block shape).mp outcome
  have passSound : pass.Sound := walks.sound (@Pass.sound_start work.entering sound.helpers)
  have known : pass.work.Sound (· ∈ names) :=
    sound.later (work.precedes_start.trans walks.precedes.work)
  have same : (finishWork pass walked).helperNames = pass.work.helperNames := rfl
  rw [finish] at transformed
  obtain ⟨others, between, idles, passed, rfl⟩ :=
    onStatements_of_prologue passSound same transformed
  obtain ⟨_, related⟩ :=
    nestedFunctions_onStatements (transformFunction_advances settings fuel _) passed
  obtain ⟨rest, nested, rfl⟩ := exists_of_applyPostconditions
    (onlyFunctions_nestedExchange _ _ _) pass.postconditions related
  have later : between.Sound (· ∈ names) := by
    refine ⟨?_, fun member => ?_⟩
    · rw [idles.helperNames, idles.supply]
      exact known.helpers
    · rw [idles.helperNames, idles.supply]
      exact known.known member
  exact ⟨walked, pass, rest, between, walks, passSound, known, later, nested, rfl⟩

end Covenant.Contract
