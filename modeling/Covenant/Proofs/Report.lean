import Covenant.Proofs.Effects
import Covenant.Proofs.Rejection

/-!
# What a rejection reports

A program is rejected with a reason and a site.  The site is that of a contract
that the transformation looks at, and the reason is told by the body of this
contract: its first construct with an effect, its first statement that states no
condition, or its first condition that is a constant and does not hold.

Preconditions and assertions are judged as they are written, and such a
condition is reported as it is written.  Postconditions and invariants are
judged when values on entry have been captured.  A condition that is constant
may still have a call of the marker in an operand that is never looked at; it is
then reported with a reference to a constant in the place of the call.
-/

namespace Covenant.Contract

/-! ## Bodies that cannot be taken apart -/

/-- Whether a statement is neither an expression nor a block nor empty. -/
def isForeign : Statement → Bool
  | .evaluate _ | .block _ | .empty => false
  | _ => true

/-- The first statement of a body, in source order, that states no condition. -/
inductive FirstForeign : Statement → Statement → Prop where
  | own {statement : Statement} : isForeign statement = true → FirstForeign statement statement
  | block {before after : List Statement} {statement foreign : Statement} :
      (∀ earlier ∈ before, ∃ expressions, Lists earlier expressions) →
        FirstForeign statement foreign →
          FirstForeign (.block (before ++ statement :: after)) foreign

mutual

theorem exists_firstForeign {site : Site} {error : Error} : (body : Statement) →
    conditions site body = .error error →
      ∃ foreign, FirstForeign body foreign ∧
        error = ⟨site, .unsupportedStatement foreign.kindName⟩
  | .evaluate _, failed | .empty, failed => by cases failed
  | .block statements, failed => by
      rw [conditions] at failed
      obtain ⟨before, statement, after, foreign, rfl, listed, first, rfl⟩ :=
        exists_firstForeignOf statements failed
      exact ⟨foreign, .block listed first, rfl⟩
  | .labeled _ _, failed | .giveBack _, failed | .branch _ _ _, failed | .whileLoop _ _, failed
  | .doWhileLoop _ _, failed | .forLoop _ _ _ _, failed | .bindings _ _, failed
  | .declare _, failed | .raise _, failed | .breakOut _, failed | .continueLoop _, failed => by
      cases failed
      exact ⟨_, .own rfl, rfl⟩

theorem exists_firstForeignOf {site : Site} {error : Error} : (statements : List Statement) →
    conditionsOfStatements site statements = .error error →
      ∃ before statement after foreign, statements = before ++ statement :: after ∧
        (∀ earlier ∈ before, ∃ expressions, Lists earlier expressions) ∧
          FirstForeign statement foreign ∧
            error = ⟨site, .unsupportedStatement foreign.kindName⟩
  | [], failed => by cases failed
  | statement :: rest, failed => by
      rw [conditionsOfStatements] at failed
      cases taken : conditions site statement with
      | error reason =>
          rw [taken] at failed
          cases failed
          obtain ⟨foreign, first, rfl⟩ := exists_firstForeign statement taken
          exact ⟨[], statement, rest, foreign, rfl, List.forall_mem_nil _, first, rfl⟩
      | ok found =>
          cases others : conditionsOfStatements site rest with
          | ok otherFound =>
              rw [taken, others] at failed
              cases failed
          | error reason =>
              rw [taken, others] at failed
              cases failed
              obtain ⟨before, next, after, foreign, rfl, listed, first, rfl⟩ :=
                exists_firstForeignOf rest others
              exact ⟨statement :: before, next, after, foreign, rfl,
                List.forall_mem_cons.mpr ⟨exists_lists statement taken, listed⟩, first, rfl⟩

end

mutual

/-- A body that lists expressions has no statement of another kind. -/
theorem Lists.not_firstForeign {body foreign : Statement} {expressions : List Expression} :
    Lists body expressions → ¬ FirstForeign body foreign
  | .evaluate, .own absurd | .empty, .own absurd | .block _, .own absurd => by cases absurd
  | .block lists, .block _ first => lists.not_firstForeign rfl first

theorem ListsInTurn.not_firstForeign {statements before after : List Statement}
    {statement foreign : Statement} {expressions : List Expression} :
    ListsInTurn statements expressions → statements = before ++ statement :: after →
      ¬ FirstForeign statement foreign
  | .nil, split, _ => by cases before <;> cases split
  | .cons head rest, split, first => by
      cases before with
      | nil =>
          cases split
          exact head.not_firstForeign first
      | cons other before =>
          cases split
          exact rest.not_firstForeign rfl first

end

/-- A body that cannot be prepared has an effect, or a statement that states no condition. -/
theorem prepare_eq_error {site : Site} {body : Statement} {error : Error}
    (failed : prepare site body = .error error) :
    (∃ effect, FirstEffect (.statement body) effect ∧ error = ⟨site, .sideEffect effect⟩) ∨
      Harmless (.statement body) ∧
        ∃ foreign, FirstForeign body foreign ∧
          error = ⟨site, .unsupportedStatement foreign.kindName⟩ := by
  unfold prepare at failed
  cases searched : checkEffects site body with
  | error reason =>
      rw [searched] at failed
      cases failed
      exact .inl ((checkEffects_eq_iff site body).2 _ |>.mp searched)
  | ok _ =>
      cases taken : conditions site body with
      | error reason =>
          rw [searched, taken] at failed
          cases failed
          exact .inr ⟨(checkEffects_eq_iff site body).1.mp searched, exists_firstForeign body taken⟩
      | ok found =>
          rw [searched, taken] at failed
          cases failed

mutual

theorem Lists.unique {body : Statement} {expressions others : List Expression} :
    Lists body expressions → Lists body others → others = expressions
  | .evaluate, .evaluate | .empty, .empty => rfl
  | .block lists, .block again => lists.unique again

theorem ListsInTurn.unique {statements : List Statement} {expressions others : List Expression} :
    ListsInTurn statements expressions → ListsInTurn statements others → others = expressions
  | .nil, .nil => rfl
  | .cons head rest, .cons again further => by rw [head.unique again, rest.unique further]

end

theorem harmless_statement_iff {body : Statement} :
    Harmless (.statement body) ↔ Effectless (body.nodes false) :=
  findSome?_listing_eq_none_iff.symm.trans List.findSome?_eq_none_iff

/-! ## Conditions that do not hold -/

/-- A condition is a constant that does not hold. -/
def NeverHolds (test : Expression) : Prop :=
  ∃ value, fold? test = some value ∧ value.isTruthy = false

theorem neverHolds_iff {test : Expression} :
    NeverHolds test ↔ ∃ value, verdict test = .fails value := by
  simp only [NeverHolds, verdict_eq_fails_iff]

/-- A condition without a guard is reported as it reads. -/
theorem guard_eq_error {site : Site} {condition : Condition} {error : Error}
    (failed : condition.guard site = .error error) :
    NeverHolds condition.test ∧ error = ⟨site, .alwaysFails condition.test.source⟩ := by
  unfold Condition.guard at failed
  split at failed
  case h_1 value fails =>
    cases failed
    exact ⟨neverHolds_iff.mpr ⟨value, fails⟩, rfl⟩
  case h_2 => cases failed

/--
Of conditions that stand for others with the same verdicts, the first that never
holds is reported.
-/
theorem guards_eq_error {site : Site} {stands : Condition → Condition → Prop}
    (same : ∀ {source target}, stands source target →
      verdict target.test = verdict source.test)
    {error : Error} {found captured : List Condition}
    (related : List.Forall₂ stands found captured)
    (failed : guards site captured = .error error) :
    ∃ before condition after target, found = before ++ condition :: after ∧
      (∀ earlier ∈ before, ¬ NeverHolds earlier.test) ∧ NeverHolds condition.test ∧
        stands condition target ∧ error = ⟨site, .alwaysFails target.test.source⟩ := by
  induction related with
  | nil => cases failed
  | @cons condition target rest others head tail induction =>
      have verdicts : NeverHolds target.test ↔ NeverHolds condition.test := by
        rw [neverHolds_iff, neverHolds_iff, same head]
      rw [guards, List.mapM_cons] at failed
      cases guarded : target.guard site with
      | error reason =>
          rw [guarded] at failed
          cases failed
          obtain ⟨never, rfl⟩ := guard_eq_error guarded
          exact ⟨[], condition, rest, target, rfl, List.forall_mem_nil _, verdicts.mp never, head,
            rfl⟩
      | ok clause =>
          have holds : ¬ NeverHolds condition.test := fun never => by
            obtain ⟨value, fails⟩ := neverHolds_iff.mp (verdicts.mpr never)
            exact exists_guard_iff.mp ⟨clause, guarded⟩ value fails
          cases further : List.mapM (Condition.guard site) others with
          | ok clauses =>
              rw [guarded, further] at failed
              cases failed
          | error reason =>
              rw [guarded, further] at failed
              cases failed
              obtain ⟨before, next, after, form, rfl, earlier, never, stands, rfl⟩ :=
                induction further
              exact ⟨condition :: before, next, after, form, rfl,
                List.forall_mem_cons.mpr ⟨holds, earlier⟩, never, stands, rfl⟩

/-! ## Conditions without marker calls -/

/-- An expression contains no call of a marker outside functions. -/
def Unmarked (marker : String) (expression : Expression) : Prop :=
  ∀ inner, expression.Encloses inner → Capture.argument? marker inner = none

theorem Unmarked.operand {marker : String} {expression operand : Expression}
    (unmarked : Unmarked marker expression) (member : operand ∈ expression.operands) :
    Unmarked marker operand :=
  fun inner encloses => unmarked inner (.operand member encloses)

section

variable {captured : OldBindings} {marker : String}

mutual

/-- A capture of values on entry leaves an expression without marker calls as it is. -/
theorem eq_of_unmarked {source target : Expression} :
    (captured.exchange (some marker)).OnExpression source target → Unmarked marker source →
      target = source
  | .exchanged given, unmarked => by
      obtain ⟨name, among, argument, marked, _⟩ := given
      cases among
      cases (unmarked source .itself).symm.trans marked
  | .literal _, _ | .identifier _, _ | .receiver, _ => rfl
  | .lambda same, _ => congrArg _ same.symm
  | .unary inner, unmarked | .update inner, unmarked | .member inner, unmarked
  | .await inner, unmarked => by
      rw [eq_of_unmarked inner (unmarked.operand List.mem_cons_self)]
  | .binary first second, unmarked | .logical first second, unmarked
  | .assign first second, unmarked | .index first second, unmarked => by
      rw [eq_of_unmarked first (unmarked.operand List.mem_cons_self),
        eq_of_unmarked second (unmarked.operand (List.mem_cons_of_mem _ List.mem_cons_self))]
  | .conditional first second third, unmarked => by
      rw [eq_of_unmarked first (unmarked.operand List.mem_cons_self),
        eq_of_unmarked second (unmarked.operand (List.mem_cons_of_mem _ List.mem_cons_self)),
        eq_of_unmarked third (unmarked.operand (by simp [Expression.operands]))]
  | .call callee arguments, unmarked | .construct callee arguments, unmarked => by
      rw [eq_of_unmarked callee (unmarked.operand List.mem_cons_self),
        expressions_eq_of_unmarked arguments fun _ member =>
          unmarked.operand (List.mem_cons_of_mem _ member)]
  | .array inner, unmarked | .sequence inner, unmarked => by
      rw [expressions_eq_of_unmarked inner fun _ member => unmarked.operand member]
  | .record inner, unmarked => by
      rw [properties_eq_of_unmarked inner fun _ member =>
        unmarked.operand (List.mem_map_of_mem member)]
  | .yield .none, _ => rfl
  | .yield (.some inner), unmarked => by
      rw [eq_of_unmarked inner (unmarked.operand List.mem_cons_self)]

theorem expressions_eq_of_unmarked {source target : List Expression} :
    (captured.exchange (some marker)).OnExpressions source target →
      (∀ expression ∈ source, Unmarked marker expression) → target = source
  | .nil, _ => rfl
  | .cons first rest, unmarked => by
      rw [List.forall_mem_cons] at unmarked
      rw [eq_of_unmarked first unmarked.1, expressions_eq_of_unmarked rest unmarked.2]

theorem properties_eq_of_unmarked {source target : List Property} :
    (captured.exchange (some marker)).OnProperties source target →
      (∀ property ∈ source, Unmarked marker property.value) → target = source
  | .nil, _ => rfl
  | .cons first rest, unmarked => by
      rw [List.forall_mem_cons] at unmarked
      rw [eq_of_unmarked first unmarked.1, properties_eq_of_unmarked rest unmarked.2]

end

end

/-! ## What a contract is rejected for -/

/--
How a condition reads when it is judged: in preconditions and assertions as it is
written, otherwise with values on entry captured.
-/
def ReadsLater (marker : String) : Kind → Expression → Expression → Prop
  | .precondition, test, form | .assertion, test, form => form = test
  | .postcondition, test, form | .invariant, test, form =>
    ∃ captured : OldBindings, (captured.exchange (some marker)).OnExpression test form

/-- A reason for which a contract is rejected, told by its body. -/
inductive Rejects (marker : String) (site : Site) (body : Statement) : Reason → Prop where
  | effect {effect : Effect} :
      FirstEffect (.statement body) effect → Rejects marker site body (.sideEffect effect)
  | foreign {foreign : Statement} :
      Harmless (.statement body) → FirstForeign body foreign →
        Rejects marker site body (.unsupportedStatement foreign.kindName)
  | condition {before after : List Expression} {expression test message form : Expression} :
      Harmless (.statement body) → Lists body (before ++ expression :: after) →
        (∀ earlier ∈ before, Admissible site earlier) →
          ReadsAs site expression test message → NeverHolds test →
            ReadsLater marker site.kind test form →
              Rejects marker site body (.alwaysFails form.source)

section

variable {marker : String} {site : Site} {body : Statement} {reason : Reason} {error : Error}

/-- A condition in place is judged as it is written, and so is one without marker calls. -/
theorem ReadsLater.eq {kind : Kind} {test form : Expression}
    (reads : ReadsLater marker kind test form)
    (written : kind = .precondition ∨ kind = .assertion ∨ Unmarked marker test) : form = test := by
  cases kind with
  | precondition | assertion => exact reads
  | postcondition | invariant =>
      obtain ⟨captured, related⟩ := reads
      exact eq_of_unmarked related (by simpa using written)

theorem readsLater_self (kind : Kind) (test : Expression) : ReadsLater marker kind test test := by
  cases kind with
  | precondition | assertion => rfl
  | postcondition | invariant =>
      exact ⟨.empty, .refl (fun _ => trivial) (fun _ => rfl) test⟩

/-- A contract is not rejected if its guards can be assembled. -/
theorem Rejects.not_assemble (rejects : Rejects marker site body reason) :
    ¬ ∃ clauses, assemble site body = .ok clauses := by
  rintro ⟨clauses, outcome⟩
  obtain ⟨expressions, lists, admissible, _⟩ := assemble_eq_ok_iff.mp outcome
  cases rejects with
  | effect first =>
      have harmless := harmless_statement_iff.mpr (lists.effectless_iff.mpr
        fun expression member => (admissible_iff.mp (admissible expression member)).1)
      cases (findSome?_listing_eq_none_iff.mpr harmless).symm.trans
        (findSome?_listing_eq_some_iff.mpr first)
  | foreign _ first => exact lists.not_firstForeign first
  | @condition before after expression test message form _ listed _ reads never _ =>
      obtain ⟨value, folds, falsy⟩ := never
      have same := lists.unique listed
      have member : expression ∈ expressions :=
        same ▸ List.mem_append_right before List.mem_cons_self
      cases (((admissible expression member).possible test message value reads folds).symm.trans
        falsy)

theorem rejects_of_prepare (failed : prepare site body = .error error) :
    ∃ reason, error = ⟨site, reason⟩ ∧ Rejects marker site body reason := by
  rcases prepare_eq_error failed with ⟨effect, first, rfl⟩ | ⟨harmless, foreign, first, rfl⟩
  · exact ⟨_, rfl, .effect first⟩
  · exact ⟨_, rfl, .foreign harmless first⟩

/-- A body is rejected for the first of its conditions that never holds, as it then reads. -/
theorem rejects_of_guards {stands : Condition → Condition → Prop}
    (same : ∀ {source target}, stands source target →
      verdict target.test = verdict source.test)
    (reads : ∀ {source target}, stands source target →
      ReadsLater marker site.kind source.test target.test)
    {prepared captured : List Condition} (prepares : prepare site body = .ok prepared)
    (related : List.Forall₂ stands prepared captured)
    (failed : guards site captured = .error error) :
    ∃ reason, error = ⟨site, reason⟩ ∧ Rejects marker site body reason := by
  obtain ⟨expressions, lists, free, rfl⟩ := prepare_eq_ok_iff.mp prepares
  obtain ⟨before, condition, after, target, split, earlier, never, stands, rfl⟩ :=
    guards_eq_error same related failed
  rw [List.map_map, List.map_eq_append_iff] at split
  obtain ⟨first, others, rfl, rfl, split⟩ := split
  obtain ⟨expression, rest, rfl, rfl, rfl⟩ := List.map_eq_cons_iff.mp split
  have later : ReadsLater marker site.kind (Condition.ofExpression expression).test target.test :=
    @reads ((Condition.ofExpression expression).withMessage site) target stands
  refine ⟨_, rfl, .condition (harmless_statement_iff.mpr (lists.effectless_iff.mpr free)) lists
    (fun other member => ?_) (readsAs_iff.mpr ⟨rfl, rfl⟩) never later⟩
  refine admissible_iff.mpr ⟨free other (List.mem_append_left _ member), fun value fails => ?_⟩
  exact earlier _ (List.mem_map_of_mem member) (neverHolds_iff.mpr ⟨value, fails⟩)

/-- The guards that replace a contract are rejected for a reason that its body tells. -/
theorem rejects_of_placeGuards {pass : Pass} (failed : placeGuards site body pass = .error error) :
    ∃ reason, error = ⟨site, reason⟩ ∧ Rejects marker site body reason := by
  rcases step_bind_eq_error.mp failed with assembled | ⟨_, _, _, counted⟩
  · have assembled := step_lift_eq_error.mp assembled
    unfold assemble at assembled
    cases prepares : prepare site body with
    | error first =>
        rw [prepares] at assembled
        cases assembled
        exact rejects_of_prepare prepares
    | ok prepared =>
        rw [prepares] at assembled
        have written : List.Forall₂ Eq prepared prepared := List.forall₂_refl prepared
        refine rejects_of_guards ?_ ?_ prepares written assembled
        · rintro _ _ rfl
          rfl
        · rintro _ _ rfl
          exact readsLater_self _ _
  · cases counted

/-- What is captured with a marker is captured with any other one if there is none. -/
theorem readsLater_of_capturedAs {context : Context} {captured : OldBindings} {kind : Kind}
    {source target : Condition} (late : kind = .postcondition ∨ kind = .invariant)
    (related : source.CapturedAs captured context.marker? target) :
    ReadsLater context.settings.tokens.old kind source.test target.test := by
  have within : (captured.exchange context.marker?).Within
      (captured.exchange (some context.settings.tokens.old)) := by
    refine ⟨id, id, ?_, id⟩
    rintro _ _ ⟨name, among, given⟩
    unfold Context.marker? at among
    split at among
    · exact ⟨name, among, given⟩
    · cases among
  rcases late with rfl | rfl <;> exact ⟨captured, related.test.mono within⟩

/-- The guards of a checker are rejected for a reason that the body of the contract tells. -/
theorem rejects_of_checkedGuards {context : Context} {pass : Pass}
    (late : site.kind = .postcondition ∨ site.kind = .invariant)
    (failed : checkedGuards context site body pass = .error error) :
    ∃ reason, error = ⟨site, reason⟩ ∧
      Rejects context.settings.tokens.old site body reason := by
  rcases step_bind_eq_error.mp failed with prepares | ⟨prepared, between, begun, failed⟩
  · exact rejects_of_prepare (step_lift_eq_error.mp prepares)
  obtain ⟨prepares, rfl⟩ := step_lift_eq_ok.mp begun
  rcases step_bind_eq_error.mp failed with captures | ⟨captured, after, captures, failed⟩
  · obtain ⟨_, _, succeeds⟩ := exists_captureOldValues context prepared pass
    cases captures.symm.trans succeeds
  obtain ⟨capture, _, _, related, _⟩ := captureOldValues_eq_ok captures
  rcases step_bind_eq_error.mp failed with guarded | ⟨_, _, _, counted⟩
  · exact rejects_of_guards (fun related => verdict_of_exchange related.test)
      (readsLater_of_capturedAs late) prepares related (step_lift_eq_error.mp guarded)
  · cases counted

end

/-! ## Routed bodies -/

mutual

/-- Routing does not change which effect is found first: a return has one of its own. -/
theorem findSome?_route (checker : Checker) : (statement : Statement) →
    ((checker.route statement).nodes false).findSome? effect? =
      (statement.nodes false).findSome? effect?
  | .giveBack _ => by
      rw [Checker.route, Statement.nodes, Statement.nodes]
      rfl
  | .block statements => by
      rw [Checker.route, Statement.nodes, Statement.nodes, List.findSome?_cons,
        List.findSome?_cons, findSome?_routeAll checker statements]
      rfl
  | .labeled _ body => by
      rw [Checker.route, Statement.nodes, Statement.nodes, List.findSome?_cons,
        List.findSome?_cons, findSome?_route checker body]
      rfl
  | .branch test consequent alternate => by
      rw [Checker.route, Statement.nodes, Statement.nodes, List.findSome?_cons,
        List.findSome?_cons]
      simp only [List.findSome?_append, findSome?_route checker consequent,
        findSome?_routeAlternate checker alternate]
      rfl
  | .whileLoop test body => by
      rw [Checker.route, Statement.nodes, Statement.nodes, List.findSome?_cons,
        List.findSome?_cons, List.findSome?_append, List.findSome?_append,
        findSome?_route checker body]
      rfl
  | .doWhileLoop body test => by
      rw [Checker.route, Statement.nodes, Statement.nodes, List.findSome?_cons,
        List.findSome?_cons, List.findSome?_append, List.findSome?_append,
        findSome?_route checker body]
      rfl
  | .forLoop init test update body => by
      rw [Checker.route, Statement.nodes, Statement.nodes, List.findSome?_cons,
        List.findSome?_cons]
      simp only [List.findSome?_append, findSome?_route checker body]
      rfl
  | .evaluate _ | .bindings _ _ | .declare _ | .raise _ | .breakOut _ | .continueLoop _
  | .empty => by simp [Checker.route]

theorem findSome?_routeAlternate (checker : Checker) : (alternate : Option Statement) →
    (nodesOfAlternate false (checker.routeAlternate alternate)).findSome? effect? =
      (nodesOfAlternate false alternate).findSome? effect?
  | none => by rw [Checker.routeAlternate]
  | some statement => by
      rw [Checker.routeAlternate, nodesOfAlternate, nodesOfAlternate,
        findSome?_route checker statement]

theorem findSome?_routeAll (checker : Checker) : (statements : List Statement) →
    (nodesOfStatements false (checker.routeAll statements)).findSome? effect? =
      (nodesOfStatements false statements).findSome? effect?
  | [] => by rw [Checker.routeAll]
  | statement :: rest => by
      rw [Checker.routeAll, nodesOfStatements, nodesOfStatements, List.findSome?_append,
        List.findSome?_append, findSome?_route checker statement,
        findSome?_routeAll checker rest]

end

mutual

/-- A statement without effects has no return to be routed. -/
theorem route_of_effectless (checker : Checker) : (statement : Statement) →
    Effectless (statement.nodes false) → checker.route statement = statement
  | .giveBack _, effectless => by
      rw [Statement.nodes, effectless_cons] at effectless
      cases effectless.1
  | .block statements, effectless => by
      rw [Statement.nodes, effectless_cons] at effectless
      rw [Checker.route, routeAll_of_effectless checker statements effectless.2]
  | .labeled _ body, effectless => by
      rw [Statement.nodes, effectless_cons] at effectless
      rw [Checker.route, route_of_effectless checker body effectless.2]
  | .branch _ consequent alternate, effectless => by
      simp only [Statement.nodes, effectless_cons, effectless_append] at effectless
      rw [Checker.route, route_of_effectless checker consequent effectless.2.1.2,
        routeAlternate_of_effectless checker alternate effectless.2.2]
  | .whileLoop _ body, effectless | .forLoop _ _ _ body, effectless => by
      simp only [Statement.nodes, effectless_cons, effectless_append] at effectless
      rw [Checker.route, route_of_effectless checker body effectless.2.2]
  | .doWhileLoop body _, effectless => by
      simp only [Statement.nodes, effectless_cons, effectless_append] at effectless
      rw [Checker.route, route_of_effectless checker body effectless.2.1]
  | .evaluate _, _ | .bindings _ _, _ | .declare _, _ | .raise _, _ | .breakOut _, _
  | .continueLoop _, _ | .empty, _ => by simp [Checker.route]

theorem routeAlternate_of_effectless (checker : Checker) : (alternate : Option Statement) →
    Effectless (nodesOfAlternate false alternate) → checker.routeAlternate alternate = alternate
  | none, _ => by rw [Checker.routeAlternate]
  | some statement, effectless => by
      rw [nodesOfAlternate] at effectless
      rw [Checker.routeAlternate, route_of_effectless checker statement effectless]

theorem routeAll_of_effectless (checker : Checker) : (statements : List Statement) →
    Effectless (nodesOfStatements false statements) → checker.routeAll statements = statements
  | [], _ => by rw [Checker.routeAll]
  | statement :: rest, effectless => by
      rw [nodesOfStatements, effectless_append] at effectless
      rw [Checker.routeAll, route_of_effectless checker statement effectless.1,
        routeAll_of_effectless checker rest effectless.2]

end

section

variable {marker : String} {site : Site} {body : Statement} {reason : Reason}

/-- A body with an effect is rejected for its first one and for nothing else. -/
theorem rejects_iff_of_effect {effect : Effect} (first : FirstEffect (.statement body) effect) :
    Rejects marker site body reason ↔ reason = .sideEffect effect := by
  have found := findSome?_listing_eq_some_iff.mpr first
  constructor
  · intro rejects
    cases rejects with
    | effect other =>
        cases found.symm.trans (findSome?_listing_eq_some_iff.mpr other)
        rfl
    | foreign harmless | condition harmless =>
        cases found.symm.trans (findSome?_listing_eq_none_iff.mpr harmless)
  · rintro rfl
    exact .effect first

/-- Routing does not change what a contract is rejected for. -/
theorem rejects_route (checker : Checker) :
    Rejects marker site (checker.route body) reason ↔ Rejects marker site body reason := by
  cases found : (Node.statement body).listing.findSome? effect? with
  | none =>
      have effectless := harmless_statement_iff.mp (findSome?_listing_eq_none_iff.mp found)
      rw [route_of_effectless checker body effectless]
  | some effect =>
      have routed : (Node.statement (checker.route body)).listing.findSome? effect? = some effect :=
        (findSome?_route checker body).trans found
      rw [rejects_iff_of_effect (findSome?_listing_eq_some_iff.mp found),
        rejects_iff_of_effect (findSome?_listing_eq_some_iff.mp routed)]

end

/-! ## Programs that are rejected -/

section

variable {settings : Settings}

/-- If contracts are only rejected for blamed reasons, so is a program with these contracts. -/
def ContractJudgement.blaming (settings : Settings) (blamed : Error → Prop) :
    ContractJudgement settings where
  toJudgement := .blaming blamed
  accepted site body :=
    ∀ reason, Rejects settings.tokens.old site body reason → blamed ⟨site, reason⟩
  routed checker _ _ := by simp only [rejects_route]
  placeGuards _ _ _ blames _ failed := by
    obtain ⟨reason, rfl, rejects⟩ := rejects_of_placeGuards failed
    exact blames reason rejects
  checkedGuards given _ late _ _ blames _ failed := by
    subst given
    obtain ⟨reason, rfl, rejects⟩ := rejects_of_checkedGuards late failed
    exact blames reason rejects

/-- A function that is left as it is contains no contract that is rejected. -/
theorem sparesFixed_blaming (settings : Settings) (blamed : Error → Prop) (names : List String) :
    (ContractJudgement.blaming settings blamed).SparesFixed names := by
  intro fuel scopes function work bounded sound fixed _ site body processed reason rejects
  obtain ⟨after, outcome, _⟩ := fixed fuel scopes work
  have settles := judges_transformFunction (sparesFixed_deciding settings names) fuel scopes bounded
  exact (rejects.not_assemble
    ((settles.iff sound).mp ⟨_, _, outcome⟩ site body processed)).elim

/-- An error names the site of a contract in a program and a reason that its body tells. -/
def Error.FoundedIn (settings : Settings) (program : Program) (error : Error) : Prop :=
  ∃ body, ProgramProcesses settings program error.site body ∧
    Rejects settings.tokens.old error.site body error.reason

/-- Every program that is rejected is rejected for one of the contracts that are looked at. -/
theorem foundedIn_of_transform {program : Program} {error : Error}
    (rejected : program.transform settings = .error error) : error.FoundedIn settings program :=
  judges_transform
    (sparesFixed_blaming settings (Error.FoundedIn settings program) program.allNames)
    (fun _ body processed _ rejects => ⟨body, processed, rejects⟩) error rejected

/--
A condition that is reported never holds and is stated by a contract that is looked
at.  It is reported as it is written, unless its values on entry are captured.
-/
theorem condition_of_alwaysFails {program : Program} {site : Site} {text : String}
    (rejected : program.transform settings = .error ⟨site, .alwaysFails text⟩) :
    ∃ body expressions expression test message,
      ProgramProcesses settings program site body ∧ Lists body expressions ∧
        expression ∈ expressions ∧ ReadsAs site expression test message ∧ NeverHolds test ∧
          (site.kind = .precondition ∨ site.kind = .assertion ∨
              Unmarked settings.tokens.old test →
            text = test.source) := by
  obtain ⟨body, processed, rejects⟩ := foundedIn_of_transform rejected
  generalize given : Reason.alwaysFails text = reason at rejects
  cases rejects with
  | condition _ lists _ reads never later =>
      cases given
      exact ⟨body, _, _, _, _, processed, lists, List.mem_append_right _ List.mem_cons_self, reads,
        never, fun written => by rw [later.eq written]⟩
  | effect | foreign => cases given

/-- An operand that is never looked at may make the difference. -/
example :
    (match Program.transform (Options.usual.resolve usualEnvironment)
        ⟨[.declare ⟨some "f", ["x"],
          .block [.labeled "post" (.evaluate
            (.logical .and (.literal (.bool false))
              (.call (.identifier "old") [.identifier "x"])))],
          false, false, false⟩]⟩ with
      | .error error => some error
      | .ok _ => none) =
      some ⟨⟨.postcondition, some "f"⟩, .alwaysFails "false && _x"⟩ := by
  decide +kernel

end

end Covenant.Contract
