import Covenant.Proofs.Gathering

/-!
# Which values on entry are captured, and in which order

The marker calls of an expression are met in source order; the argument of a
marker call is not looked into, and neither are functions.  Replacing the calls
captures their arguments one after the other.  An argument whose source text
has been captured already shares the constant that is there, so the initial
values of the constants are the arguments at their first occurrences.
-/

namespace Covenant

open Contract

mutual

/-- The arguments of the marker calls in an expression, in source order. -/
def Expression.marked (marker : String) : Expression → List Expression
  | .literal _ | .identifier _ | .receiver | .lambda _ => []
  | .array elements | .sequence elements => markedInAll marker elements
  | .record properties => markedInProperties marker properties
  | .unary _ argument | .update _ _ argument | .await argument | .member argument _ =>
    argument.marked marker
  | .binary _ left right | .logical _ left right | .assign _ left right | .index left right =>
    left.marked marker ++ right.marked marker
  | .conditional test consequent alternate =>
    test.marked marker ++ consequent.marked marker ++ alternate.marked marker
  | .call callee arguments =>
    match Capture.argument? marker (.call callee arguments) with
    | some argument => [argument]
    | none => callee.marked marker ++ markedInAll marker arguments
  | .construct callee arguments => callee.marked marker ++ markedInAll marker arguments
  | .yield argument _ => markedIfAny marker argument

/-- The arguments of the marker calls in expressions in turn. -/
def markedInAll (marker : String) : List Expression → List Expression
  | [] => []
  | expression :: rest => expression.marked marker ++ markedInAll marker rest

/-- The arguments of the marker calls in the values of properties in turn. -/
def markedInProperties (marker : String) : List Property → List Expression
  | [] => []
  | ⟨_, value⟩ :: rest => value.marked marker ++ markedInProperties marker rest

/-- The arguments of the marker calls in an expression that may be missing. -/
def markedIfAny (marker : String) : Option Expression → List Expression
  | none => []
  | some expression => expression.marked marker

end

namespace Contract

/-- The arguments of the marker calls in a condition, those in its test before its message. -/
def Condition.marked (marker : String) (condition : Condition) : List Expression :=
  condition.test.marked marker ++ markedIfAny marker condition.message?

/-- The initial values of constants. -/
def OldBindings.inits (captured : OldBindings) : List Expression :=
  captured.bindings.map (·.init)

/-- The names of constants. -/
def OldBindings.names (captured : OldBindings) : List String :=
  captured.bindings.map (·.name)

/-- Whether two expressions have the same source text. -/
def sameSource (first second : Expression) : Bool :=
  first.source == second.source

/-- Initial values with one more, unless one of them has its source text. -/
def captureInit (inits : List Expression) (expression : Expression) : List Expression :=
  if inits.any (sameSource expression) then inits else inits ++ [expression]

/-- Capturing expressions in turn leaves those that have a source text first. -/
theorem foldl_captureInit (expressions : List Expression) :
    ∀ inits : List Expression, expressions.foldl captureInit inits.reverse =
      List.eraseDupsBy.loop sameSource expressions inits := by
  induction expressions with
  | nil => exact fun _ => rfl
  | cons expression rest induction =>
      intro inits
      rw [List.foldl_cons, List.eraseDupsBy.loop, captureInit, List.any_reverse]
      cases known : inits.any (sameSource expression) with
      | true => exact induction inits
      | false =>
          rw [if_neg (by simp), ← List.reverse_cons]
          exact induction (expression :: inits)

theorem foldl_captureInit_nil (expressions : List Expression) :
    expressions.foldl captureInit [] = expressions.eraseDupsBy sameSource :=
  foldl_captureInit expressions []

namespace Capture

variable {α β : Type} {marker : String}

/-- The state after a marker call has been replaced. -/
def note (state : Capture) (argument : Expression) : Capture :=
  { (bind argument state).2 with replaced := (bind argument state).2.replaced + 1 }

/-- The initial values after a marker call has been replaced. -/
theorem inits_note (state : Capture) (argument : Expression) :
    (state.note argument).captured.inits = captureInit state.captured.inits argument := by
  have known : state.captured.inits.any (sameSource argument) =
      (state.captured.find? argument).isSome := by
    rw [Bool.eq_iff_iff, OldBindings.find?, List.find?_isSome, List.any_eq_true]
    simp [OldBindings.inits, sameSource, @eq_comm _ argument.source]
  rw [note, captureInit, known]
  cases found : state.captured.find? argument with
  | some binding =>
      rw [bind_of_found found]
      exact (if_pos rfl).symm
  | none =>
      rw [bind_of_missing found, if_neg (by simp)]
      simp [adding, OldBindings.push, OldBindings.inits]

/-- The names of the constants are told apart, and taken. -/
structure Apart (state : Capture) : Prop where
  distinct : state.captured.names.Nodup
  taken : state.captured.names ⊆ state.supply.taken

/-- A constant that is added has a name of its own. -/
theorem Apart.note {state : Capture} (apart : state.Apart) (argument : Expression) :
    (state.note argument).Apart := by
  rw [Capture.note]
  cases found : state.captured.find? argument with
  | some binding =>
      rw [bind_of_found found]
      exact ⟨apart.distinct, apart.taken⟩
  | none =>
      rw [bind_of_missing found]
      have names : (state.adding argument).captured.names =
          state.captured.names ++ [(state.supply.generateFor argument).1] := by
        simp [adding, OldBindings.push, OldBindings.names]
      have fresh := NameSupply.generate_fresh state.supply (stemText argument)
      constructor
      · show (state.adding argument).captured.names.Nodup
        rw [names]
        apply apart.distinct.append (List.nodup_singleton _)
        rw [List.disjoint_singleton]
        exact fun member => fresh.free (apart.taken member)
      · show (state.adding argument).captured.names ⊆ _
        rw [names]
        apply List.append_subset.mpr
        constructor
        · exact fun name member => List.mem_cons_of_mem _ (apart.taken member)
        · exact List.cons_subset.mpr ⟨List.mem_cons_self, List.nil_subset _⟩

/-- An action replaces the marker calls with some arguments in turn. -/
def Notes (action : StateM Capture α) (arguments : List Expression) : Prop :=
  ∀ state, (action state).2 = arguments.foldl note state

theorem Notes.pure (value : α) : Notes (Pure.pure value) [] :=
  fun _ => rfl

theorem Notes.bind {first : StateM Capture α} {next : α → StateM Capture β}
    {arguments others : List Expression} (notes : Notes first arguments)
    (rest : ∀ value, Notes (next value) others) :
    Notes (first >>= next) (arguments ++ others) := by
  intro state
  rw [List.foldl_append, ← notes state]
  exact rest (first state).1 (first state).2

/-- What only changes the result of an action replaces the same marker calls. -/
theorem Notes.map {first : StateM Capture α} {arguments : List Expression} (change : α → β)
    (notes : Notes first arguments) :
    Notes (first >>= fun value => Pure.pure (change value)) arguments := by
  rw [← List.append_nil arguments]
  exact notes.bind fun value => .pure (change value)

theorem notes_of_marked {source argument : Expression}
    {next : Option Expression → StateM Capture Expression}
    (taken : ∀ replacement, next (some replacement) = Pure.pure replacement)
    (marked : argument? marker source = some argument) :
    Notes ((replacer marker).expression source >>= next) [argument] := by
  intro state
  change (next ((replacer marker).expression source state).1
    ((replacer marker).expression source state).2).2 = _
  rw [expression_of_marked marked, taken]
  rfl

theorem notes_of_unmarked {source : Expression} {arguments : List Expression}
    {next : Option Expression → StateM Capture Expression}
    (unmarked : argument? marker source = none) (inside : Notes (next none) arguments) :
    Notes ((replacer marker).expression source >>= next) arguments := by
  rw [expression_of_unmarked unmarked, pure_bind]
  exact inside

open Replacer in
mutual

/-- Replacing inside an expression replaces its marker calls in turn. -/
theorem notes_onExpression : (source : Expression) →
    Notes ((replacer marker).onExpression source) (source.marked marker)
  | .literal _ | .identifier _ | .receiver => by
      rw [onExpression, Expression.marked]
      exact notes_of_unmarked rfl (.pure _)
  | .lambda ⟨_, _, _, _, _, _⟩ => by
      rw [onExpression, Expression.marked]
      apply notes_of_unmarked rfl
      rw [onFunction]
      exact .map _ (.pure _)
  | .array elements => by
      rw [onExpression, Expression.marked]
      exact notes_of_unmarked rfl (.map _ (notes_onExpressions elements))
  | .sequence elements => by
      rw [onExpression, Expression.marked]
      exact notes_of_unmarked rfl (.map _ (notes_onExpressions elements))
  | .record properties => by
      rw [onExpression, Expression.marked]
      exact notes_of_unmarked rfl (.map _ (notes_onProperties properties))
  | .unary _ argument | .update _ _ argument | .await argument | .member argument _ => by
      rw [onExpression, Expression.marked]
      exact notes_of_unmarked rfl (.map _ (notes_onExpression argument))
  | .binary _ left right | .logical _ left right | .assign _ left right | .index left right => by
      rw [onExpression, Expression.marked]
      apply notes_of_unmarked rfl
      exact (notes_onExpression left).bind fun _ => .map _ (notes_onExpression right)
  | .conditional test consequent alternate => by
      rw [onExpression, Expression.marked, List.append_assoc]
      apply notes_of_unmarked rfl
      apply (notes_onExpression test).bind
      intro _
      exact (notes_onExpression consequent).bind fun _ => .map _ (notes_onExpression alternate)
  | .call callee arguments => by
      rw [onExpression, Expression.marked]
      cases found : argument? marker (.call callee arguments) with
      | some argument => exact notes_of_marked (fun _ => rfl) found
      | none =>
          apply notes_of_unmarked found
          exact (notes_onExpression callee).bind fun _ => .map _ (notes_onExpressions arguments)
  | .construct callee arguments => by
      rw [onExpression, Expression.marked]
      apply notes_of_unmarked rfl
      exact (notes_onExpression callee).bind fun _ => .map _ (notes_onExpressions arguments)
  | .yield argument _ => by
      rw [onExpression, Expression.marked]
      exact notes_of_unmarked rfl (.map _ (notes_onOptional argument))

theorem notes_onExpressions : (source : List Expression) →
    Notes ((replacer marker).onExpressions source) (markedInAll marker source)
  | [] => by
      rw [onExpressions, markedInAll]
      exact .pure _
  | expression :: rest => by
      rw [onExpressions, markedInAll]
      exact (notes_onExpression expression).bind fun _ => .map _ (notes_onExpressions rest)

theorem notes_onProperties : (source : List Property) →
    Notes ((replacer marker).onProperties source) (markedInProperties marker source)
  | [] => by
      rw [onProperties, markedInProperties]
      exact .pure _
  | ⟨_, value⟩ :: rest => by
      rw [onProperties, markedInProperties]
      exact (notes_onExpression value).bind fun _ => .map _ (notes_onProperties rest)

theorem notes_onOptional : (source : Option Expression) →
    Notes ((replacer marker).onOptional source) (markedIfAny marker source)
  | none => by
      rw [onOptional, markedIfAny]
      exact .pure _
  | some expression => by
      rw [onOptional, markedIfAny]
      exact .map _ (notes_onExpression expression)

end

/-- Replacing inside a condition replaces the marker calls of its test before its message. -/
theorem notes_replaceInCondition (condition : Condition) :
    Notes (replaceInCondition marker condition) (condition.marked marker) :=
  (notes_onExpression condition.test).bind fun _ => .map _ (notes_onOptional condition.message?)

/-- Replacing inside conditions replaces their marker calls in turn. -/
theorem notes_mapM (found : List Condition) :
    Notes (found.mapM (replaceInCondition marker)) (found.flatMap (Condition.marked marker)) := by
  induction found with
  | nil => exact .pure []
  | cons condition rest induction =>
      rw [List.mapM_cons, List.flatMap_cons]
      exact (notes_replaceInCondition condition).bind fun _ => .map _ induction

/-- The initial values after marker calls have been replaced in turn. -/
theorem inits_foldl_note (arguments : List Expression) : ∀ state : Capture,
    (arguments.foldl note state).captured.inits =
      arguments.foldl captureInit state.captured.inits := by
  induction arguments with
  | nil => exact fun _ => rfl
  | cons argument rest induction =>
      intro state
      rw [List.foldl_cons, List.foldl_cons, induction, inits_note]

theorem Apart.foldl_note (arguments : List Expression) : ∀ {state : Capture},
    state.Apart → (arguments.foldl Capture.note state).Apart := by
  induction arguments with
  | nil => exact id
  | cons argument rest induction => exact fun apart => induction (apart.note argument)

end Capture

/-! ## The bodies of contracts -/

end Contract

mutual

/-- The arguments of the marker calls in the conditions that a body states, in source order. -/
def Statement.marked (marker : String) : Statement → List Expression
  | .evaluate expression => expression.marked marker
  | .block statements => markedInStatements marker statements
  | _ => []

/-- The arguments of the marker calls in the conditions that statements state in turn. -/
def markedInStatements (marker : String) : List Statement → List Expression
  | [] => []
  | statement :: rest => statement.marked marker ++ markedInStatements marker rest

end

namespace Contract

section

variable {marker : String} {site : Site}

/-- An expression has the marker calls of the condition that it states. -/
theorem Condition.marked_ofExpression (expression : Expression) :
    (Condition.ofExpression expression).marked marker = expression.marked marker := by
  unfold Condition.ofExpression
  split
  · rw [Expression.marked, markedInAll, markedInAll, markedInAll, List.append_nil]
    rfl
  · exact List.append_nil _

/-- A message that is filled in has no marker calls. -/
theorem Condition.marked_withMessage (condition : Condition) :
    (condition.withMessage site).marked marker = condition.marked marker := by
  rw [Condition.marked, Condition.marked, Condition.withMessage, Condition.message]
  cases condition.message? with
  | none => rfl
  | some message => rfl

mutual

/-- The conditions that a body states have the marker calls of the body. -/
theorem marked_of_conditions : (body : Statement) → {found : List Condition} →
    conditions site body = .ok found →
      found.flatMap (Condition.marked marker) = body.marked marker
  | .evaluate expression, found, outcome => by
      cases outcome
      rw [List.flatMap_cons, List.flatMap_nil, List.append_nil, Condition.marked_ofExpression]
      rfl
  | .block statements, found, outcome => by
      rw [conditions] at outcome
      exact marked_of_conditionsOfStatements statements outcome
  | .empty, found, outcome => by
      cases outcome
      rfl
  | .labeled _ _, _, outcome | .giveBack _, _, outcome | .branch _ _ _, _, outcome
  | .whileLoop _ _, _, outcome | .doWhileLoop _ _, _, outcome
  | .forLoop _ _ _ _, _, outcome | .bindings _ _, _, outcome | .declare _, _, outcome
  | .raise _, _, outcome | .breakOut _, _, outcome | .continueLoop _, _, outcome => by
      cases outcome

theorem marked_of_conditionsOfStatements : (statements : List Statement) →
    {found : List Condition} → conditionsOfStatements site statements = .ok found →
      found.flatMap (Condition.marked marker) = markedInStatements marker statements
  | [], found, outcome => by
      cases outcome
      rfl
  | statement :: rest, found, outcome => by
      rw [conditionsOfStatements] at outcome
      cases first : conditions site statement with
      | error reason =>
          rw [first] at outcome
          cases outcome
      | ok firstFound =>
          cases others : conditionsOfStatements site rest with
          | error reason =>
              rw [first, others] at outcome
              cases outcome
          | ok otherFound =>
              rw [first, others] at outcome
              cases outcome
              rw [List.flatMap_append, markedInStatements, marked_of_conditions statement first,
                marked_of_conditionsOfStatements rest others]

end

mutual

/-- Routing keeps the marker calls of a body. -/
theorem marked_route (checker : Checker) : (body : Statement) →
    (checker.route body).marked marker = body.marked marker
  | .block statements => by
      rw [Checker.route, Statement.marked, Statement.marked, marked_routeAll checker statements]
  | .evaluate _ | .empty | .labeled _ _ | .giveBack _ | .branch _ _ _ | .whileLoop _ _
  | .doWhileLoop _ _ | .forLoop _ _ _ _ | .bindings _ _ | .declare _ | .raise _ | .breakOut _
  | .continueLoop _ => by
      rfl

theorem marked_routeAll (checker : Checker) : (statements : List Statement) →
    markedInStatements marker (checker.routeAll statements) = markedInStatements marker statements
  | [] => by
      rw [Checker.routeAll]
  | statement :: rest => by
      rw [Checker.routeAll, markedInStatements, markedInStatements, marked_route checker statement,
        marked_routeAll checker rest]

end

end

/-! ## Walks -/

/-- The expressions whose values on entry a contract refers to. -/
def entryArguments (marker : Option String) : Kind → Statement → List Expression
  | .postcondition, body | .invariant, body => marker.elim [] fun name => body.marked name
  | .precondition, _ | .assertion, _ => []

/-- How a walk captures values on entry: in turn, and under names of their own. -/
structure Captures (arguments : List Expression) (pass after : Pass) : Prop where
  inits : after.captured.inits = arguments.foldl captureInit pass.captured.inits
  apart : pass.capture.Apart → after.capture.Apart

namespace Captures

theorem append {first second : List Expression} {pass between after : Pass}
    (earlier : Captures first pass between) (later : Captures second between after) :
    Captures (first ++ second) pass after where
  inits := by
    rw [List.foldl_append, ← earlier.inits]
    exact later.inits
  apart apart := later.apart (earlier.apart apart)

/-- A name that is taken for a checker leaves the constants as they are. -/
theorem naming {arguments : List Expression} {pass after : Pass}
    (captures : Captures arguments pass after) (name : String) :
    Captures arguments pass (after.naming name) where
  inits := captures.inits
  apart apart :=
    have kept := captures.apart apart
    ⟨kept.distinct, fun _ member => List.mem_cons_of_mem _ (kept.taken member)⟩

/-- Making guards captures what their body refers to. -/
theorem of_checkedGuards {context : Context} {site : Site} {body : Statement}
    {guards : List Statement} {pass after : Pass}
    (outcome : checkedGuards context site body pass = .ok (guards, after)) :
    Captures (context.marker?.elim [] fun name => body.marked name) pass after := by
  rcases steps_of_checkedGuards outcome with
    ⟨prepared, captured, between, preparation, captures, rfl, rfl⟩
  rcases prepare_eq_ok preparation with ⟨found, states, rfl, _⟩
  cases capturing : context.captures with
  | false =>
      rw [captureOldValues_of_not_captures capturing] at captures
      cases captures
      rw [Context.marker?, capturing]
      exact ⟨rfl, id⟩
  | true =>
      rw [captureOldValues_of_captures capturing] at captures
      cases captures
      have arguments : (found.map (Condition.withMessage site)).flatMap
          (Condition.marked context.settings.tokens.old) =
            body.marked context.settings.tokens.old := by
        rw [List.flatMap_map, ← marked_of_conditions body states]
        simp only [Condition.marked_withMessage]
      have notes := @Capture.notes_mapM context.settings.tokens.old
        (found.map (Condition.withMessage site)) pass.capture
      rw [arguments] at notes
      rw [Context.marker?, capturing, if_pos rfl, notes]
      constructor
      · exact Capture.inits_foldl_note _ _
      · intro apart
        have kept := apart.foldl_note (body.marked context.settings.tokens.old)
        exact ⟨kept.distinct, kept.taken⟩

end Captures

/-- Step by step, a walk captures the values on entry that it meets. -/
theorem gathers_captures (context : Context) :
    Gathers context (entryArguments context.marker?) Captures where
  counted _ _ := ⟨rfl, id⟩
  append := .append
  inPlace _ place := by
    rcases place with rfl | rfl <;> rfl
  postcondition {_ _ checker _ _ _} assembles names := by
    rcases makeChecker_eq_ok names with ⟨_, _, rfl⟩
    have captures := (Captures.of_checkedGuards assembles).naming checker.name
    exact ⟨captures.inits, captures.apart⟩
  invariant assembles names := by
    rcases makeChecker_eq_ok names with ⟨_, _, rfl⟩
    exact (Captures.of_checkedGuards assembles).naming _
  routed checker := by
    refine ⟨id, fun kind body => ?_, fun related => ?_⟩
    · rw [List.map_id]
      cases kind with
      | precondition | assertion => rfl
      | postcondition | invariant => simp only [entryArguments, marked_route]
    · rwa [List.map_id] at related

/-- The expressions whose values on entry the contracts refer to that survive in statements. -/
def referredOnEntry (context : Context) : Collection Expression :=
  gathered context.settings (entryArguments context.marker?)

/--
A walk that starts without constants captures the values on entry that the
surviving contracts refer to, one for each source text and in the order in
which they are first referred to, and gives the constants names of their own.
-/
theorem Walks.captures
    {context : Context} {statements result : List Statement} {pass after : Pass}
    (place : context.place ≠ .topLevel) (keeps : context.settings.stripsContracts = false)
    (starts : pass.captured = .empty)
    (walks : Walks context (.list [] statements) pass result after) :
    after.captured.inits =
        ((referredOnEntry context).ofStatements statements).eraseDupsBy sameSource ∧
      after.captured.names.Nodup := by
  have captures := (gathers_captures context).walks place keeps walks trivial
  constructor
  · rw [captures.inits, starts]
    exact foldl_captureInit_nil _
  · apply (captures.apart ?_).distinct
    rw [Pass.capture, starts]
    exact ⟨List.nodup_nil, List.nil_subset _⟩

-- What the argument of a marker call calls is not looked at: it may be the marker again.
example :
    (Expression.call (.identifier "old")
      [.call (.identifier "old") [.identifier "x"]]).marked "old" =
        [.call (.identifier "old") [.identifier "x"]] := by
  rfl

-- Both are written `new a().b()`, so a constant is shared by expressions that are different.
example :
    sameSource (.construct (.member (.call (.identifier "a") []) "b") [])
      (.call (.member (.construct (.identifier "a") []) "b") []) = true := by
  decide +kernel

end Contract

end Covenant
