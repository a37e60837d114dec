import Covenant.Proofs.Acceptance
import Covenant.Proofs.Agreement
import Covenant.Proofs.CheckPoint
import Covenant.Proofs.Idempotence
import Covenant.Proofs.Stripping

/-!
# Walks over code that an environment removes

A walk drops what an environment removes without looking at it.  So two walks
over statements that are the same outside of what is removed do the same: each
step of one is a step of the other, the same is generated for both, and what
they leave differs in the functions only, which are still to be transformed.
-/

namespace Covenant.Contract

/-! ## Programs that differ in what an environment removes -/

/-- Trees may differ in the functions that they contain; the names in them are known. -/
def functionsAmong (known : String → Prop) (related : Function → Function → Prop) : Exchange where
  name := known
  function := related
  expression _ _ := False
  statement _ _ := False

/--
Trees may differ in the functions that they contain, and have parts in common
in which all functions are fixed, whatever the names in those.
-/
def functionsAside (settings : Settings) (known : String → Prop)
    (related : Function → Function → Prop) : Exchange where
  name := known
  function := related
  expression source target := target = source ∧ AllFunctions (Fixed settings) (source.nodes false)
  statement source target := target = source ∧ (Parts.all (Fixed settings)).OnStatement source

section

variable (settings : Settings) (ignores : Kind → Bool) (exchange : Exchange)

mutual

/--
Statements that are the same but for what an environment removes and for what
an exchange allows.  Contracts that are looked at are the same altogether.
-/
inductive SameOutside : Statement → Statement → Prop where
  /-- A statement that an environment removes may hold anything. -/
  | removed {label : String} {body body' : Statement}
      (role : settings.roleOf label = .environment) (action : settings.actionFor label = .remove) :
      SameOutside (.labeled label body) (.labeled label body')
  | contract {label : String} {body : Statement} {kind : Kind}
      (role : settings.roleOf label = .contract kind) (counts : ignores kind = false) :
      SameOutside (.labeled label body) (.labeled label body)
  /-- Nothing is removed from a contract that does not count. -/
  | ignored {label : String} {body body' : Statement} {kind : Kind}
      (role : settings.roleOf label = .contract kind) (ignored : ignores kind = true)
      (inner : exchange.OnStatement body body') :
      SameOutside (.labeled label body) (.labeled label body')
  | labeled {label : String} {body body' : Statement}
      (plain : ∀ kind, settings.roleOf label ≠ .contract kind) (inner : SameOutside body body') :
      SameOutside (.labeled label body) (.labeled label body')
  | block {statements statements' : List Statement}
      (inner : SameOutsideAll statements statements') :
      SameOutside (.block statements) (.block statements')
  | branch {test test' : Expression} {consequent consequent' : Statement}
      (first : exchange.OnExpression test test') (second : SameOutside consequent consequent') :
      SameOutside (.branch test consequent none) (.branch test' consequent' none)
  | branches {test test' : Expression} {consequent consequent' alternate alternate' : Statement}
      (first : exchange.OnExpression test test') (second : SameOutside consequent consequent')
      (third : SameOutside alternate alternate') :
      SameOutside (.branch test consequent (some alternate))
        (.branch test' consequent' (some alternate'))
  | whileLoop {test test' : Expression} {body body' : Statement}
      (first : exchange.OnExpression test test') (second : SameOutside body body') :
      SameOutside (.whileLoop test body) (.whileLoop test' body')
  | doWhileLoop {test test' : Expression} {body body' : Statement}
      (first : SameOutside body body') (second : exchange.OnExpression test test') :
      SameOutside (.doWhileLoop body test) (.doWhileLoop body' test')
  | forLoop {init init' : Option LoopInit} {test test' update update' : Option Expression}
      {body body' : Statement}
      (first : exchange.OnLoopInit init init') (second : exchange.OnOptional test test')
      (third : exchange.OnOptional update update') (fourth : SameOutside body body') :
      SameOutside (.forLoop init test update body) (.forLoop init' test' update' body')
  | simple {statement statement' : Statement} (simple : isSimple statement = true)
      (simple' : isSimple statement' = true) (inner : exchange.OnStatement statement statement') :
      SameOutside statement statement'

/-- Lists of such statements. -/
inductive SameOutsideAll : List Statement → List Statement → Prop where
  | nil : SameOutsideAll [] []
  | cons {statement statement' : Statement} {rest rest' : List Statement}
      (first : SameOutside statement statement') (second : SameOutsideAll rest rest') :
      SameOutsideAll (statement :: rest) (statement' :: rest')

end

end

/--
Functions that are the same but for what an environment removes, in them and in
the functions nested in them.  The marker for values on entry is declared in
both or in neither.
-/
inductive FunctionSameOutside (settings : Settings) (known : String → Prop) :
    Function → Function → Prop where
  | block {name : Option String} {parameters : List String}
      {statements statements' : List Statement} {isArrow isAsync isGenerator : Bool}
      (marker : settings.tokens.old ∈ declaredNames statements ↔
        settings.tokens.old ∈ declaredNames statements')
      (inner : SameOutsideAll settings (fun _ => false)
        (functionsAmong known (FunctionSameOutside settings known)) statements statements') :
      FunctionSameOutside settings known
        ⟨name, parameters, .block statements, isArrow, isAsync, isGenerator⟩
        ⟨name, parameters, .block statements', isArrow, isAsync, isGenerator⟩
  | result {name : Option String} {parameters : List String}
      {expression expression' : Expression} {isArrow isAsync isGenerator : Bool}
      (inner : (functionsAmong known (FunctionSameOutside settings known)).OnExpression
        expression expression') :
      FunctionSameOutside settings known
        ⟨name, parameters, .result expression, isArrow, isAsync, isGenerator⟩
        ⟨name, parameters, .result expression', isArrow, isAsync, isGenerator⟩

/-- A name of two programs. -/
def InBoth (names names' : List String) (name : String) : Prop :=
  name ∈ names ∧ name ∈ names'

/--
Programs that are the same but for what an environment removes.  What they have
in common refers to names of both; the marker for values on entry is declared
in both or in neither.
-/
structure ProgramSameOutside (settings : Settings) (program program' : Program) : Prop where
  marker : settings.tokens.old ∈ declaredNames program.statements ↔
    settings.tokens.old ∈ declaredNames program'.statements
  statements : SameOutsideAll settings (· != .assertion)
    (functionsAmong (InBoth program.allNames program'.allNames)
      (FunctionSameOutside settings (InBoth program.allNames program'.allNames)))
    program.statements program'.statements

/-! ## What corresponds -/

section

variable {settings : Settings} {ignores : Kind → Bool} {known : String → Prop}
  {related : Function → Function → Prop}

theorem functionsAmong_within :
    (functionsAmong known related).Within (functionsAside settings known related) where
  name := id
  function := id
  expression := False.elim
  statement := False.elim

section

set_option linter.unusedSectionVars false

variable {first second : Exchange} (within : first.Within second)

include within

mutual

/-- What is the same but for an exchange is the same but for a wider one. -/
theorem SameOutside.mono {source target : Statement} :
    SameOutside settings ignores first source target →
      SameOutside settings ignores second source target
  | .removed role action => .removed role action
  | .contract role counts => .contract role counts
  | .ignored role ignored inner => .ignored role ignored (inner.mono within)
  | .labeled plain inner => .labeled plain inner.mono
  | .block inner => .block inner.mono
  | .branch test inner => .branch (test.mono within) inner.mono
  | .branches test inner other => .branches (test.mono within) inner.mono other.mono
  | .whileLoop test inner => .whileLoop (test.mono within) inner.mono
  | .doWhileLoop inner test => .doWhileLoop inner.mono (test.mono within)
  | .forLoop init test update inner =>
      .forLoop (init.mono within) (test.mono within) (update.mono within) inner.mono
  | .simple simple simple' inner => .simple simple simple' (inner.mono within)

theorem SameOutsideAll.mono {source target : List Statement} :
    SameOutsideAll settings ignores first source target →
      SameOutsideAll settings ignores second source target
  | .nil => .nil
  | .cons head rest => .cons head.mono rest.mono

end

end

namespace SameOutside

variable {exchange : Exchange} {statement statement' body target : Statement} {label : String}

theorem label?_eq (same : SameOutside settings ignores exchange statement statement') :
    statement'.label? = statement.label? := by
  cases same with
  | simple simple simple' _ =>
      cases statement <;> cases simple <;> cases statement' <;> first | rfl | cases simple'
  | _ => rfl

/-- A contract corresponds to one with the same label, and to itself if it counts. -/
theorem of_contract {kind : Kind} (role : settings.roleOf label = .contract kind)
    (same : SameOutside settings ignores exchange (.labeled label body) target) :
    ∃ body', target = .labeled label body' ∧
      (ignores kind = true → exchange.OnStatement body body') ∧
        (ignores kind = false → body' = body) := by
  cases same with
  | removed role' _ => cases role.symm.trans role'
  | contract role' counts =>
      cases role.symm.trans role'
      exact ⟨_, rfl, fun absurd => by simp [counts] at absurd, fun _ => rfl⟩
  | ignored role' ignored inner =>
      cases role.symm.trans role'
      exact ⟨_, rfl, fun _ => inner, fun absurd => by simp [ignored] at absurd⟩
  | labeled plain _ => exact absurd role (plain kind)
  | simple simple _ _ => cases simple

theorem of_environment (role : settings.roleOf label = .environment)
    (same : SameOutside settings ignores exchange (.labeled label body) target) :
    ∃ body', target = .labeled label body' ∧
      (settings.actionFor label ≠ .remove →
        SameOutside settings ignores exchange body body') := by
  cases same with
  | removed _ action => exact ⟨_, rfl, fun stays => absurd action stays⟩
  | contract role' _ | ignored role' _ _ => cases role.symm.trans role'
  | labeled _ inner => exact ⟨_, rfl, fun _ => inner⟩
  | simple simple _ _ => cases simple

theorem of_other (role : settings.roleOf label = .other)
    (same : SameOutside settings ignores exchange (.labeled label body) target) :
    ∃ body', target = .labeled label body' ∧ SameOutside settings ignores exchange body body' := by
  cases same with
  | removed role' _ | contract role' _ | ignored role' _ _ => cases role.symm.trans role'
  | labeled _ inner => exact ⟨_, rfl, inner⟩
  | simple simple _ _ => cases simple

theorem of_simple (simple : isSimple statement = true)
    (same : SameOutside settings ignores exchange statement target) :
    isSimple target = true ∧ exchange.OnStatement statement target := by
  cases same with
  | simple _ simple' inner => exact ⟨simple', inner⟩
  | _ => cases simple

/-- What environment labels are dropped from corresponds. -/
theorem unlabeled {body' : Statement} (same : SameOutside settings ignores exchange body body') :
    SameOutsideAll settings ignores exchange (Statement.labeled label body).unlabeled
      (Statement.labeled label body').unlabeled := by
  cases same with
  | block inner => exact inner
  | simple simple simple' inner =>
      have single {statement : Statement} (simple : isSimple statement = true) :
          (Statement.labeled label statement).unlabeled = [statement] := by
        cases statement <;> first | rfl | cases simple
      rw [single simple, single simple']
      exact .cons (.simple simple simple' inner) .nil
  | removed role action => exact .cons (.removed role action) .nil
  | contract role counts => exact .cons (.contract role counts) .nil
  | ignored role ignored inner => exact .cons (.ignored role ignored inner) .nil
  | labeled plain inner => exact .cons (.labeled plain inner) .nil
  | branch first second => exact .cons (.branch first second) .nil
  | branches first second third => exact .cons (.branches first second third) .nil
  | whileLoop first second => exact .cons (.whileLoop first second) .nil
  | doWhileLoop first second => exact .cons (.doWhileLoop first second) .nil
  | forLoop first second third fourth => exact .cons (.forLoop first second third fourth) .nil

end SameOutside

theorem SameOutsideAll.append {exchange : Exchange} {first first' second second' : List Statement}
    (left : SameOutsideAll settings ignores exchange first first')
    (right : SameOutsideAll settings ignores exchange second second') :
    SameOutsideAll settings ignores exchange (first ++ second) (first' ++ second') := by
  induction first generalizing first' with
  | nil =>
      cases left
      exact right
  | cons statement first ih =>
      cases left with
      | cons head tail => exact .cons head (ih tail)

/-! ## What a walk adds -/

section

variable {exchange : Exchange} {checker : Checker}

theorem fixed_routes (settings : Settings) (checker : Checker) :
    (Parts.all (Fixed settings)).Routes checker where
  argument {argument} holds := by
    have inner : AllFunctions (Fixed settings) (argument.nodes false) := holds
    change AllFunctions (Fixed settings) _
    simpa [Checker.call, Expression.nodes, nodesOfExpressions] using inner
  bare := by simp [Parts.all, Checker.call, Expression.nodes, nodesOfExpressions, AllFunctions]
  check := by simp [Parts.all, Checker.call, Expression.nodes, nodesOfExpressions, AllFunctions]

/-- An expression without functions is the same in both trees. -/
theorem onExpression_of_noFunctions {expression : Expression}
    (none : functionsOf (expression.nodes false) = []) :
    (functionsAside settings known related).OnExpression expression expression := by
  refine .exchanged ⟨rfl, fun function member => ?_⟩
  rw [none] at member
  cases member

theorem onExpression_call (checker : Checker) {argument argument' : Expression}
    (inner : (functionsAside settings known related).OnExpression argument argument') :
    (functionsAside settings known related).OnExpression (checker.call (some argument))
      (checker.call (some argument')) :=
  .call (onExpression_of_noFunctions (by simp [Expression.nodes])) (.cons inner .nil)

theorem onStatement_check (checker : Checker) :
    (functionsAside settings known related).OnStatement checker.check checker.check :=
  .evaluate (onExpression_of_noFunctions
    (by simp [Checker.call, Expression.nodes, nodesOfExpressions]))

theorem onStatement_declaration {checker : Checker}
    (plain : ∀ guard ∈ checker.guards, IsPlainGuard true guard) (parameter : String) :
    (functionsAside settings known related).OnStatement (checker.declaration parameter)
      (checker.declaration parameter) := by
  refine .exchanged ⟨rfl, ?_⟩
  rw [Checker.declaration, Parts.OnStatement]
  intro function member
  simp only [nodesOfDeclarators, nodesOfOptional, Expression.nodes, Function.nodes_false,
    List.append_nil, functionsOf_cons_expression, functionsOf_cons_function, functionsOf_nil,
    List.mem_singleton] at member
  exact member ▸ Checker.fixed plain parameter

theorem onStatement_guard {guard : Statement} {calls : Bool} (plain : IsPlainGuard calls guard) :
    (functionsAside settings known related).OnStatement guard guard :=
  .exchanged ⟨rfl, onStatement_of_isPlainGuard (fun _ none function member => by
    rw [none] at member
    cases member) plain⟩

theorem onStatements_guards {guards : List Statement} {calls : Bool}
    (plain : ∀ guard ∈ guards, IsPlainGuard calls guard) :
    (functionsAside settings known related).OnStatements guards guards :=
  .self fun guard member => onStatement_guard (plain guard member)

mutual

/-- Corresponding statements correspond after routing. -/
theorem onStatement_route (checker : Checker) {source target : Statement} :
    (functionsAside settings known related).OnStatement source target →
      (functionsAside settings known related).OnStatement (checker.route source)
        (checker.route target)
  | .exchanged given => by
      obtain ⟨rfl, fixed⟩ := given
      exact .exchanged ⟨rfl, Parts.onStatement_route (fixed_routes settings checker) _ fixed⟩
  | .giveBack .none => .giveBack (.some (onExpression_call checker (.literal _)))
  | .giveBack (.some inner) => .giveBack (.some (onExpression_call checker inner))
  | .block inner => .block (onStatements_routeAll checker inner)
  | .labeled inner => .labeled (onStatement_route checker inner)
  | .branch test consequent alternate =>
      .branch test (onStatement_route checker consequent) (onAlternate_route checker alternate)
  | .whileLoop test body => .whileLoop test (onStatement_route checker body)
  | .doWhileLoop body test => .doWhileLoop (onStatement_route checker body) test
  | .forLoop init test update body =>
      .forLoop init test update (onStatement_route checker body)
  | .evaluate inner => .evaluate inner
  | .bindings inner => .bindings inner
  | .declare inner => .declare inner
  | .raise inner => .raise inner
  | .breakOut label => .breakOut label
  | .continueLoop label => .continueLoop label
  | .empty => .empty

theorem onAlternate_route (checker : Checker) {source target : Option Statement} :
    (functionsAside settings known related).OnAlternate source target →
      (functionsAside settings known related).OnAlternate (checker.routeAlternate source)
        (checker.routeAlternate target)
  | .none => .none
  | .some inner => .some (onStatement_route checker inner)

theorem onStatements_routeAll (checker : Checker) {source target : List Statement} :
    (functionsAside settings known related).OnStatements source target →
      (functionsAside settings known related).OnStatements (checker.routeAll source)
        (checker.routeAll target)
  | .nil => .nil
  | .cons head rest => .cons (onStatement_route checker head) (onStatements_routeAll checker rest)

end

theorem isSimple_route (checker : Checker) (statement : Statement) :
    isSimple (checker.route statement) = isSimple statement := by
  cases statement <;> rfl

mutual

/-- Statements that are the same outside of what is removed are so after routing. -/
theorem SameOutside.route (checker : Checker) {source target : Statement} :
    SameOutside settings ignores (functionsAside settings known related) source target →
      SameOutside settings ignores (functionsAside settings known related)
        (checker.route source) (checker.route target)
  | .removed role action => .removed role action
  | .contract role counts => .contract role counts
  | .ignored role ignored inner => .ignored role ignored (onStatement_route checker inner)
  | .labeled plain inner => .labeled plain (inner.route checker)
  | .block inner => .block (inner.routeAll checker)
  | .branch test inner => .branch test (inner.route checker)
  | .branches test inner other => .branches test (inner.route checker) (other.route checker)
  | .whileLoop test inner => .whileLoop test (inner.route checker)
  | .doWhileLoop inner test => .doWhileLoop (inner.route checker) test
  | .forLoop init test update inner => .forLoop init test update (inner.route checker)
  | .simple simple simple' inner =>
      .simple ((isSimple_route checker _).trans simple) ((isSimple_route checker _).trans simple')
        (onStatement_route checker inner)

theorem SameOutsideAll.routeAll (checker : Checker) {source target : List Statement} :
    SameOutsideAll settings ignores (functionsAside settings known related) source target →
      SameOutsideAll settings ignores (functionsAside settings known related)
        (checker.routeAll source) (checker.routeAll target)
  | .nil => .nil
  | .cons head rest => .cons (head.route checker) (rest.routeAll checker)

end

/-! ## How corresponding lists end -/

theorem isReturn_of_aside {source target : Statement}
    (inner : (functionsAside settings known related).OnStatement source target) :
    target.isReturn = source.isReturn := by
  cases inner with
  | exchanged given => rw [given.1]
  | _ => rfl

theorem SameOutside.isReturn_eq {source target : Statement}
    (same : SameOutside settings ignores (functionsAside settings known related) source target) :
    target.isReturn = source.isReturn := by
  cases same with
  | simple _ _ inner => exact isReturn_of_aside inner
  | _ => rfl

theorem map_isReturn_of_aside {source target : List Statement}
    (inner : (functionsAside settings known related).OnStatements source target) :
    target.map (·.isReturn) = source.map (·.isReturn) := by
  induction source generalizing target with
  | nil =>
      cases inner
      rfl
  | cons statement rest ih =>
      cases inner with
      | cons head tail => rw [List.map_cons, List.map_cons, isReturn_of_aside head, ih tail]

theorem SameOutsideAll.map_isReturn {source target : List Statement}
    (same : SameOutsideAll settings ignores (functionsAside settings known related)
      source target) :
    target.map (·.isReturn) = source.map (·.isReturn) := by
  induction source generalizing target with
  | nil =>
      cases same
      rfl
  | cons statement rest ih =>
      cases same with
      | cons head tail => rw [List.map_cons, List.map_cons, head.isReturn_eq, ih tail]

/-- How a list ends depends on which of its statements are returns. -/
theorem endsInReturn_of_map {source target : List Statement}
    (same : target.map (·.isReturn) = source.map (·.isReturn)) :
    endsInReturn target = endsInReturn source := by
  have last (statements : List Statement) :
      endsInReturn statements = ((statements.map (·.isReturn)).getLast?).getD false := by
    rw [endsInReturn, List.getLast?_map]
    cases statements.getLast? <;> rfl
  rw [last, last, same]

/-- What an invariant puts before statements corresponds to itself. -/
theorem onStatements_entry {checker : Checker}
    (plain : ∀ guard ∈ checker.guards, IsPlainGuard true guard) (parameter : String) :
    (functionsAside settings known related).OnStatements (checker.entry parameter)
      (checker.entry parameter) :=
  .cons (onStatement_declaration plain parameter) (.cons (onStatement_check checker) .nil)

/-- The same check is put at the end of corresponding statements. -/
theorem onStatements_exitCheck (checker : Checker) {source target : List Statement}
    (inner : (functionsAside settings known related).OnStatements source target) :
    (functionsAside settings known related).OnStatements (checker.exitCheck source)
      (checker.exitCheck target) := by
  rw [Checker.exitCheck, Checker.exitCheck, endsInReturn_of_map (map_isReturn_of_aside inner)]
  split
  · exact .nil
  · exact .cons (onStatement_check checker) .nil

/-- The same check is put at the end of statements that are still to be walked. -/
theorem sameOutside_exitCheck (checker : Checker) {before before' tail tail' : List Statement}
    (done : (functionsAside settings known related).OnStatements before before')
    (same : SameOutsideAll settings ignores (functionsAside settings known related) tail tail') :
    SameOutsideAll settings ignores (functionsAside settings known related)
      (checker.exitCheck (before ++ tail)) (checker.exitCheck (before' ++ tail')) := by
  have ends : endsInReturn (before' ++ tail') = endsInReturn (before ++ tail) :=
    endsInReturn_of_map (by
      rw [List.map_append, List.map_append, map_isReturn_of_aside done, same.map_isReturn])
  rw [Checker.exitCheck, Checker.exitCheck, ends]
  split
  · exact .nil
  · exact .cons (.simple rfl rfl (onStatement_check checker)) .nil

end

end

/-! ## Walking side by side -/

/-- Stretches that are the same outside of what is removed, as far as they are to be walked. -/
inductive StretchSameOutside (settings : Settings) (ignores : Kind → Bool) (exchange : Exchange) :
    Stretch → Stretch → Prop where
  | list {before before' rest rest' : List Statement}
      (done : exchange.OnStatements before before')
      (same : SameOutsideAll settings ignores exchange rest rest') :
      StretchSameOutside settings ignores exchange (.list before rest) (.list before' rest')
  | inside {statement statement' : Statement}
      (unknown : ∀ label ∈ statement.label?, settings.roleOf label = .other)
      (same : SameOutside settings ignores exchange statement statement') :
      StretchSameOutside settings ignores exchange (.inside statement) (.inside statement')
  | slot {statement statement' : Statement}
      (same : SameOutside settings ignores exchange statement statement') :
      StretchSameOutside settings ignores exchange (.slot statement) (.slot statement')

/-- A walk beside another one, with a result that corresponds to a given one. -/
def WalksBeside (context : Context) (exchange : Exchange) (stretch : Stretch) (pass : Pass)
    (result : List Statement) (after : Pass) : Prop :=
  ∃ result' after', Walks context stretch pass result' after' ∧
    exchange.OnStatements result result' ∧ after.Alike after'

section

variable {context : Context} {exchange : Exchange}

/-- A walk whose result is one statement is beside one of the same kind. -/
theorem WalksBeside.single {stretch : Stretch} {pass after : Pass} {walked : Statement}
    (beside : WalksBeside context exchange stretch pass [walked] after) :
    ∃ walked' after', Walks context stretch pass [walked'] after' ∧
      exchange.OnStatement walked walked' ∧ after.Alike after' := by
  obtain ⟨result', after', walks, inner, alike⟩ := beside
  cases inner with
  | cons first second =>
      cases second
      exact ⟨_, after', walks, first, alike⟩

/-- One statement that is walked over gives one statement. -/
theorem WalksBeside.of_single {stretch : Stretch} {pass after after' : Pass}
    {walked walked' : Statement} (walks : Walks context stretch pass [walked'] after')
    (inner : exchange.OnStatement walked walked') (alike : after.Alike after') :
    WalksBeside context exchange stretch pass [walked] after :=
  ⟨[walked'], after', walks, .cons inner .nil, alike⟩

/--
A walk is followed by a walk over what is the same outside of what is removed,
in every scope that binds the marker for values on entry if its own one does.
-/
theorem Walks.followedOutside {known : String → Prop} {related : Function → Function → Prop}
    {scopes : ScopeStack}
    (captures : Context.captures { context with scopes := scopes } = context.captures)
    {stretch : Stretch} {pass after : Pass} {result : List Statement}
    (walks : Walks context stretch pass result after) :
    pass.Sound → ∀ {stretch' pass'},
      StretchSameOutside context.settings context.ignores
          (functionsAside context.settings known related) stretch stretch' →
        pass.Alike pass' →
          WalksBeside { context with scopes := scopes }
            (functionsAside context.settings known related) stretch' pass' result after := by
  induction walks with
  | done before pass =>
      rintro _ _ pass' (⟨done, same⟩) alike
      cases same
      exact ⟨_, pass', .done _ pass', done, alike⟩
  | ignored role ignored _ induction =>
      rintro sound _ pass' (⟨done, same⟩) alike
      obtain _ | ⟨first, second⟩ := same
      obtain ⟨body', rfl, inner, _⟩ := first.of_contract role
      obtain ⟨result', after', walk, beside, last⟩ :=
        induction sound (.list (done.snoc (.labeled (inner ignored))) second) alike
      exact ⟨result', after', .ignored role ignored walk, beside, last⟩
  | stripped role counts strips _ induction =>
      rintro sound _ pass' (⟨done, same⟩) alike
      obtain _ | ⟨first, second⟩ := same
      obtain ⟨body', rfl, _⟩ := first.of_contract role
      obtain ⟨result', after', walk, beside, last⟩ :=
        induction (sound.counted _) (.list done second) (alike.counted alike.work.summary.addStripped)
      exact ⟨result', after', .stripped role counts strips walk, beside, last⟩
  | inPlace role counts keeps place assembles _ induction =>
      rintro sound _ pass' (⟨done, same⟩) alike
      obtain _ | ⟨first, second⟩ := same
      obtain ⟨_, rfl, _, equal⟩ := first.of_contract role
      cases equal counts
      obtain ⟨between', assembles', next⟩ := placeGuards_of_alike alike assembles
      obtain ⟨found, _, equal, clean, rfl⟩ := placeGuards_eq_ok assembles
      have guards : ∀ guard ∈ _, IsPlainGuard true guard :=
        equal ▸ isPlainGuard_of_mem_map_clause fun condition among =>
          (clean condition among).isPlain none
      obtain ⟨result', after', walk, beside, last⟩ :=
        induction (sound.counted _) (.list (done.append (onStatements_guards guards)) second) next
      exact ⟨result', after', .inPlace role counts keeps place assembles' walk, beside, last⟩
  | postcondition role counts keeps assembles names _ induction =>
      rintro sound _ pass' (⟨done, same⟩) alike
      obtain _ | ⟨first, second⟩ := same
      obtain ⟨_, rfl, _, equal⟩ := first.of_contract role
      cases equal counts
      obtain ⟨guarded', assembles', next⟩ := checkedGuards_of_alike alike captures assembles
      obtain ⟨named', names', named⟩ := makeChecker_of_alike next names
      obtain ⟨guarded, plain⟩ := sound_of_checkedGuards sound assembles
      obtain ⟨rfl, free, rfl⟩ := makeChecker_eq_ok names
      obtain ⟨result', after', walk, beside, last⟩ :=
        induction (guarded.withPostcondition free plain) (.list done second)
          (named.withPostcondition _)
      exact ⟨result', after', .postcondition role counts keeps assembles' names' walk, beside, last⟩
  | @invariant _ _ _ _ _ _ checker _ _ _ _ role counts keeps assembles names _ induction =>
      rintro sound _ pass' (⟨done, same⟩) alike
      obtain _ | ⟨first, second⟩ := same
      obtain ⟨_, rfl, _, equal⟩ := first.of_contract role
      cases equal counts
      obtain ⟨guarded', assembles', next⟩ := checkedGuards_of_alike alike captures assembles
      obtain ⟨named', names', named⟩ := makeChecker_of_alike next names
      obtain ⟨guarded, plain⟩ := sound_of_checkedGuards sound assembles
      obtain ⟨rfl, free, rfl⟩ := makeChecker_eq_ok names
      have before := (onStatements_entry plain context.settings.tokens.result).append
        (onStatements_routeAll checker done)
      have tail := second.routeAll checker
      obtain ⟨result', after', walk, beside, last⟩ :=
        induction ((guarded.naming free).counted _)
          (.list before (tail.append (sameOutside_exitCheck checker before tail)))
          (named.counted (named.work.summary.addRouted _ _))
      exact ⟨result', after', .invariant role counts keeps assembles' names' walk, beside, last⟩
  | kept role action first rest firstInduction induction =>
      rintro sound _ pass' (⟨done, same⟩) alike
      obtain _ | ⟨head, second⟩ := same
      obtain ⟨body', rfl, inner⟩ := head.of_environment role
      obtain ⟨walked', between', walk, beside, next⟩ :=
        (firstInduction sound (.slot (inner (by simp [action]))) alike).single
      obtain ⟨result', after', others, beside', last⟩ :=
        induction (first.sound sound) (.list (done.snoc (.labeled beside)) second) next
      exact ⟨result', after', .kept role action walk others, beside', last⟩
  | removed role action _ induction =>
      rintro sound _ pass' (⟨done, same⟩) alike
      obtain _ | ⟨head, second⟩ := same
      obtain ⟨body', rfl, _⟩ := head.of_environment role
      obtain ⟨result', after', walk, beside, last⟩ :=
        induction (sound.counted _) (.list done second) (alike.counted alike.work.summary.addStripped)
      exact ⟨result', after', .removed role action walk, beside, last⟩
  | inlined role action _ induction =>
      rintro sound _ pass' (⟨done, same⟩) alike
      obtain _ | ⟨head, second⟩ := same
      obtain ⟨body', rfl, inner⟩ := head.of_environment role
      obtain ⟨result', after', walk, beside, last⟩ :=
        induction (sound.counted _) (.list done ((inner (by simp [action])).unlabeled.append second))
          (alike.counted alike.work.summary.addInlined)
      exact ⟨result', after', .inlined role action walk, beside, last⟩
  | other role first _ firstInduction induction =>
      rintro sound _ pass' (⟨done, same⟩) alike
      obtain _ | ⟨head, second⟩ := same
      obtain ⟨body', rfl, inner⟩ := head.of_other role
      obtain ⟨walked', between', walk, beside, next⟩ :=
        (firstInduction sound (.slot inner) alike).single
      obtain ⟨result', after', others, beside', last⟩ :=
        induction (first.sound sound) (.list (done.snoc (.labeled beside)) second) next
      exact ⟨result', after', .other role walk others, beside', last⟩
  | unlabeled plain first _ firstInduction induction =>
      rintro sound _ pass' (⟨done, same⟩) alike
      obtain _ | ⟨head, second⟩ := same
      obtain ⟨walked', between', walk, beside, next⟩ :=
        (firstInduction sound (.inside (by simp [plain]) head) alike).single
      obtain ⟨result', after', others, beside', last⟩ :=
        induction (first.sound sound) (.list (done.snoc beside) second) next
      exact ⟨result', after', .unlabeled (head.label?_eq.trans plain) walk others, beside', last⟩
  | simple simple =>
      rintro _ _ pass' (_ | ⟨unknown, same⟩) alike
      obtain ⟨simple', inner⟩ := same.of_simple simple
      exact .of_single (.simple simple') inner alike
  | block _ induction =>
      rintro sound _ pass' (_ | ⟨unknown, same⟩) alike
      cases same with
      | block inner =>
          obtain ⟨walked', after', walk, beside, last⟩ := induction sound (.list .nil inner) alike
          exact .of_single (.block walk) (.block beside) last
      | simple simple _ _ => cases simple
  | labeled _ induction =>
      rintro sound _ pass' (_ | ⟨unknown, same⟩) alike
      obtain ⟨body', rfl, inner⟩ := same.of_other (unknown _ rfl)
      obtain ⟨walked', after', walk, beside, last⟩ := (induction sound (.slot inner) alike).single
      exact .of_single (.labeled walk) (.labeled beside) last
  | branch _ induction =>
      rintro sound _ pass' (_ | ⟨unknown, same⟩) alike
      cases same with
      | branch test inner =>
          obtain ⟨walked', after', walk, beside, last⟩ :=
            (induction sound (.slot inner) alike).single
          exact .of_single (.branch walk) (.branch test beside .none) last
      | simple simple _ _ => cases simple
  | branches first _ firstInduction secondInduction =>
      rintro sound _ pass' (_ | ⟨unknown, same⟩) alike
      cases same with
      | branches test inner other =>
          obtain ⟨walked', between', walk, beside, next⟩ :=
            (firstInduction sound (.slot inner) alike).single
          obtain ⟨other', after', second, beside', last⟩ :=
            (secondInduction (first.sound sound) (.slot other) next).single
          exact .of_single (.branches walk second) (.branch test beside (.some beside')) last
      | simple simple _ _ => cases simple
  | whileLoop _ induction =>
      rintro sound _ pass' (_ | ⟨unknown, same⟩) alike
      cases same with
      | whileLoop test inner =>
          obtain ⟨walked', after', walk, beside, last⟩ :=
            (induction sound (.slot inner) alike).single
          exact .of_single (.whileLoop walk) (.whileLoop test beside) last
      | simple simple _ _ => cases simple
  | doWhileLoop _ induction =>
      rintro sound _ pass' (_ | ⟨unknown, same⟩) alike
      cases same with
      | doWhileLoop inner test =>
          obtain ⟨walked', after', walk, beside, last⟩ :=
            (induction sound (.slot inner) alike).single
          exact .of_single (.doWhileLoop walk) (.doWhileLoop beside test) last
      | simple simple _ _ => cases simple
  | forLoop _ induction =>
      rintro sound _ pass' (_ | ⟨unknown, same⟩) alike
      cases same with
      | forLoop init test update inner =>
          obtain ⟨walked', after', walk, beside, last⟩ :=
            (induction sound (.slot inner) alike).single
          exact .of_single (.forLoop walk) (.forLoop init test update beside) last
      | simple simple _ _ => cases simple
  | wrapped recognized _ induction =>
      rintro sound _ pass' (_ | _ | same) alike
      obtain ⟨result', after', walk, beside, last⟩ :=
        induction sound (.list .nil (.cons same .nil)) alike
      exact .of_single (.wrapped (by rwa [recognizes_of_label? same.label?_eq]) walk)
        (.block beside) last
  | bare unknown _ induction =>
      rintro sound _ pass' (_ | _ | same) alike
      obtain ⟨walked', after', walk, beside, last⟩ :=
        (induction sound (.inside (role_of_unrecognized unknown) same) alike).single
      exact .of_single (.bare (by rwa [recognizes_of_label? same.label?_eq]) walk) beside last

end

end Covenant.Contract
