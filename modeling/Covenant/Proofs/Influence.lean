import Covenant.Proofs.Accounts
import Covenant.Proofs.Extraction
import Covenant.Proofs.Rejection
import Covenant.Proofs.Unseen

/-!
# What removed code has an influence on

Code that an environment removes is not looked at, but its names are: they are
not handed out to what is generated, and a marker for values on entry that is
declared in it is taken for a variable of the function around it.  Nothing else
of it matters.  Programs that are the same outside of what is removed, and that
agree on the marker and on the names that could be handed out, are accepted
together, and become the same program.
-/

namespace Covenant.Contract

/-! ## Walks that fail -/

/-- Contexts in which the same is done, as far as it depends on them. -/
structure Context.Beside (context context' : Context) : Prop where
  settings : context'.settings = context.settings
  place : context'.place = context.place
  captures : context'.captures = context.captures

/-- Contexts in which the same is done differ in their scopes only. -/
theorem Context.Beside.eq {context context' : Context} (beside : context.Beside context') :
    context' = { context with scopes := context'.scopes } := by
  obtain ⟨settings, scopes, place⟩ := context
  obtain ⟨settings', scopes', place'⟩ := context'
  obtain ⟨rfl, rfl, _⟩ := beside
  rfl

section

variable {context context' : Context} {exchange : Exchange}

mutual

/-- The same contracts are looked at in statements that are the same outside of what is removed. -/
theorem SameOutside.contracts_eq {source target : Statement} :
    SameOutside context.settings context.ignores exchange source target →
      context.contracts.ofStatement target = context.contracts.ofStatement source
  | .removed role action => by rw [contracts_of_removed role action, contracts_of_removed role action]
  | .contract _ _ => rfl
  | .ignored role ignored _ => by
      rw [contracts_of_contract role, contracts_of_contract role, ignored, Bool.or_true, if_pos rfl,
        if_pos rfl]
  | @SameOutside.labeled _ _ _ label _ _ plain inner => by
      by_cases removed : context.settings.roleOf label = .environment ∧
          context.settings.actionFor label = .remove
      · rw [contracts_of_removed removed.1 removed.2, contracts_of_removed removed.1 removed.2]
      · have enters : context.settings.roleOf label = .other ∨
            context.settings.roleOf label = .environment ∧
              context.settings.actionFor label ≠ .remove := by
          cases role : context.settings.roleOf label with
          | contract kind => exact absurd role (plain kind)
          | environment => exact .inr ⟨rfl, fun action => removed ⟨role, action⟩⟩
          | other => exact .inl rfl
        rw [contracts_of_entered enters, contracts_of_entered enters, inner.contracts_eq]
  | .block inner => by
      rw [Collection.ofStatement, Collection.ofStatement, inner.contracts_eq]
  | .branch _ inner => by
      rw [Collection.ofStatement, Collection.ofStatement, inner.contracts_eq]
      rfl
  | .branches _ inner other => by
      rw [Collection.ofStatement, Collection.ofStatement, Collection.ofAlternate,
        Collection.ofAlternate, inner.contracts_eq, other.contracts_eq]
      rfl
  | .whileLoop _ inner | .doWhileLoop inner _ => by
      rw [Collection.ofStatement, Collection.ofStatement, inner.contracts_eq]
      rfl
  | .forLoop _ _ _ inner => by rw [contracts_forLoop, contracts_forLoop, inner.contracts_eq]
  | .simple simple simple' _ => by
      rw [contracts_of_isSimple simple, contracts_of_isSimple simple']

theorem SameOutsideAll.contracts_eq {source target : List Statement} :
    SameOutsideAll context.settings context.ignores exchange source target →
      context.contracts.ofStatements target = context.contracts.ofStatements source
  | .nil => rfl
  | .cons head rest => by
      rw [Collection.ofStatements, Collection.ofStatements, head.contracts_eq, rest.contracts_eq]

end

/-- A walk fails only if every walk over what is the same outside of what is removed fails. -/
theorem walkBlock_fails_of_sameOutside (beside : context.Beside context')
    {statements statements' : List Statement}
    (same : SameOutsideAll context.settings context.ignores exchange statements statements')
    {pass pass' : Pass} {reason : Error}
    (outcome : walkBlock context [] statements pass = .error reason) :
    ∃ reason', walkBlock context' [] statements' pass' = .error reason' := by
  have judged (context : Context) (statements : List Statement) (pass : Pass) :
      (∃ done, walkBlock context [] statements pass = .ok done) ↔
        context.Accepts (fun site body => ∃ clauses, assemble site body = .ok clauses)
          (context.contracts.ofStatements statements) :=
    ((@rules_walkBlock context (.deciding context.settings)).1 [] statements).judges trivial
  cases again : walkBlock context' [] statements' pass' with
  | error reason' => exact ⟨reason', rfl⟩
  | ok done =>
      have accepted := (judged context' statements' pass').mp ⟨done, again⟩
      have equal : context'.contracts = context.contracts := by rw [beside.eq]
      have owner : context'.owner = context.owner := by rw [beside.eq]; rfl
      rw [Context.Accepts, equal, owner, same.contracts_eq] at accepted
      obtain ⟨_, absurd⟩ := (judged context statements pass).mpr accepted
      rw [outcome] at absurd
      cases absurd

end

/-! ## Steps that do the same -/

/-- Work on two programs, whose names are given, for which the same is generated. -/
structure Work.Along (names names' : List String) (work work' : Work) : Prop where
  alike : work.Alike work'
  sound : work.Sound (· ∈ names)
  sound' : work'.Sound (· ∈ names')

/-- Both of two steps give the same, or both fail. -/
inductive SameOutcome (names names' : List String) {α : Type} :
    Except Error (α × Work) → Except Error (α × Work) → Prop where
  | given {result : α} {after after' : Work} (along : after.Along names names' after') :
      SameOutcome names names' (.ok (result, after)) (.ok (result, after'))
  | failed {reason reason' : Error} : SameOutcome names names' (.error reason) (.error reason')

section

variable {names names' : List String}

/-- Steps go on alike after the same outcome. -/
theorem SameOutcome.bind {α β : Type} {outcome outcome' : Except Error (α × Work)}
    {next next' : α × Work → Except Error (β × Work)}
    (same : SameOutcome names names' outcome outcome')
    (rest : ∀ {result after after'}, after.Along names names' after' →
      SameOutcome names names' (next (result, after)) (next' (result, after'))) :
    SameOutcome names names' (outcome >>= next) (outcome' >>= next') := by
  cases same with
  | given along => exact rest along
  | failed => exact .failed

/-- Steps do the same if they have the same outcome with work for which the same is generated. -/
def alongside (names names' : List String) : Replacer.Pace Transforming where
  same step step' :=
    ∀ work work' : Work, work.Along names names' work' →
      SameOutcome names names' (step work) (step' work')
  pure _ _ _ along := .given along
  bind head rest _ _ along := (head _ _ along).bind fun between => rest _ _ _ between

/-- Steps that keep the same value do the same. -/
theorem same_of_keeps {α : Type} {step step' : Transforming α} {value : α}
    (kept : Keeps step value) (kept' : Keeps step' value) :
    (alongside names names').same step step' := by
  intro work work' along
  obtain ⟨after, outcome, idle⟩ := kept work
  obtain ⟨after', outcome', idle'⟩ := kept' work'
  rw [outcome, outcome']
  obtain ⟨⟨supply, helpers, counted⟩, sound, sound'⟩ := along
  obtain ⟨_, counts⟩ := idle.summary
  obtain ⟨_, counts'⟩ := idle'.summary
  refine .given ⟨⟨?_, ?_, ?_⟩, ⟨?_, ?_⟩, ⟨?_, ?_⟩⟩
  · rwa [idle.supply, idle'.supply]
  · rwa [idle.helperNames, idle'.helperNames]
  · rw [counts, counts']
    exact ⟨counted.guards, counted.helpers, counted.oldBindings, counted.stripped,
      counted.inlined⟩
  · rw [idle.supply, idle.helperNames]
    exact sound.helpers
  · rw [idle.supply, idle.helperNames]
    exact sound.known
  · rw [idle'.supply, idle'.helperNames]
    exact sound'.helpers
  · rw [idle'.supply, idle'.helperNames]
    exact sound'.known

end

/-! ## Functions that are left -/

section

variable {settings : Settings} {names names' : List String}
  {related : Function → Function → Prop}

/-- Corresponding statements are passed over together, and only if they are the same. -/
theorem declaresHelpers_of_aside {work : Work} (sound : work.Sound (· ∈ names))
    {source target : Statement}
    (inner : (functionsAside settings (InBoth names names') related).OnStatement source target) :
    declaresHelpers work.helperNames target = declaresHelpers work.helperNames source ∧
      (declaresHelpers work.helperNames source = true → target = source) := by
  cases inner with
  | exchanged given => exact ⟨by rw [given.1], fun _ => given.1⟩
  | bindings inner =>
      cases inner with
      | nil => exact ⟨rfl, fun _ => rfl⟩
      | @cons name init init' rest rest' known _ _ =>
          have unknown : work.helperNames.contains name = false := by
            simpa using (sound.known known.1).2
          have other (kind : DeclarationKind) (init : Option Expression) (rest : List Declarator) :
              declaresHelpers work.helperNames (.bindings kind (⟨name, init⟩ :: rest)) = false := by
            rw [declaresHelpers, List.all_cons, unknown, Bool.false_and]
          exact ⟨by rw [other, other], fun absurd => by simp [other] at absurd⟩
  | evaluate _ | block _ | labeled _ | giveBack _ | branch _ _ _ | whileLoop _ _ | doWhileLoop _ _
  | forLoop _ _ _ _ | declare _ | raise _ | breakOut _ | continueLoop _ | empty =>
      exact ⟨rfl, fun absurd => by cases absurd⟩

/-- What is required of walked statements covers the functions that are entered. -/
theorem covers_charted {names made : List String} {exchange : Exchange}
    {property : Function → Prop} (known : ∀ name, exchange.name name → name ∈ names) :
    Replacer.Covers exchange (charted names made property) where
  expression := id
  declared {declarators} named holds := by
    simp only [charted] at holds
    split at holds
    · exact holds
    case isFalse others =>
      rw [eq_nil_of_introduces (fun name member => known name (named name member))
        (Bool.eq_false_iff.mpr others)]
      exact .nil

variable {transform transform' : Function → Transforming Function}
  {property property' : Function → Prop} {made made' : List String}

/-- Functions that correspond are transformed alike in trees that correspond. -/
theorem lockstep_functionsAside
    (alike : ∀ function function', related function function' → property function →
      property' function' → (alongside names names').same (transform function) (transform' function'))
    (keeps : ∀ function, Fixed settings function → Kept transform function)
    (keeps' : ∀ function, Fixed settings function → Kept transform' function) :
    Replacer.Lockstep (alongside names names')
      (functionsAside settings (InBoth names names') related)
      (charted names made property) (charted names' made' property')
      (nestedFunctions transform) (nestedFunctions transform') where
  covers := covers_charted fun _ known => known.1
  covers' := covers_charted fun _ known => known.2
  expression _ := (alongside names names').pure none
  exchanged := by
    rintro source target ⟨rfl, fixed⟩
    exact same_of_keeps
      (keeps_onExpression _ fun function member => keeps _ (fixed function member))
      (keeps_onExpression _ fun function member => keeps' _ (fixed function member))
  function apart holds holds' :=
    Replacer.same_onFunction (fun _ => rfl) (fun _ => rfl) (alike _ _ apart holds holds')
  statement {source target} inner _ _ := by
    intro work work' along
    obtain ⟨same, equal⟩ := declaresHelpers_of_aside along.sound inner
    change SameOutcome names names'
      (.ok (if declaresHelpers work.helperNames source then some source else none, work))
      (.ok (if declaresHelpers work'.helperNames target then some target else none, work'))
    rw [along.alike.helperNames, same]
    split
    case isTrue declares =>
      rw [equal declares]
      exact .given along
    case isFalse => exact .given along
  swapped := by
    rintro source target ⟨rfl, fixed⟩
    exact same_of_keeps
      (keeps_onStatement _ (Parts.OnStatement.imp (Parts.all_implies keeps) _ fixed))
      (keeps_onStatement _ (Parts.OnStatement.imp (Parts.all_implies keeps') _ fixed))

end

/-! ## Functions and programs -/

section

variable {settings : Settings} {names names' : List String}

theorem onStatements_applied {related : Function → Function → Prop} (checkers : List Checker) :
    ∀ {statements statements' : List Statement},
      (functionsAside settings (InBoth names names') related).OnStatements
          statements statements' →
        (functionsAside settings (InBoth names names') related).OnStatements
          (checkers.foldl applyPostcondition statements)
          (checkers.foldl applyPostcondition statements') := by
  induction checkers with
  | nil => exact id
  | cons checker rest induction =>
      intro statements statements' inner
      have routed := onStatements_routeAll checker inner
      exact induction (routed.append (onStatements_exitCheck checker routed))

/-- What is put around walked statements is the same for passes that agree. -/
theorem onStatements_finish {related : Function → Function → Prop} {pass pass' : Pass}
    (sound : pass.Sound) (alike : pass.Alike pass') (parameter : String)
    {statements statements' : List Statement}
    (inner : (functionsAside settings (InBoth names names') related).OnStatements
      statements statements') :
    (functionsAside settings (InBoth names names') related).OnStatements
      (finish parameter pass statements) (finish parameter pass' statements') := by
  rw [finish, finish, prologue, prologue, alike.captured, alike.postconditions]
  refine .append (.append (.self ?_) (.self ?_)) (onStatements_applied _ inner)
  · intro statement member
    obtain ⟨checker, among, rfl⟩ := List.mem_map.mp member
    exact onStatement_declaration (sound.checkers checker among).2 parameter
  · intro statement member
    obtain ⟨binding, among, rfl⟩ := List.mem_map.mp member
    refine .exchanged ⟨rfl, ?_⟩
    rw [Parts.OnStatement]
    intro function inside
    have none := binding.init.functionsOf_plain (sound.captured binding among).2.2
    simp [nodesOfDeclarators, nodesOfOptional, none] at inside

/-- Work on a finished function stays alike. -/
theorem Pass.Alike.finishWork {pass pass' : Pass} (alike : pass.Alike pass')
    (statements statements' : List Statement) :
    (finishWork pass statements).Alike (finishWork pass' statements') := by
  have counted := alike.work.summary
  refine ⟨alike.work.supply, alike.work.helperNames, counted.guards, counted.helpers, ?_,
    counted.stripped, counted.inlined⟩
  change pass'.work.summary.oldBindings + pass'.captured.bindings.length = _
  rw [counted.oldBindings, alike.captured]
  rfl

theorem Work.Alike.start {work work' : Work} (alike : work.Alike work') :
    work.start.Alike work'.start :=
  ⟨⟨alike.supply, alike.helperNames, alike.summary.guards, alike.summary.helpers,
    alike.summary.oldBindings, alike.summary.stripped, alike.summary.inlined⟩, rfl, rfl⟩

/--
Functions that are the same outside of what is removed differ in their bodies
only, and the marker for values on entry is bound in both or in neither.
-/
theorem FunctionSameOutside.same_header {known : String → Prop} {function function' : Function}
    (same : FunctionSameOutside settings known function function') :
    function'.name = function.name ∧
      (∀ body, { function' with body := body } = { function with body := body }) ∧
        (settings.tokens.old ∈ function'.scope ↔ settings.tokens.old ∈ function.scope) := by
  cases same with
  | block marker _ => exact ⟨rfl, fun _ => rfl, by simp [Function.scope, Function.block?, marker]⟩
  | result _ => exact ⟨rfl, fun _ => rfl, Iff.rfl⟩

theorem FunctionSameOutside.of_block {known : String → Prop} {function function' : Function}
    (same : FunctionSameOutside settings known function function') {statements : List Statement}
    (shape : function.body = .block statements) :
    ∃ statements', function'.body = .block statements' ∧
      SameOutsideAll settings (fun _ => false)
        (functionsAmong known (FunctionSameOutside settings known)) statements statements' := by
  cases same with
  | block _ inner =>
      cases shape
      exact ⟨_, rfl, inner⟩
  | result _ => cases shape

theorem FunctionSameOutside.of_result {known : String → Prop} {function function' : Function}
    (same : FunctionSameOutside settings known function function') {expression : Expression}
    (shape : function.body = .result expression) :
    ∃ expression', function'.body = .result expression' ∧
      (functionsAmong known (FunctionSameOutside settings known)).OnExpression
        expression expression' := by
  cases same with
  | block _ _ => cases shape
  | result inner =>
      cases shape
      exact ⟨_, rfl, inner⟩

theorem isBound_push {scopes scopes' : ScopeStack} {name : String} {scope scope' : List String}
    (declared : name ∈ scope' ↔ name ∈ scope) (around : scopes'.isBound name = scopes.isBound name) :
    (scopes'.push scope').isBound name = (scopes.push scope).isBound name := by
  have push (stack : ScopeStack) (scope : List String) :
      (stack.push scope).isBound name = (scope.contains name || stack.isBound name) := rfl
  rw [push, push, around]
  simp [declared]

/-- Corresponding functions of bounded size are transformed alike, as far as the fuel goes. -/
def TransformsAlike (settings : Settings) (names names' : List String) (fuel fuel' : Nat) : Prop :=
  ∀ (scopes scopes' : ScopeStack) (function function' : Function),
    FunctionSameOutside settings (InBoth names names') function function' →
      BoundedFunction fuel (· ∈ names) function → BoundedFunction fuel' (· ∈ names') function' →
        scopes'.isBound settings.tokens.old = scopes.isBound settings.tokens.old →
          (alongside names names').same (transformFunction settings fuel scopes function)
            (transformFunction settings fuel' scopes' function')

/-- Nested functions are transformed alike in statements and expressions that correspond. -/
theorem lockstep_of_transformsAlike {fuel fuel' : Nat} {scopes scopes' : ScopeStack}
    {made made' : List String} (alike : TransformsAlike settings names names' fuel fuel')
    (bound : scopes'.isBound settings.tokens.old = scopes.isBound settings.tokens.old) :
    Replacer.Lockstep (alongside names names')
      (functionsAside settings (InBoth names names')
        (FunctionSameOutside settings (InBoth names names')))
      (charted names made (BoundedFunction fuel (· ∈ names)))
      (charted names' made' (BoundedFunction fuel' (· ∈ names')))
      (nestedFunctions (transformFunction settings fuel scopes))
      (nestedFunctions (transformFunction settings fuel' scopes')) :=
  lockstep_functionsAside
    (fun function function' apart holds holds' =>
      alike scopes scopes' function function' apart holds holds' bound)
    (fun _ fixed => fixed fuel scopes) (fun _ fixed => fixed fuel' scopes')

/-- Walks over statements that are the same outside of what is removed end alike. -/
theorem walked_of_sameOutside {context context' : Context} {fuel fuel' : Nat}
    {related : Function → Function → Prop} (alongside : context.Beside context')
    {statements statements' walked : List Statement} {pass pass' after : Pass}
    (same : SameOutsideAll context.settings context.ignores
      (functionsAmong (InBoth names names') related) statements statements')
    (bounded : Bounded fuel (· ∈ names) (nodesOfStatements true statements))
    (bounded' : Bounded fuel' (· ∈ names') (nodesOfStatements true statements'))
    (sound : pass.Sound) (sound' : pass'.Sound) (begun : pass.Alike pass')
    (known : pass.work.Sound (· ∈ names)) (known' : pass'.work.Sound (· ∈ names'))
    (outcome : walkBlock context [] statements pass = .ok (walked, after)) :
    ∃ walked' after',
      walkBlock context' [] statements' pass' = .ok (walked', after') ∧
        (functionsAside context.settings (InBoth names names') related).OnStatements walked walked' ∧
          after.Alike after' ∧ after.Sound ∧ after'.Sound ∧
            after.work.Sound (· ∈ names) ∧ after'.work.Sound (· ∈ names') ∧
              (charted names after.work.helperNames
                (BoundedFunction fuel (· ∈ names))).OnStatements walked ∧
                (charted names' after'.work.helperNames
                  (BoundedFunction fuel' (· ∈ names'))).OnStatements walked' := by
  have walks := walks_list_iff.mpr outcome
  obtain ⟨walked', after', walks', beside, ended⟩ :=
    walks.followedOutside (alongside.eq ▸ alongside.captures) sound
      (.list .nil (same.mono functionsAmong_within)) begun
  rw [← alongside.eq] at walks'
  have last := known.later walks.precedes.work
  have last' := known'.later walks'.precedes.work
  refine ⟨walked', after', walks_list_iff.mp walks', beside, ended, walks.sound sound,
    walks'.sound sound', last, last', ?_, ?_⟩
  · exact walks.parts (charted_admits _ last) sound (.refl after)
      (charted_source statements bounded fun _ => id)
  · exact walks'.parts (charted_admits _ last') sound' (.refl after')
      (charted_source statements' bounded' fun _ => id)

/-- Functions that are the same outside of what is removed are transformed alike. -/
theorem transformsAlike (settings : Settings) (names names' : List String) (fuel : Nat) :
    ∀ fuel', TransformsAlike settings names names' fuel fuel' := by
  induction fuel with
  | zero =>
      intro fuel' scopes scopes' function function' same bounded bounded'
      exact absurd bounded.size (by simp [Function.nodes_true])
  | succ fuel induction =>
      rintro (_ | fuel') scopes scopes' function function' same bounded bounded' around
      · exact absurd bounded'.size (by simp [Function.nodes_true])
      intro work work' along
      have body := bounded.body
      have body' := bounded'.body
      obtain ⟨named, header, declared⟩ := same.same_header
      have bound := isBound_push declared around
      cases shape : function.body with
      | block statements =>
          obtain ⟨statements', shape', inner⟩ := same.of_block shape
          rw [shape, FunctionBody.nodes] at body
          rw [shape', FunctionBody.nodes] at body'
          have beside : (functionContext settings scopes function).Beside
              (functionContext settings scopes' function') :=
            ⟨rfl, congrArg Place.function named,
              by simp only [Context.captures, functionContext, bound]; rfl⟩
          have start : work.start.Sound := Pass.sound_start along.sound.helpers
          have start' : work'.start.Sound := Pass.sound_start along.sound'.helpers
          rw [transformFunction_eq_of_block shape, transformFunction_eq_of_block shape']
          cases outcome :
              walkBlock (functionContext settings scopes function) [] statements work.start with
          | error reason =>
              obtain ⟨reason', outcome'⟩ := walkBlock_fails_of_sameOutside beside inner outcome
              rw [outcome']
              exact .failed
          | ok done =>
              obtain ⟨walked, pass⟩ := done
              obtain ⟨walked', pass', outcome', same, ended, sound, sound', known, known', parts,
                  parts'⟩ :=
                walked_of_sameOutside beside inner body body' start start' along.alike.start
                  (along.sound.later work.precedes_start) (along.sound'.later work'.precedes_start)
                  outcome
              rw [outcome']
              have step := Replacer.same_onStatements (lockstep_of_transformsAlike (induction fuel') bound)
                (onStatements_finish sound ended settings.tokens.result same)
                (charted_finish sound known parts) (charted_finish sound' known' parts')
              refine SameOutcome.bind (step _ _ ⟨ended.finishWork walked walked',
                known.later (Work.precedes_finishWork pass walked),
                known'.later (Work.precedes_finishWork pass' walked')⟩) fun after => ?_
              simp only [header]
              exact .given after
      | result expression =>
          obtain ⟨expression', shape', inner⟩ := same.of_result shape
          rw [shape, FunctionBody.nodes] at body
          rw [shape', FunctionBody.nodes] at body'
          rw [transformFunction_eq_of_result shape, transformFunction_eq_of_result shape']
          have lockstep : Replacer.Lockstep _ _ (charted names [] _) (charted names' [] _) _ _ :=
            lockstep_of_transformsAlike (induction fuel') bound
          have step := Replacer.same_onExpression lockstep (inner.mono functionsAmong_within)
            (body.function expression.contains) (body'.function expression'.contains)
          refine SameOutcome.bind (step work work' along) fun after => ?_
          simp only [header]
          exact .given after

end

/-- Both programs are rejected, or both become the same program and the same is counted. -/
inductive BecomeSame :
    Except Error (Program × Summary) → Except Error (Program × Summary) → Prop where
  | accepted {output : Program} {summary summary' : Summary} (counted : summary.Alike summary') :
      BecomeSame (.ok (output, summary)) (.ok (output, summary'))
  | rejected {reason reason' : Error} : BecomeSame (.error reason) (.error reason')

theorem becomeSame_of_sameOutcome {names names' : List String}
    {outcome outcome' : Except Error (List Statement × Work)}
    (same : SameOutcome names names' outcome outcome') :
    BecomeSame
      (do
        let (statements, work) ← outcome
        .ok (⟨statements⟩, work.summary))
      (do
        let (statements, work) ← outcome'
        .ok (⟨statements⟩, work.summary)) := by
  cases same with
  | given along => exact .accepted along.alike.summary
  | failed => exact .rejected

/--
What an environment removes has no influence but through names.  Programs that
are the same outside of what is removed, and in which the same names of the form
of fresh names occur, are rejected together, or they become the same program.
-/
theorem becomeSame_of_sameOutside {settings : Settings} {program program' : Program}
    (same : ProgramSameOutside settings program program')
    (names : ∀ name, Coined name → (name ∈ program.allNames ↔ name ∈ program'.allNames)) :
    BecomeSame (program.transform settings) (program'.transform settings) := by
  have along : (Work.ofProgram program).Along program.allNames program'.allNames
      (.ofProgram program') :=
    ⟨⟨names, rfl, rfl, rfl, rfl, rfl, rfl⟩, Work.sound_ofProgram program,
      Work.sound_ofProgram program'⟩
  have bound : (ScopeStack.ofProgram program').isBound settings.tokens.old =
      (ScopeStack.ofProgram program).isBound settings.tokens.old := by
    simp [ScopeStack.isBound, ScopeStack.ofProgram, same.marker]
  have beside : (topLevelContext settings (.ofProgram program)).Beside
      (topLevelContext settings (.ofProgram program')) := ⟨rfl, rfl, rfl⟩
  have start : Pass.Sound ⟨.ofProgram program, .empty, []⟩ := Pass.sound_start along.sound.helpers
  have start' : Pass.Sound ⟨.ofProgram program', .empty, []⟩ :=
    Pass.sound_start along.sound'.helpers
  rw [transform_eq, transform_eq]
  refine @becomeSame_of_sameOutcome program.allNames program'.allNames _ _ ?_
  rw [transformStatements_eq, transformStatements_eq]
  cases outcome : walkBlock (topLevelContext settings (.ofProgram program)) [] program.statements
      ⟨.ofProgram program, .empty, []⟩ with
  | error reason =>
      obtain ⟨reason', outcome'⟩ := walkBlock_fails_of_sameOutside beside same.statements outcome
      rw [outcome']
      exact .failed
  | ok done =>
      obtain ⟨walked, pass⟩ := done
      obtain ⟨walked', pass', outcome', inner, ended, _, _, known, known', parts, parts'⟩ :=
        walked_of_sameOutside beside same.statements (bounded_ofProgram program)
          (bounded_ofProgram program') start start' ⟨along.alike, rfl, rfl⟩ along.sound along.sound'
          outcome
      rw [outcome']
      have step := Replacer.same_onStatements
        (lockstep_of_transformsAlike (transformsAlike settings _ _ _ program'.functions.length) bound)
        inner parts parts'
      exact step _ _ ⟨ended.work, known, known'⟩

/-- A function with a postcondition on a value on entry, and with code for another environment. -/
def rememberingBeside (removed : Statement) : Program where
  statements :=
    [.declare
      ⟨some "f", ["x"],
        .block
          [.labeled "prod" removed,
            .labeled "post" (.evaluate
              (.binary .strictEq (.call (.identifier "old") [.identifier "x"])
                (.identifier "it"))),
            .giveBack (some (.identifier "x"))],
        false, false, false⟩]

/-- Names that could be handed out start with an underscore. -/
theorem head_of_coined {name : String} (coined : Coined name) :
    name.toList.head? = some '_' := by
  obtain ⟨rest, rfl⟩ := coined
  simp

theorem transform_rememberingBeside :
    BecomeSame ((rememberingBeside .empty).transform .extracting)
      ((rememberingBeside crowdedBody).transform .extracting) := by
  have spared : ∀ name ∈ (rememberingBeside .empty).allNames ++
      (rememberingBeside crowdedBody).allNames, name.toList.head? ≠ some '_' := by
    decide
  refine becomeSame_of_sameOutside ⟨by decide, ?_⟩ fun name coined =>
    iff_of_false
      (fun occurs => spared name (List.mem_append_left _ occurs) (head_of_coined coined))
      (fun occurs => spared name (List.mem_append_right _ occurs) (head_of_coined coined))
  have postcondition : Settings.extracting.roleOf "post" = .contract .postcondition := by decide
  have environment : Settings.extracting.roleOf "prod" = .environment := by decide
  have parameter : InBoth (rememberingBeside .empty).allNames
      (rememberingBeside crowdedBody).allNames "x" := ⟨by decide, by decide⟩
  refine .cons (.simple rfl rfl (.declare (.block (by decide) ?_))) .nil
  refine .cons (.removed environment (by decide)) (.cons (.contract postcondition rfl) ?_)
  exact .cons (.simple rfl rfl (.giveBack (.some (.identifier parameter)))) .nil

/-- A marker that is declared in removed code is taken for a variable, and nothing is captured. -/
example :
    ((rememberingBeside .empty).transform .extracting).toOption.map (·.2.oldBindings) = some 1 ∧
      ((rememberingBeside (.bindings .block [⟨"old", none⟩])).transform
        .extracting).toOption.map (·.2.oldBindings) = some 0 := by
  decide +kernel

end Covenant.Contract
