import Covenant.Proofs.Rejection
import Covenant.Proofs.Weaving
import Covenant.Proofs.WovenSquare

/-!
# Functions with and without their contracts

A function of a program can be transformed with its contracts, and it can be
transformed without them.  The first result is woven from the second one, if
the contracts state no calls, and so are the functions nested in them.
-/

namespace Covenant.Contract

open Machine
open Woven (itself)

/-! ## Walks that remember nothing -/

/-- No checker was made, and nothing was remembered for a function. -/
structure Pass.Resumes (earlier later : Pass) : Prop where
  helperNames : later.work.helperNames = earlier.work.helperNames
  captured : later.captured = earlier.captured
  postconditions : later.postconditions = earlier.postconditions

theorem Pass.Resumes.refl (pass : Pass) : pass.Resumes pass :=
  ⟨rfl, rfl, rfl⟩

theorem Pass.Resumes.trans
    {first second third : Pass} (before : first.Resumes second) (after : second.Resumes third) :
    first.Resumes third :=
  ⟨after.helperNames.trans before.helperNames, after.captured.trans before.captured,
    after.postconditions.trans before.postconditions⟩

theorem Pass.resumes_counted (pass : Pass) (change : Summary → Summary) :
    pass.Resumes (pass.counted change) :=
  ⟨rfl, rfl, rfl⟩

/-- No contract needs a checker. -/
def Context.NeedsNoCheckers (context : Context) : Prop :=
  context.settings.stripsContracts = false → ∀ kind, context.ignores kind = false →
    kind = .precondition ∨ kind = .assertion

theorem needsNoCheckers_stripping (context : Context) : context.stripping.NeedsNoCheckers := by
  intro keeps
  cases keeps

theorem needsNoCheckers_topLevel (settings : Settings) (scopes : ScopeStack) :
    (topLevelContext settings scopes).NeedsNoCheckers := by
  intro _ kind counts
  cases kind <;> simp [topLevelContext, Context.ignores] at counts ⊢

/-- A walk remembers nothing if no contract needs a checker. -/
theorem Walks.resumes
    {context : Context} {stretch : Stretch} {pass after : Pass} {result : List Statement}
    (none : context.NeedsNoCheckers) (walks : Walks context stretch pass result after) :
    pass.Resumes after := by
  induction walks with
  | done before pass => exact .refl pass
  | simple _ => exact .refl _
  | ignored _ _ _ induction => exact induction
  | stripped _ _ _ _ induction | removed _ _ _ induction | inlined _ _ _ induction =>
      exact (Pass.resumes_counted _ _).trans induction
  | inPlace _ _ _ _ assembles _ induction =>
      obtain ⟨_, _, _, _, rfl⟩ := placeGuards_eq_ok assembles
      exact (Pass.resumes_counted _ _).trans induction
  | postcondition _ counts keeps _ _ _ _ =>
      rcases none keeps _ counts with absurd | absurd <;> cases absurd
  | invariant _ counts keeps _ _ _ _ =>
      rcases none keeps _ counts with absurd | absurd <;> cases absurd
  | kept _ _ _ _ first second | other _ _ _ first second | unlabeled _ _ _ first second
  | branches _ _ first second => exact first.trans second
  | block _ induction | labeled _ induction | branch _ induction | whileLoop _ induction
  | doWhileLoop _ induction | forLoop _ induction | wrapped _ _ induction
  | bare _ _ induction => exact induction

/-- At the start of a walk nothing has been remembered. -/
theorem Pass.mute_empty (work : Work) : Pass.Mute ⟨work, .empty, []⟩ where
  captured := by
    intro binding member
    cases member
  checkers := by
    intro checker member
    cases member

/-! ## How functions correspond -/

/-- Functions that are entered alike and know no names but those of a program. -/
structure Acquainted (program : Program) (related : Function → Function → Prop) : Prop where
  alike {left right : Function} : related left right → Alike left right
  names {left right : Function} {name : String} :
    related left right → name ∈ left.name.toList ++ left.parameters → name ∈ program.allNames

/-- A function of a program at some depth, whose contracts state no calls. -/
structure Mild
    (settings : Settings) (program : Program) (fuel : Nat) (scopes : ScopeStack)
    (function : Function) : Prop where
  bounded : BoundedFunction fuel (· ∈ program.allNames) function
  free : CallFree settings program.allNames scopes function

/-- What becomes of a function with its contracts, and what becomes of it without them. -/
inductive Counterparts (settings : Settings) (program : Program) (final : Work) :
    Function → Function → Prop where
  | transformed {fuel : Nat} {scopes : ScopeStack} {source left right : Function}
      {work after work' after' : Work}
      (mild : Mild settings program fuel scopes source)
      (early : (Work.ofProgram program).Precedes work)
      (checked : transformFunction settings fuel scopes source work = .ok (left, after))
      (late : after.Precedes final)
      (early' : (Work.ofProgram program).Precedes work')
      (stripped : transformFunction settings.stripping fuel scopes source work' =
        .ok (right, after')) :
      Counterparts settings program final left right

/-- A transformation changes nothing of a function but its body. -/
theorem exists_body_of_transformFunction
    {settings : Settings} {fuel : Nat} {scopes : ScopeStack} {source target : Function}
    {work after : Work}
    (outcome : transformFunction settings fuel scopes source work = .ok (target, after)) :
    ∃ body, target = { source with body := body } := by
  cases fuel with
  | zero =>
      obtain ⟨rfl, _⟩ := step_pure_eq_ok.mp outcome
      exact ⟨source.body, by cases source; rfl⟩
  | succ fuel =>
      cases shape : source.body with
      | block statements =>
          obtain ⟨_, _, final, _, _, rfl⟩ := (transformFunction_block shape).mp outcome
          exact ⟨.block final, rfl⟩
      | result expression =>
          obtain ⟨final, _, rfl⟩ := (transformFunction_result shape).mp outcome
          exact ⟨.result final, rfl⟩

section

variable {settings : Settings} {program : Program} {fuel : Nat} {scopes : ScopeStack}

/-- The names of a bounded function are known. -/
theorem mem_allNames_of_bounded
    {function : Function} {name : String}
    (bounded : BoundedFunction fuel (· ∈ program.allNames) function)
    (member : name ∈ function.name.toList ++ function.parameters) : name ∈ program.allNames :=
  bounded.names (.function function)
    (by rw [Function.nodes_true]; exact List.mem_cons_self) name member

theorem acquainted_mild :
    Acquainted program fun left right => left = right ∧ Mild settings program fuel scopes left where
  alike := by
    rintro left _ ⟨rfl, _⟩
    exact ⟨rfl, rfl, rfl, rfl, rfl⟩
  names related := mem_allNames_of_bounded related.2.bounded

theorem acquainted_counterparts (final : Work) :
    Acquainted program (Counterparts settings program final) where
  alike := by
    rintro _ _ ⟨_, _, checked, _, _, stripped⟩
    obtain ⟨_, rfl⟩ := exists_body_of_transformFunction checked
    obtain ⟨_, rfl⟩ := exists_body_of_transformFunction stripped
    exact ⟨rfl, rfl, rfl, rfl, rfl⟩
  names := by
    rintro _ _ _ ⟨mild, _, checked, _, _, _⟩ member
    obtain ⟨_, rfl⟩ := exists_body_of_transformFunction checked
    exact mem_allNames_of_bounded mild.bounded member

end

section

variable {program : Program} {final : Work}

/-- The names of checkers were free. -/
theorem offers_of_checker
    (late : (Work.ofProgram program).Precedes final) {name : String}
    (checker : name ∈ final.helperNames) : (NameSupply.ofProgram program).Offers name := by
  rcases late.named name checker with absurd | out
  · cases absurd
  · exact out.offered

/--
Programs that are made of one program know its names and all names that are
not coined; the names of checkers are those that have been used in the end.
-/
def correspondence
    (late : (Work.ofProgram program).Precedes final) {related : Function → Function → Prop}
    (acquainted : Acquainted program related) : Correspondence where
  function := related
  alike := acquainted.alike
  visible name := ¬ (NameSupply.ofProgram program).Offers name
  receiver offers := by
    obtain ⟨rest, equal⟩ := offers.coined
    have letters := congrArg String.toList equal
    simp at letters
  named given equal offers :=
    offers.free (acquainted.names given (List.mem_append_left _ (by simp [equal])))
  parameter given member offers :=
    offers.free (acquainted.names given (List.mem_append_right _ member))
  checker name := name ∈ final.helperNames
  apart member visible := visible (offers_of_checker late member)

variable (settings : Settings) (late : (Work.ofProgram program).Precedes final)

/-- Functions of the program correspond to themselves. -/
abbrev sourceCode (fuel : Nat) (scopes : ScopeStack) : Correspondence :=
  correspondence late (@acquainted_mild settings program fuel scopes)

/-- Functions with contracts correspond to functions without them. -/
abbrev outputCode : Correspondence :=
  correspondence late (@acquainted_counterparts settings program final)

variable {settings late} {fuel : Nat} {scopes : ScopeStack}

/-! ## Statements of the program -/

/-- Bounded parts whose functions state no calls correspond to themselves. -/
theorem completes_itself :
    (functions program.allNames).Completes
      (Parts.within (Bounded fuel (· ∈ program.allNames)) (· ∈ program.allNames))
      (CallFree settings program.allNames scopes)
      (itself (sourceCode settings late fuel scopes)) where
  expression {expression} bounded each := by
    refine Exchange.OnExpression.self expression ?_ ?_
    · exact fun node member name among offers => offers.free (bounded.names node member name among)
    · exact fun function member =>
        ⟨rfl, bounded.function expression.contains function member, each function member⟩
  function {function} bounded each := ⟨rfl, bounded, each function List.mem_cons_self⟩
  declared {declarators} given each := by
    cases declarators with
    | nil => exact .nil
    | cons declarator rest =>
        have introduced : introduces program.allNames (declarator :: rest) = true := by
          have known := given.2 declarator.name List.mem_cons_self
          simp [introduces, known]
        simp only [functions, introduced, if_true] at each
        refine Exchange.OnDeclarators.self _ ?_ ?_ ?_
        · exact fun name member offers => offers.free (given.2 name member)
        · exact fun node member name among offers =>
            offers.free (given.1.names node member name among)
        · exact fun function member =>
            ⟨rfl, given.1.function (containsOfDeclarators _) function member,
              each function member⟩
  labeled _ _ := rfl

/-- What a walk makes of statements is woven from what the walk without contracts makes of them. -/
theorem woven_of_walks
    {context : Context} {statements walked others : List Statement} {pass after start last : Pass}
    (keeps : context.settings.stripsContracts = false)
    (bounded : Bounded fuel (· ∈ program.allNames) (nodesOfStatements true statements))
    (free : context.StatesNoCallsIn statements)
    (inner : ∀ function ∈
        (survivors context.settings context.place program.allNames).ofStatements statements,
      CallFree settings program.allNames scopes function)
    (mute : pass.Mute) (walks : Walks context (.list [] statements) pass walked after)
    (before : after.work.Precedes final)
    (bare : Walks context.stripping (.list [] statements) start others last) :
    after.Mute ∧ Woven.OnStatements (sourceCode settings late fuel scopes) walked others := by
  have quiet := quietAll_of_survivors keeps
    (@completes_itself program final settings late fuel scopes) statements ((Bounded.inherited _ _).withinStatements statements bounded) inner free
  have helpers : ∀ name ∈ after.work.helperNames,
      (sourceCode settings late fuel scopes).checker name := fun _ member => before.helpers member
  obtain ⟨mute, found, reached, again, woven⟩ :=
    walks.weaves helpers keeps (.refl after) mute id [] [] statements start Woven.passes_id
      (by simp) .nil (by rw [mapReturnsOfAll_id, checksOf, List.map_nil, List.append_nil]) quiet
  -- There is just one walk that removes contracts.
  have same := (walks_list_iff.mp again).symm.trans (walks_list_iff.mp bare)
  cases same
  exact ⟨mute, woven⟩

/-! ## Finishing a function -/

/-- Postconditions are woven into the statements of a function. -/
theorem woven_applyPostconditions
    {code : Correspondence} (checkers : List Checker) :
    ∀ {statements others : List Statement}, (∀ checker ∈ checkers, code.checker checker.name) →
      Woven.OnStatements code statements others →
        Woven.OnStatements code (checkers.foldl applyPostcondition statements) others := by
  induction checkers with
  | nil => exact fun _ woven => woven
  | cons checker rest induction =>
      intro statements others named woven
      have own := named checker List.mem_cons_self
      refine induction (fun other member => named other (List.mem_cons_of_mem _ member)) ?_
      obtain ⟨ends, among, exits⟩ := exitCheck_eq_checksOf checker (checker.routeAll statements)
      rw [applyPostcondition, Checker.appendExitCheck, exits]
      refine (Woven.onStatements_routeAll own woven).follow fun statement member => ?_
      obtain ⟨other, listed, rfl⟩ := List.mem_map.mp member
      rw [List.mem_singleton.mp (among listed)]
      exact .check own

/-- A finished function is woven from what its statements are woven from. -/
theorem woven_finish
    {code : Correspondence} {pass : Pass} {parameter : String}
    {statements others : List Statement} (mute : pass.Mute)
    (named : ∀ checker ∈ pass.postconditions, code.checker checker.name)
    (hidden : ∀ binding ∈ pass.captured.bindings,
      ¬ code.visible binding.name ∧ ¬ code.checker binding.name)
    (woven : Woven.OnStatements code statements others) :
    Woven.OnStatements code (finish parameter pass statements) others := by
  refine (woven_applyPostconditions pass.postconditions named woven).precede fun statement member => ?_
  rcases List.mem_append.mp member with declared | constant
  · obtain ⟨checker, among, rfl⟩ := List.mem_map.mp declared
    exact .declaration parameter (named checker among) (mute.checkers checker among)
  · obtain ⟨binding, among, rfl⟩ := List.mem_map.mp constant
    exact .constant (hidden binding among).1 (hidden binding among).2
      (mute.captured binding among)

/-! ## Transforming nested functions -/

/-- What declares checkers declares names that were free. -/
theorem offers_of_declaresHelpers
    {state : Work} {kind : DeclarationKind} {declarators : List Declarator} {name : String}
    (begins : (Work.ofProgram program).Precedes state)
    (declares : declaresHelpers state.helperNames (.bindings kind declarators) = true)
    (member : name ∈ namesOfDeclarators declarators) :
    (NameSupply.ofProgram program).Offers name := by
  obtain ⟨declarator, among, rfl⟩ := List.mem_map.mp member
  exact offers_of_checker begins
    (List.contains_iff_mem.mp (List.all_eq_true.mp declares declarator among))

/-- Transforming functions that correspond to themselves makes counterparts of them. -/
theorem squares_nested
    {earliest latest earliest' latest' : Work}
    (early : (Work.ofProgram program).Precedes earliest) (before : latest.Precedes final)
    (early' : (Work.ofProgram program).Precedes earliest') :
    Woven.Squares (sourceCode settings late fuel scopes)
      (nestedExchange (transformFunction settings fuel scopes) earliest latest)
      (nestedExchange (transformFunction settings.stripping fuel scopes) earliest' latest')
      (outputCode settings late) where
  visible := Iff.rfl
  checker := Iff.rfl
  function := by
    rintro first _ first' second' ⟨rfl, mild⟩ ⟨work, after, begins, checked, ends⟩
      ⟨work', after', begins', stripped, _⟩
    exact .transformed mild (early.trans begins) checked (ends.trans before)
      (early'.trans begins') stripped
  onlyLeft := onlyFunctions_nestedExchange _ _ _
  onlyRight := onlyFunctions_nestedExchange _ _ _
  passedLeft := by
    rintro kind declarators target ⟨_, state, begins, _, declares⟩ name member visible
    exact visible (offers_of_declaresHelpers (early.trans begins) declares member)
  passedRight := by
    rintro kind declarators target ⟨_, state, begins, _, declares⟩ name member visible
    exact visible (offers_of_declaresHelpers (early'.trans begins) declares member)
  givesBack := by
    rintro checker parameter plain other ⟨state, after, _, outcome, _⟩
    obtain ⟨last, same, _⟩ := Checker.fixed plain parameter fuel scopes state
    rw [same] at outcome
    cases outcome
    rfl

/-- Woven statements are still woven when the functions in them are transformed. -/
theorem woven_of_nested
    {statements others finished bare : List Statement} {work after work' after' : Work}
    (early : (Work.ofProgram program).Precedes work)
    (checked : (nestedFunctions (transformFunction settings fuel scopes)).onStatements statements
      work = .ok (finished, after))
    (before : after.Precedes final) (early' : (Work.ofProgram program).Precedes work')
    (stripped : (nestedFunctions (transformFunction settings.stripping fuel scopes)).onStatements
      others work' = .ok (bare, after'))
    (woven : Woven.OnStatements (sourceCode settings late fuel scopes) statements others) :
    Woven.OnStatements (outputCode settings late) finished bare :=
  woven.square (squares_nested early before early')
    (nestedFunctions_onStatements (transformFunction_advances settings fuel scopes) checked).2
    (nestedFunctions_onStatements (transformFunction_advances _ fuel scopes) stripped).2

/-- Work in which a walk over a function starts is in order. -/
theorem sound_start_of_precedes
    {work : Work} (early : (Work.ofProgram program).Precedes work) : work.start.Sound :=
  @Pass.sound_start work.entering
    ((Work.sound_ofProgram program).later (early.trans work.precedes_start)).helpers

/-- The constants that a walk remembers are hidden, and none of them is a checker. -/
theorem hidden_of_walks
    {context : Context} {statements walked : List Statement} {work : Work} {pass : Pass}
    (early : (Work.ofProgram program).Precedes work)
    (walks : Walks context (.list [] statements) work.start walked pass)
    (before : pass.work.Precedes final) :
    ∀ binding ∈ pass.captured.bindings,
      (NameSupply.ofProgram program).Offers binding.name ∧ binding.name ∉ final.helperNames := by
  intro binding member
  have sound := walks.sound (sound_start_of_precedes early)
  rcases walks.precedes.capturing binding member with absurd | out
  · cases absurd
  · refine ⟨((early.trans work.precedes_start).handedOut out (.refl _)).offered, fun helper => ?_⟩
    rcases before.named _ helper with early | late
    · exact (sound.captured binding member).2.1 early
    · exact late.free (sound.captured binding member).1

/-- A function that is walked over and finished is woven from what a bare walk makes of it. -/
theorem woven_of_function
    (keeps : settings.stripsContracts = false) {source : Function} {statements : List Statement}
    (bounded : Bounded fuel (· ∈ program.allNames) (nodesOfStatements true statements))
    (own : (functionContext settings scopes source).StatesNoCallsIn statements)
    (inner : ∀ nested ∈
        (survivors settings (.function source.name) program.allNames).ofStatements statements,
      CallFree settings program.allNames (scopes.push source.scope) nested)
    {walked others : List Statement} {work : Work} {pass start last : Pass}
    (early : (Work.ofProgram program).Precedes work)
    (walks : Walks (functionContext settings scopes source) (.list [] statements) work.start
      walked pass)
    (before : pass.work.Precedes final)
    (bare : Walks (functionContext settings scopes source).stripping (.list [] statements) start
      others last) :
    Woven.OnStatements (sourceCode settings late fuel (scopes.push source.scope))
      (finish settings.tokens.result pass walked) others := by
  obtain ⟨mute, woven⟩ := @woven_of_walks program final settings late _ _ _ _ _ _ _ _ _ _ keeps
    bounded own inner (Pass.mute_empty work.entering) walks before bare
  refine woven_finish mute ?_ ?_ woven
  · intro checker member
    have sound := walks.sound (sound_start_of_precedes early)
    exact before.helpers (sound.checkers checker member).1
  · intro binding member
    obtain ⟨offered, apart⟩ := hidden_of_walks early walks before binding member
    exact ⟨not_not_intro offered, apart⟩

/-- Statements without postconditions and constants are finished. -/
theorem finish_of_resumes
    {work : Work} {pass : Pass} (resumes : work.start.Resumes pass) (parameter : String)
    (statements : List Statement) : finish parameter pass statements = statements := by
  have captured : pass.captured = .empty := resumes.captured
  have postconditions : pass.postconditions = [] := resumes.postconditions
  simp [finish, prologue, captured, postconditions, OldBindings.declarations, OldBindings.empty]

/-- What becomes of a function with its contracts is woven from what becomes of it without them. -/
theorem woven_of_counterparts
    (keeps : settings.stripsContracts = false) {left right : Function}
    (counterparts : Counterparts settings program final left right) :
    Woven.OnBody (outputCode settings late) left.body right.body := by
  obtain @⟨fuel, scopes, source, _, _, work, after, work', after', mild, early, checked, before,
    early', stripped⟩ := counterparts
  cases fuel with
  | zero =>
      have small := mild.bounded.size
      rw [Function.nodes_true, functionsOf_cons_function, List.length_cons] at small
      omega
  | succ fuel =>
      have body := mild.bounded.body
      cases mild.free with
      | @block _ _ statements shape own inner =>
          rw [shape, FunctionBody.nodes] at body
          obtain ⟨walked, pass, finished, walks, nested, rfl⟩ :=
            (transformFunction_block shape).mp checked
          obtain ⟨others, last, bare, walks', nested', rfl⟩ :=
            (transformFunction_block shape).mp stripped
          change Walks (functionContext settings scopes source).stripping _ _ _ _ at walks'
          rw [finish_of_resumes (walks'.resumes (needsNoCheckers_stripping _))] at nested'
          have finishes := Work.precedes_finishWork pass walked
          have rest :=
            (nestedFunctions_onStatements (transformFunction_advances settings fuel _) nested).1
          refine .block (woven_of_nested ?_ nested before ?_ nested' ?_)
          · exact ((early.trans work.precedes_start).trans walks.precedes.work).trans finishes
          · exact ((early'.trans work'.precedes_start).trans walks'.precedes.work).trans
              (Work.precedes_finishWork last others)
          · exact woven_of_function keeps body own inner early walks
              ((finishes.trans rest).trans before) walks'
      | result shape inner =>
          rw [shape, FunctionBody.nodes] at body
          obtain ⟨finished, nested, rfl⟩ := (transformFunction_result shape).mp checked
          obtain ⟨bare, nested', rfl⟩ := (transformFunction_result shape).mp stripped
          have given := (@completes_itself program final settings late fuel
            (scopes.push source.scope)).expression body inner
          exact .result (given.square (squares_nested early before early').exchange
            (nestedFunctions_onExpression (transformFunction_advances settings fuel _) nested).2
            (nestedFunctions_onExpression (transformFunction_advances _ fuel _) nested').2)

/-! ## A program with and without its contracts -/

/-- What becomes of a program with its contracts is woven from what becomes of it without them. -/
theorem exists_woven_of_transform
    {output : Program} {summary : Summary} (keeps : settings.stripsContracts = false)
    (free : StatesNoCalls settings program)
    (outcome : program.transform settings = .ok (output, summary)) :
    ∃ last : Work, ∃ late : (Work.ofProgram program).Precedes last, ∃ bare stripped,
      program.transform settings.stripping = .ok (bare, stripped) ∧
        Woven.OnStatements (outputCode settings late) output.statements bare.statements := by
  obtain ⟨last, statements, _⟩ := transform_eq_ok.mp outcome
  obtain ⟨walked, pass, walks, nested⟩ := transformStatements_eq_ok.mp statements
  obtain ⟨bare, stripped, outcome'⟩ :=
    @exists_transform_of_strips settings.stripping rfl program
  obtain ⟨last', statements', _⟩ := transform_eq_ok.mp outcome'
  obtain ⟨others, pass', walks', nested'⟩ := transformStatements_eq_ok.mp statements'
  have rest :=
    (nestedFunctions_onStatements (transformFunction_advances settings _ _) nested).1
  have late : (Work.ofProgram program).Precedes last := walks.precedes.work.trans rest
  obtain ⟨_, woven⟩ := @woven_of_walks program last settings late _ _ _ _ _ _ _ _ _ _ keeps
    (bounded_ofProgram program) free.own free.inner (Pass.mute_empty _) walks rest walks'
  exact ⟨last, late, bare, stripped, outcome',
    woven_of_nested walks.precedes.work nested (.refl last) walks'.precedes.work nested' woven⟩

end

end Covenant.Contract
