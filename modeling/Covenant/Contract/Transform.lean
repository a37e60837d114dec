import Covenant.Contract.Condition
import Covenant.Contract.OldValue
import Covenant.Contract.Settings
import Covenant.Contract.Weight

/-!
# Transforming contracts

A program with contracts becomes a program that checks them.  The statements
outside functions are walked first; then every function whose body is a block
is walked over its own statements, outer functions before the functions
nested in them, and nested functions as their enclosing function left them.

In a walk, labels are handled from left to right.  Preconditions and
assertions give way to their guards.  A postcondition is taken out; when the
walk is over, the returns of the function are routed through its checker.  An
invariant is taken out and its checker is wired into the statements around it
at once.  Environment labels are kept, removed, or dropped from their code.
-/

namespace Covenant.Contract

/-- What a transformation did. -/
structure Summary where
  /-- Functions that were walked. -/
  functions : Nat
  /-- Guards, those in checkers included. -/
  guards : Nat
  /-- Checkers that were declared. -/
  helpers : Nat
  /-- Constants for values on entry. -/
  oldBindings : Nat
  /-- Returns routed through a checker, once for each checker. -/
  returnsRouted : Nat
  /-- Labeled statements that were removed. -/
  stripped : Nat
  /-- Environment labels that were dropped from their code. -/
  inlined : Nat
  deriving DecidableEq, Repr

/-- The summary of a transformation that has done nothing yet. -/
def Summary.zero : Summary := ⟨0, 0, 0, 0, 0, 0, 0⟩

/-- What a transformation carries from one walk to the next. -/
structure Work where
  /-- The names that are still free. -/
  supply : NameSupply
  /-- The names of checkers; their functions are never walked. -/
  helperNames : List String
  summary : Summary

/-- What a walk carries along. -/
structure Pass where
  work : Work
  /-- The values on entry that contracts have referred to. -/
  captured : OldBindings
  /-- The checkers of postconditions in order. -/
  postconditions : List Checker

/-- A step of a transformation, which a contract may reject. -/
abbrev Transforming := StateT Work (Except Error)

/-- A step of a walk, which a contract may reject. -/
abbrev Walking := StateT Pass (Except Error)

/-- Whose statements are walked. -/
inductive Place where
  /-- Those outside functions. -/
  | topLevel
  /-- Those of a function, which may have a name. -/
  | function (name : Option String)
  deriving DecidableEq, Repr

/-- What a walk looks at but does not change. -/
structure Context where
  settings : Settings
  /-- The scopes around the statements, their own included. -/
  scopes : ScopeStack
  place : Place

namespace Context

/-- The name of the function whose statements are walked. -/
def owner (context : Context) : Option String :=
  match context.place with
  | .topLevel => none
  | .function name => name

/-- Whether contracts of a kind are left alone: outside functions only assertions count. -/
def ignores (context : Context) (kind : Kind) : Bool :=
  context.place == .topLevel && kind != .assertion

/-- Whether a label has a meaning. -/
def recognizes (context : Context) (statement : Statement) : Bool :=
  match statement.label? with
  | some label => context.settings.roleOf label != .other
  | none => false

/-- Whether values on entry can be referred to: in a function that does not bind the marker. -/
def captures (context : Context) : Bool :=
  context.place != .topLevel && !context.scopes.isBound context.settings.tokens.old

end Context

/-- Change the summary. -/
def count (change : Summary → Summary) : Walking Unit :=
  modify fun pass => { pass with work := { pass.work with summary := change pass.work.summary } }

/-- Replace references to values on entry in conditions. -/
def captureOldValues (context : Context) (found : List Condition) : Walking (List Condition) := do
  if context.captures then
    let pass ← get
    let replaced := found.mapM (Capture.replaceInCondition context.settings.tokens.old)
    let (found, capture) := replaced.run ⟨pass.captured, pass.work.supply, 0⟩
    set
      { pass with
        captured := capture.captured
        work := { pass.work with supply := capture.supply } }
    pure found
  else
    pure found

/-- The guards that replace a precondition or an assertion. -/
def placeGuards (site : Site) (body : Statement) : Walking (List Statement) := do
  let guards ← assemble site body
  count fun summary => { summary with guards := summary.guards + guards.length }
  pure guards

/-- The guards of a postcondition or an invariant. -/
def checkedGuards (context : Context) (site : Site) (body : Statement) :
    Walking (List Statement) := do
  let found ← prepare site body
  let found ← captureOldValues context found
  let guards ← guards site found
  count fun summary => { summary with guards := summary.guards + guards.length }
  pure guards

/-- A checker with a fresh name. -/
def makeChecker (site : Site) (role : String) (guards : List Statement) : Walking Checker := do
  let pass ← get
  let (name, supply) := pass.work.supply.generate (site.owner.getD "check" ++ role)
  let summary := pass.work.summary
  set
    { pass with
      work :=
        { supply := supply
          helperNames := name :: pass.work.helperNames
          summary := { summary with helpers := summary.helpers + 1 } } }
  pure ⟨name, guards⟩

/-- Remember a postcondition for the end of the walk. -/
def addPostcondition (checker : Checker) : Walking Unit :=
  modify fun pass => { pass with postconditions := pass.postconditions ++ [checker] }

mutual

/--
Walk over statements: those in `before` are done, those in `rest` are still
to be looked at.  An invariant changes both.
-/
def walkBlock (context : Context) (before rest : List Statement) : Walking (List Statement) :=
  match rest with
  | [] => pure before
  | .labeled label body :: tail =>
    match context.settings.roleOf label with
    | .contract kind =>
      if context.ignores kind then
        walkBlock context (before ++ [.labeled label body]) tail
      else if context.settings.stripsContracts then do
        count fun summary => { summary with stripped := summary.stripped + 1 }
        walkBlock context before tail
      else
        let site : Site := ⟨kind, context.owner⟩
        match kind with
        | .precondition | .assertion => do
          let guards ← placeGuards site body
          walkBlock context (before ++ guards) tail
        | .postcondition => do
          let guards ← checkedGuards context site body
          let checker ← makeChecker site "Postcondition" guards
          addPostcondition checker
          walkBlock context before tail
        | .invariant => do
          let guards ← checkedGuards context site body
          let checker ← makeChecker site "Invariant" guards
          let returns := countReturnsOfAll (before ++ tail)
          count fun summary =>
            { summary with returnsRouted := summary.returnsRouted + returns }
          let done :=
            checker.entry context.settings.tokens.result ++ checker.routeAll before
          let routed := checker.routeAll tail
          walkBlock context done (routed ++ checker.exitCheck (done ++ routed))
    | .environment =>
      match context.settings.actionFor label with
      | .keep => do
        let body ← walkSlot context body
        walkBlock context (before ++ [.labeled label body]) tail
      | .remove => do
        count fun summary => { summary with stripped := summary.stripped + 1 }
        walkBlock context before tail
      | .inline => do
        count fun summary => { summary with inlined := summary.inlined + 1 }
        walkBlock context before ((Statement.labeled label body).unlabeled ++ tail)
    | .other => do
      let body ← walkSlot context body
      walkBlock context (before ++ [.labeled label body]) tail
  | statement :: tail => do
    let statement ← walkChildren context statement
    walkBlock context (before ++ [statement]) tail
  termination_by 3 * weightOfAll rest + 1
  decreasing_by
    all_goals
      simp only [weightOfAll, weight, weightOfAll_append, weightOfAll_routeAll]
      grind [weight_pos, weightOfAll_exitCheck_le, weightOfAll_unlabeled_lt, weight]

/-- Walk over the statements nested in a statement, functions not entered. -/
def walkChildren (context : Context) (statement : Statement) : Walking Statement :=
  match statement with
  | .block statements => do
    let statements ← walkBlock context [] statements
    pure (.block statements)
  | .branch test consequent none => do
    let consequent ← walkSlot context consequent
    pure (.branch test consequent none)
  | .branch test consequent (some alternate) => do
    let consequent ← walkSlot context consequent
    let alternate ← walkSlot context alternate
    pure (.branch test consequent (some alternate))
  | .whileLoop test body => do
    let body ← walkSlot context body
    pure (.whileLoop test body)
  | .doWhileLoop body test => do
    let body ← walkSlot context body
    pure (.doWhileLoop body test)
  | .forLoop init test update body => do
    let body ← walkSlot context body
    pure (.forLoop init test update body)
  | .labeled label body => do
    let body ← walkSlot context body
    pure (.labeled label body)
  | statement => pure statement
  termination_by 3 * weight statement
  decreasing_by
    all_goals
      simp only [weight, weightOfAlternate]
      omega

/--
Walk over a statement that stands alone in its place.  If its label has a
meaning it is put into a block first, so that there is a list around it.
-/
def walkSlot (context : Context) (slot : Statement) : Walking Statement :=
  if context.recognizes slot then do
    let statements ← walkBlock context [] [slot]
    pure (.block statements)
  else
    walkChildren context slot
  termination_by 3 * weight slot + 2
  decreasing_by
    · simp only [weightOfAll]
      omega
    · omega

end

/-- Route the returns of a function through the checker of one postcondition. -/
def applyPostcondition (statements : List Statement) (checker : Checker) : List Statement :=
  checker.appendExitCheck (checker.routeAll statements)

/-- How many returns the postconditions of a function route. -/
def countRouted : List Statement → List Checker → Nat
  | _, [] => 0
  | statements, checker :: rest =>
    countReturnsOfAll statements + countRouted (applyPostcondition statements checker) rest

/-- What is declared at the top of a function. -/
def prologue (parameter : String) (pass : Pass) : List Statement :=
  pass.postconditions.map (·.declaration parameter) ++ pass.captured.declarations

/-- The statements of a function after its walk, with their postconditions. -/
def finish (parameter : String) (pass : Pass) (statements : List Statement) : List Statement :=
  prologue parameter pass ++ pass.postconditions.foldl applyPostcondition statements

/-- What is known after a function has been finished. -/
def finishWork (pass : Pass) (statements : List Statement) : Work :=
  let summary := pass.work.summary
  { pass.work with
    summary :=
      { summary with
        oldBindings := summary.oldBindings + pass.captured.bindings.length
        returnsRouted :=
          summary.returnsRouted + countRouted statements pass.postconditions } }

/-- Walk over the statements outside functions. -/
def transformTopLevel (settings : Settings) (scopes : ScopeStack) (statements : List Statement) :
    Transforming (List Statement) := do
  let work ← get
  let (statements, pass) ←
    (walkBlock ⟨settings, scopes, .topLevel⟩ [] statements).run ⟨work, .empty, []⟩
  set pass.work
  pure statements

/-- Walk over the statements of a function. -/
def transformBlock (settings : Settings) (scopes : ScopeStack) (name : Option String)
    (statements : List Statement) : Transforming (List Statement) := do
  let work ← get
  let summary := work.summary
  let work := { work with summary := { summary with functions := summary.functions + 1 } }
  let (statements, pass) ←
    (walkBlock ⟨settings, scopes, .function name⟩ [] statements).run ⟨work, .empty, []⟩
  set (finishWork pass statements)
  pure (finish settings.tokens.result pass statements)

/-- Whether a statement declares checkers and nothing else. -/
def declaresHelpers (helperNames : List String) : Statement → Bool
  | .bindings _ declarators =>
    declarators.all fun declarator => helperNames.contains declarator.name
  | _ => false

/-- Transform the functions of statements, but neither checkers nor functions in functions. -/
def nestedFunctions (transform : Function → Transforming Function) : Replacer Transforming where
  statement statement := do
    let work ← get
    pure (if declaresHelpers work.helperNames statement then some statement else none)
  expression _ := pure none
  function function := some <$> transform function

/--
Transform a function: its own statements first, then the functions nested in
it.  The fuel bounds the nesting of functions.
-/
def transformFunction (settings : Settings) :
    (fuel : Nat) → ScopeStack → Function → Transforming Function
  | 0, _, function => pure function
  | fuel + 1, scopes, function => do
    let inner := scopes.push function.scope
    let body ←
      match function.body with
      | .block statements => do
        let statements ← transformBlock settings inner function.name statements
        pure (FunctionBody.block statements)
      | .result expression => pure (.result expression)
    let body ←
      (nestedFunctions (transformFunction settings fuel inner)).onFunctionBody body
    pure { function with body := body }

/-- Transform the statements of a program whose functions are nested at most `fuel` deep. -/
def transformStatements (settings : Settings) (fuel : Nat) (scopes : ScopeStack)
    (statements : List Statement) : Transforming (List Statement) := do
  let statements ← transformTopLevel settings scopes statements
  (nestedFunctions (transformFunction settings fuel scopes)).onStatements statements

end Covenant.Contract

namespace Covenant

open Contract in
/-- Transform the contracts of a program, or reject the first one that cannot be accepted. -/
def Program.transform (settings : Settings) (program : Program) :
    Except Contract.Error (Program × Summary) := do
  let work : Work := ⟨.ofProgram program, [], .zero⟩
  let (statements, work) ←
    (transformStatements settings program.functions.length (.ofProgram program)
      program.statements).run work
  pure (⟨statements⟩, work.summary)

end Covenant
