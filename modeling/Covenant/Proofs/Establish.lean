import Covenant.Proofs.Idempotence

/-!
# What holds of the statements of every function

A requirement on the statements of functions, for functions as they are written
and for finished ones.  It is enough to look at one function at a time: at what
a walk over its statements and their finishing make of the requirement, and at
the functions of checkers.  Then every function of a transformed program meets
it, at every depth.
-/

namespace Covenant.Contract

/-- The statements of a function meet a requirement, if it has a block. -/
def Own (requirement : List Statement → Prop) (function : Function) : Prop :=
  ∀ statements, function.body = .block statements → requirement statements

/-- Statements that meet one requirement are finished to statements that meet another one. -/
structure Establishes (settings : Settings) (written finished : List Statement → Prop) :
    Prop where
  checker {checker : Checker} (parameter : String) :
    (∀ guard ∈ checker.guards, IsPlainGuard true guard) → finished (checker.statements parameter)
  finish {scopes : ScopeStack} {function : Function} {work : Work} {pass : Pass}
    {statements walked : List Statement} :
    work.helperNames ⊆ work.supply.taken →
      Walks (functionContext settings scopes function) (.list [] statements) work.start walked
          pass →
        written statements → finished (finish settings.tokens.result pass walked)
  exchange {transform : Function → Transforming Function} {earliest latest : Work}
    {source target : List Statement} :
    (nestedExchange transform earliest latest).OnStatements source target →
      finished source → finished target

/-- Nodes that are bounded, with functions that meet a requirement. -/
structure Required (size : Nat) (known : String → Prop) (requirement : List Statement → Prop)
    (nodes : List Node) : Prop where
  bounded : Bounded size known nodes
  functions : AllFunctions (Own requirement) nodes

/-- Parts of nodes meet the requirements on the nodes. -/
theorem Required.inherited (size : Nat) (known : String → Prop)
    (requirement : List Statement → Prop) :
    Inherited (Required size known requirement) known where
  part sublist required :=
    ⟨required.bounded.sublist sublist,
      fun function member => required.functions function ((sublist.filterMap _).subset member)⟩
  names required := required.bounded.names

/-- What is required of the nodes of a function is required of those inside it. -/
theorem Required.body
    {size : Nat} {known : String → Prop} {requirement : List Statement → Prop}
    {function : Function} (required : Required (size + 1) known requirement (function.nodes true)) :
    Required size known requirement (function.body.nodes true) := by
  refine ⟨required.bounded.body, fun inner member => required.functions inner ?_⟩
  rw [Function.nodes_true, functionsOf_cons_function]
  exact List.mem_cons_of_mem _ member

/-- A finished function: it is fixed, and it and the functions inside it meet a requirement. -/
structure Finished (settings : Settings) (requirement : List Statement → Prop)
    (function : Function) : Prop where
  fixed : Fixed settings function
  deeply : Deeply (Own requirement) function

section

variable {settings : Settings} {written finished : List Statement → Prop}

/-- A function with a block is finished if its statements and the functions in them are. -/
theorem deeply_of_block
    {function : Function} {statements : List Statement}
    (shape : function.body = .block statements) (own : finished statements)
    (inner : (Parts.all (Deeply (Own finished))).OnStatements statements) :
    Deeply (Own finished) function := by
  refine deeply_iff.mpr ⟨?_, ?_⟩
  · intro others equal
    rw [shape] at equal
    cases equal
    exact own
  · rw [shape, FunctionBody.nodes]
    exact (Parts.onStatements_all statements).mp inner

/-- Transforming a finished function leaves it finished. -/
theorem Finished.again
    {fuel : Nat} {scopes : ScopeStack} {source target : Function} {work after : Work}
    (given : Finished settings finished source)
    (outcome : transformFunction settings fuel scopes source work = .ok (target, after)) :
    Finished settings finished target := by
  obtain ⟨other, same, _⟩ := given.fixed fuel scopes work
  rw [same] at outcome
  cases outcome
  exact given

variable (establishes : Establishes settings written finished)

include establishes

theorem Establishes.ofCheckers : OfCheckers (Finished settings finished) := by
  intro checker plain parameter
  refine ⟨fixed_checker plain parameter, ?_⟩
  exact @deeply_of_block _ _ (checker.statements parameter) rfl
    (establishes.checker parameter plain) (checker.onStatements_all plain parameter _)

/-- What a transformation makes of a function is finished. -/
theorem Establishes.transformed (known : String → Prop) :
    ∀ (fuel : Nat) (scopes : ScopeStack) {source target : Function} {work after : Work},
      Required fuel known written (source.nodes true) → work.Sound known →
        transformFunction settings fuel scopes source work = .ok (target, after) →
          Finished settings finished target := by
  intro fuel
  induction fuel with
  | zero =>
      intro scopes source target work after required
      have small := required.bounded.size
      rw [Function.nodes_true, functionsOf_cons_function, List.length_cons] at small
      omega
  | succ fuel induction =>
      intro scopes source target work after required sound outcome
      refine ⟨fixed_of_transformFunction settings known _ scopes required.bounded sound outcome, ?_⟩
      have body := required.body
      have own := required.functions source (by
        rw [Function.nodes_true, functionsOf_cons_function]
        exact List.mem_cons_self)
      cases shape : source.body with
      | block statements =>
          obtain ⟨walked, pass, final, walks, nested, rfl⟩ :=
            (transformFunction_block shape).mp outcome
          have start := @Pass.sound_start work.entering sound.helpers
          rw [shape, FunctionBody.nodes] at body
          have walkedParts := walks.parts
            (between_admits establishes.ofCheckers settings.tokens.result pass) start (.refl pass)
            ((Required.inherited fuel known written).onStatements statements body)
          have finishSound : (finishWork pass walked).Sound known :=
            sound.later ((work.precedes_start.trans walks.precedes.work).trans
              (Work.precedes_finishWork pass walked))
          obtain ⟨_, related⟩ :=
            nestedFunctions_onStatements (transformFunction_advances settings fuel _) nested
          have finalParts := Parts.onStatements_of_exchange
            (between_carried finishSound (induction _) Finished.again) related
            (between_finish establishes.ofCheckers (walks.sound start) walkedParts)
          refine deeply_of_block rfl ?_ (Parts.OnStatements.imp
            (Parts.all_implies fun _ given => given.deeply) final finalParts)
          exact establishes.exchange related
            (establishes.finish sound.helpers walks (own statements shape))
      | result expression =>
          obtain ⟨final, nested, rfl⟩ := (transformFunction_result shape).mp outcome
          obtain ⟨_, related⟩ :=
            nestedFunctions_onExpression (transformFunction_advances settings fuel _) nested
          rw [shape, FunctionBody.nodes] at body
          refine deeply_iff.mpr ⟨fun _ absurd => (by cases absurd), ?_⟩
          have inner := (between_carried sound (induction _) Finished.again).expression related
            ((Required.inherited fuel known written).function body expression.contains)
          exact fun function member => (inner function member).deeply

/-- Every function of a transformed program meets the requirement on finished functions. -/
theorem Establishes.functions
    {program output : Program} {summary : Summary}
    (given : ∀ function ∈ program.functions, Own written function)
    (outcome : program.transform settings = .ok (output, summary)) :
    ∀ function ∈ output.functions, Own finished function := by
  obtain ⟨work, statements, _⟩ := transform_eq_ok.mp outcome
  obtain ⟨walked, pass, walks, nested⟩ := transformStatements_eq_ok.mp statements
  have sound := Work.sound_ofProgram program
  have required : Required program.functions.length (· ∈ program.allNames) written
      (nodesOfStatements true program.statements) :=
    ⟨bounded_ofProgram program, given⟩
  have walkedParts := walks.parts
    (between_admits establishes.ofCheckers settings.tokens.result pass)
    (Pass.sound_start sound.helpers) (.refl pass)
    ((Required.inherited _ _ written).onStatements _ required)
  obtain ⟨_, related⟩ :=
    nestedFunctions_onStatements (transformFunction_advances settings _ _) nested
  have finalParts := Parts.onStatements_of_exchange
    (between_carried (sound.later walks.precedes.work) (establishes.transformed _ _ _)
      Finished.again)
    related walkedParts
  have deeply := (Parts.onStatements_all output.statements).mp finalParts
  refine (unfoldsOfStatements output.statements).allFunctions_iff.mpr ?_
  exact fun function member => (deeply function member).deeply

end

/-- The settings of a user who chooses nothing but to extract environments. -/
def Settings.extracting : Settings :=
  { Options.usual with extract := true }.resolve "development"

end Covenant.Contract
