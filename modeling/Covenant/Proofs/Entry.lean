import Mathlib
import Covenant.Proofs.Course
import Covenant.Proofs.Marked
import Covenant.Proofs.Returns

/-!
# Values on entry are captured first, and once

A call of a transformed function hoists its functions and binds its checkers.
Then the initial values of its constants are evaluated one after the other, in
the order in which the contracts first refer to them, and each is bound before
the next is evaluated.  Only then do the statements of the function run, guards
among them.  No statement declares a constant again, and from its declaration
to the end of the call the constant keeps its value, whatever is performed.
-/

namespace Covenant.Contract

open Machine

/-! ## How a call begins -/

/-- Bind checkers in turn. -/
def bindCheckers (parameter : String) (scope : Scope) (checkers : List Checker) : Action Unit :=
  checkers.forM fun checker => do
    let closure ← makeClosure scope (checker.function parameter)
    declare scope checker.name ⟨closure, false⟩

/-- Evaluate the initial values of constants in turn, and bind each before the next. -/
def bindConstants (fuel : Nat) (scope : Scope) (constants : List OldBinding) : Action Unit :=
  constants.forM fun constant => do
    let value ← evaluate fuel scope constant.init
    declare scope constant.name ⟨value, false⟩

/-- Call a closure, binding checkers and constants before some statements run. -/
def callCapturing
    (parameter : String) (checkers : List Checker) (captured : OldBindings)
    (main : List Statement) (fuel : Nat) (closure : Closure) (receiver : Value)
    (arguments : List Value) : Action Value :=
  match unsupportedKind? closure.function with
  | some construct => .fail (.unsupported construct)
  | none => .nested do
    let scope ← .allocate fun store =>
      store.enter (callFrame closure.function receiver arguments) closure.scope
    hoist scope main
    bindCheckers parameter scope checkers
    bindConstants fuel scope captured.bindings
    let completion ← inTurn (execute (fuel + 1) scope none) main
    pure completion.result

section

variable {α : Type} {scope : Scope} {fuel : Nat} {parameter : String}

/-- Statements that always finish are run in turn before those behind them. -/
theorem inTurn_map_append {execute : Statement → Action Completion} {form : α → Statement}
    {action : α → Action Unit}
    (finishes : ∀ value, execute (form value) = (do action value; pure .finished))
    (rest : List Statement) :
    (values : List α) →
      inTurn execute (values.map form ++ rest) = (do values.forM action; inTurn execute rest)
  | [] => rfl
  | value :: others => by
      rw [List.map_cons, List.cons_append, inTurn, finishes, List.forM, bind_assoc, bind_assoc]
      simp only [pure_bind]
      rw [inTurn_map_append finishes rest others]

/-- Declarations of variables need no preparation. -/
theorem hoist_of_declares {statements : List Statement} (declares : DeclaresVariables statements) :
    hoist scope statements = pure () := by
  funext machine
  apply hoist_of_noDeclarations
  intro function member
  rcases declares _ member with ⟨kind, declarators, absurd⟩
  cases absurd

theorem declares_checkers (parameter : String) (checkers : List Checker) :
    DeclaresVariables (checkers.map (·.declaration parameter)) := by
  intro statement member
  rcases List.mem_map.mp member with ⟨checker, _, rfl⟩
  exact ⟨_, _, rfl⟩

theorem declares_constants (captured : OldBindings) : DeclaresVariables captured.declarations := by
  intro statement member
  rcases List.mem_map.mp member with ⟨constant, _, rfl⟩
  exact ⟨_, _, rfl⟩

/-- The declaration of a constant evaluates its initial value and binds it. -/
theorem execute_constant (name : String) (init : Expression) :
    execute (fuel + 1) scope none (.bindings .constant [⟨name, some init⟩]) = (do
      (do
        let value ← evaluate fuel scope init
        declare scope name ⟨value, false⟩)
      pure .finished) := by
  rw [execute, declareVariables, List.forM, bind_assoc, bind_assoc]
  simp only [List.forM, pure_bind, bind_assoc]
  rfl

/-- Statements behind a prologue run after checkers and constants have been bound. -/
theorem executeAll_prologue (checkers : List Checker) (captured : OldBindings)
    (main : List Statement) :
    executeAll (fuel + 3) scope
        (checkers.map (·.declaration parameter) ++ captured.declarations ++ main) = (do
      hoist scope main
      bindCheckers parameter scope checkers
      bindConstants (fuel + 1) scope captured.bindings
      inTurn (execute (fuel + 2) scope none) main) := by
  have checker (checker : Checker) :=
    @execute_constant scope (fuel + 1) checker.name (.lambda (checker.function parameter))
  have constant (constant : OldBinding) :=
    @execute_constant scope (fuel + 1) constant.name constant.init
  rw [executeAll, hoist_append, hoist_append,
    hoist_of_declares (declares_checkers parameter checkers),
    hoist_of_declares (declares_constants captured), pure_bind, pure_bind, List.append_assoc]
  congr 1
  funext _
  exact (inTurn_map_append checker _ checkers).trans
    (congrArg _ (funext fun _ => inTurn_map_append constant main captured.bindings))

/-- A closure whose statements have a prologue is called with checkers and constants bound first. -/
theorem call_of_prologue
    {checkers : List Checker} {captured : OldBindings} {main : List Statement}
    {address : ClosureAddress} {closure : Closure} {receiver : Value} {arguments : List Value}
    {machine : Machine} (known : machine.store.closure? address = some closure)
    (shape : closure.function.body =
      .block (checkers.map (·.declaration parameter) ++ captured.declarations ++ main)) :
    call (fuel + 4) (.closure address) receiver arguments machine =
      callCapturing parameter checkers captured main (fuel + 1) closure receiver arguments
        machine := by
  rw [call_closure_of_some known, enterClosure, callCapturing, shape]
  cases unsupportedKind? closure.function with
  | some construct => rfl
  | none => simp only [runBody, executeAll_prologue, bind_assoc]

end

/-! ## Constants keep their values -/

/--
A frame has a binding wherever a task starts that is performed while statements
are run in turn, and wherever such a task ends.
-/
def BoundThroughout (address : FrameAddress) (name : String) (binding : Binding) (fuel : Nat)
    (scope : Scope) (statements : List Statement) (machine : Machine) : Prop :=
  ∀ {before rest : List Statement} {statement : Statement} {less : Nat} {task : Task}
    {between start : Machine},
    statements = before ++ statement :: rest →
      inTurn (execute fuel scope none) before machine = .ok .finished between →
        Performs less task start fuel (.execute scope none statement) between →
          (start.store.frame address).lookup name = some binding ∧
            ∀ result last, task.perform less start = .ok result last →
              (last.store.frame address).lookup name = some binding

section

variable {fuel : Nat} {scope : Scope} {name : String} {machine : Machine}

/-- A constant stays bound while statements run that do not declare its name. -/
theorem boundThroughout_of_constant
    {address : FrameAddress} {value : Value} {statements : List Statement}
    (present : address.index < machine.store.frames.size)
    (bound : (machine.store.frame address).lookup name = some ⟨value, false⟩)
    (avoids : (avoiding (· = name)).OnStatements statements) :
    BoundThroughout address name ⟨value, false⟩ fuel scope statements machine := by
  intro before rest statement less task between start split ran performs
  have permitted : ((steadiness (· = name) machine.store).permits scope).OnStatements statements :=
    .imp (avoiding_implies fun _ apart _ _ _ => apart) statements avoids
  have steady {store : Store} (holds : machine.store.Steady (· = name) store) :
      (store.frame address).lookup name = some ⟨value, false⟩ := by
    rw [holds.bindings address name present rfl (by simp [bound]), bound]
  rw [split, Parts.onStatements_append, Parts.OnStatements] at permitted
  have admits : (steadiness (· = name) machine.store).Admits scope machine :=
    ⟨.refl machine.store, trivial⟩
  have reached := admits.after (Regime.keeps_inTurn before fun other member =>
    (preserves _ fuel).execute scope none other
      (Parts.onStatements_iff.mp permitted.1 other member)) ran
  have stands := Regime.stands_of_performs performs ⟨reached, permitted.2.1⟩
  constructor
  · exact steady stands.holds
  · exact fun result last ended => steady (Regime.holds_of_perform stands ended)

variable {regime : Regime}

theorem keeps_bindCheckers {parameter : String} (checkers : List Checker)
    (may : ∀ checker ∈ checkers, regime.may scope checker.name) :
    regime.Keeps scope (bindCheckers parameter scope checkers) :=
  @Discipline.Keeps.forM regime.discipline _ _ _ checkers fun checker member =>
    (@Discipline.keeps_makeClosure regime.discipline (checker.function parameter) trivial
      scope).bind fun _ =>
        @Discipline.keeps_declare regime.discipline _ _ (may checker member) _

theorem keeps_bindConstants (constants : List OldBinding)
    (may : ∀ constant ∈ constants, regime.may scope constant.name) :
    regime.Keeps scope (bindConstants fuel scope constants) :=
  @Discipline.Keeps.forM regime.discipline _ _ _ constants fun constant member =>
    @Discipline.Keeps.bind regime.discipline _ _ _ _ _
      ((preserves regime fuel).evaluate scope constant.init) fun _ =>
        @Discipline.keeps_declare regime.discipline _ _ (may constant member) _

/-- What happens before a constant is bound loses no frames. -/
theorem size_le_of_bindConstants
    {parameter : String} {checkers : List Checker} {main : List Statement}
    {earlier : List OldBinding} {init : Expression} {value : Value} {ready evaluated : Machine}
    (prepared : (do
      hoist scope main
      bindCheckers parameter scope checkers
      bindConstants fuel scope earlier) machine = .ok () ready)
    (outcome : evaluate fuel scope init ready = .ok value evaluated) :
    machine.store.frames.size ≤ evaluated.store.frames.size := by
  have free (name : String) :
      (steadiness (fun _ => False) machine.store).may scope name := fun _ _ _ => id
  have admits : (steadiness (fun _ => False) machine.store).Admits scope machine :=
    ⟨.refl machine.store, trivial⟩
  rcases Action.bind_eq_ok.mp prepared with ⟨_, hoisted, first, rest⟩
  rcases Action.bind_eq_ok.mp rest with ⟨_, checked, second, third⟩
  have reached := ((admits.after (Regime.keeps_hoist (Regime.permits_all free main)) first).after
    (keeps_bindCheckers checkers fun checker _ => free checker.name) second).after
      (keeps_bindConstants earlier fun constant _ => free constant.name) third
  exact (reached.after ((preserves _ fuel).evaluate scope init) outcome).1.size

end

/-! ## One function -/

/-- A machine in which a constant is bound in the innermost frame. -/
def bindConstant (scope : Scope) (name : String) (value : Value) (machine : Machine) : Machine :=
  { machine with store := machine.store.declare scope name ⟨value, false⟩ }

/--
A function captures values on entry first, in constants of its own: their
names are told apart from each other, from those of its checkers, and from what
the program knows, to which their initial values refer.
-/
structure CapturesFirst (names : List String) (parameter : String) (function : Function)
    (checkers : List Checker) (captured : OldBindings) (main : List Statement) : Prop where
  body : function.body =
    .block (checkers.map (·.declaration parameter) ++ captured.declarations ++ main)
  distinct : (checkers.map (·.name) ++ captured.names).Nodup
  fresh : ∀ name ∈ checkers.map (·.name) ++ captured.names, name ∉ "Error" :: names
  refers : ∀ constant ∈ captured.bindings, constant.init.Refers (· ∈ "Error" :: names)
  /-- No statement declares a constant once more. -/
  once : (avoiding (· ∈ captured.names)).OnStatements main
  /-- A call binds the constants in order before the statements run. -/
  entry {fuel : Nat} {address : ClosureAddress} {closure : Closure} {receiver : Value}
      {arguments : List Value} {machine : Machine} :
    machine.store.closure? address = some closure → closure.function = function →
      call (fuel + 4) (.closure address) receiver arguments machine =
        callCapturing parameter checkers captured main (fuel + 1) closure receiver arguments
          machine
  /-- From when it is bound to the end of the call, a constant keeps its value. -/
  constant {fuel : Nat} {outer : Scope} {frame : Frame} {earlier later : List OldBinding}
      {constant : OldBinding} {value : Value} {machine ready evaluated : Machine} :
    captured.bindings = earlier ++ constant :: later →
      (do
        hoist (⟨machine.store.frames.size⟩ :: outer) main
        bindCheckers parameter (⟨machine.store.frames.size⟩ :: outer) checkers
        bindConstants fuel (⟨machine.store.frames.size⟩ :: outer) earlier)
          (machine.beginCall frame) = .ok () ready →
        evaluate fuel (⟨machine.store.frames.size⟩ :: outer) constant.init ready =
            .ok value evaluated →
          BoundThroughout ⟨machine.store.frames.size⟩ constant.name ⟨value, false⟩ (fuel + 1)
            (⟨machine.store.frames.size⟩ :: outer)
            ((OldBindings.mk later).declarations ++ main)
            (bindConstant (⟨machine.store.frames.size⟩ :: outer) constant.name value evaluated)

/-- Declarations of constants with other names avoid a name. -/
theorem avoiding_declarations {name : String} {constants : List OldBinding}
    (apart : name ∉ constants.map (·.name)) :
    (avoiding (· = name)).OnStatements (OldBindings.mk constants).declarations := by
  apply Parts.onStatements_iff.mpr
  intro statement member
  rcases List.mem_map.mp member with ⟨constant, among, rfl⟩
  rw [Parts.OnStatement]
  rintro other declares rfl
  have named : other = constant.name := by simpa [namesOfDeclarators] using declares
  exact apart (named ▸ List.mem_map_of_mem among)

/-- A function with a prologue captures values on entry first if its names are its own. -/
theorem capturesFirst_of_names
    {names : List String} {parameter : String} {function : Function} {checkers : List Checker}
    {captured : OldBindings} {main : List Statement}
    (body : function.body =
      .block (checkers.map (·.declaration parameter) ++ captured.declarations ++ main))
    (distinct : (checkers.map (·.name) ++ captured.names).Nodup)
    (fresh : ∀ name ∈ checkers.map (·.name) ++ captured.names, name ∉ "Error" :: names)
    (refers : ∀ constant ∈ captured.bindings, constant.init.Refers (· ∈ "Error" :: names))
    (once : (avoiding (· ∈ captured.names)).OnStatements main) :
    CapturesFirst names parameter function checkers captured main where
  body := body
  distinct := distinct
  fresh := fresh
  refers := refers
  once := once
  entry known same := call_of_prologue known (same ▸ body)
  constant {fuel outer frame earlier later constant value machine ready evaluated} split prepared
      outcome := by
    have own := (List.nodup_append.mp distinct).2.1
    rw [OldBindings.names, split, List.map_append, List.map_cons] at own
    have apart : constant.name ∉ later.map (·.name) :=
      (List.nodup_cons.mp (List.nodup_append.mp own).2.1).1
    have among : constant.name ∈ captured.names := by
      apply List.mem_map_of_mem
      rw [split]
      exact List.mem_append_right _ List.mem_cons_self
    have more := size_le_of_bindConstants prepared outcome
    have present : machine.store.frames.size < evaluated.store.frames.size := by
      apply Nat.lt_of_lt_of_le _ more
      rw [Machine.beginCall, Store.size_addFrame]
      exact Nat.lt_succ_self _
    apply boundThroughout_of_constant
    · rw [bindConstant, Store.size_declare]
      exact present
    · have bound := @Store.frame_putBinding evaluated.store ⟨machine.store.frames.size⟩ present
        constant.name ⟨value, false⟩
      change ((evaluated.store.putBinding _ _ _).frame _).lookup constant.name = _
      rw [bound, Entries.lookup_put, if_pos rfl]
    · rw [Parts.onStatements_append]
      constructor
      · exact avoiding_declarations apart
      · exact .imp (avoiding_within fun _ same => same ▸ among) main once

/-! ## All functions -/

/--
A function of a transformed program captures values on entry as the contracts
of a function of the program refer to them, and so do the functions nested in
them, one by one.

A function with a block has one constant for each source text among the
expressions whose values on entry its surviving contracts refer to, in the
order in which they are first referred to.
-/
inductive CapturesOnEntry (settings : Settings) (names : List String) :
    ScopeStack → Function → Function → Prop where
  | block {scopes : ScopeStack} {source target : Function} {statements main : List Statement}
      {checkers : List Checker} {captured : OldBindings}
      (shape : source.body = .block statements)
      (finished : target = { source with body := target.body })
      (inits : captured.inits =
        ((referredOnEntry (functionContext settings scopes source)).ofStatements
          statements).eraseDupsBy sameSource)
      (first : CapturesFirst names settings.tokens.result target checkers captured main)
      (paired : ((survivors settings (.function source.name) names).ofBody source.body).length =
        ((functions names).ofBody target.body).length)
      (inner : ∀ {nested transformed : Function},
        (nested, transformed) ∈
            ((survivors settings (.function source.name) names).ofBody source.body).zip
              ((functions names).ofBody target.body) →
          CapturesOnEntry settings names (scopes.push source.scope) nested transformed) :
      CapturesOnEntry settings names scopes source target
  | result {scopes : ScopeStack} {source target : Function} {expression final : Expression}
      (shape : source.body = .result expression)
      (finished : target = { source with body := .result final })
      (paired : (functionsOf (expression.nodes false)).length =
        (functionsOf (final.nodes false)).length)
      (inner : ∀ {nested transformed : Function},
        (nested, transformed) ∈
            (functionsOf (expression.nodes false)).zip (functionsOf (final.nodes false)) →
          CapturesOnEntry settings names (scopes.push source.scope) nested transformed) :
      CapturesOnEntry settings names scopes source target

section

variable {settings : Settings} {names : List String}

/-- A finished function captures values on entry first. -/
theorem capturesFirst_of_walks
    {fuel : Nat} {scopes : ScopeStack} {source target : Function} {work earliest latest : Work}
    {pass : Pass} {statements walked rest : List Statement} {transform : Function → Transforming Function}
    (bounded : Bounded fuel (· ∈ names) (nodesOfStatements true statements))
    (walks : Walks (functionContext settings scopes source) (.list [] statements) work.start walked
      pass)
    (sound : work.Sound (· ∈ names)) (passSound : pass.Sound) (distinct : pass.captured.names.Nodup)
    (keepsName : ∀ {source target : Function} {work after : Work},
      transform source work = .ok (target, after) → target.name = source.name)
    (nested : (nestedExchange transform earliest latest).OnStatements walked rest)
    (finished : target = { source with body := .block (finish settings.tokens.result pass rest) }) :
    CapturesFirst names settings.tokens.result target pass.postconditions pass.captured
      (pass.postconditions.foldl applyPostcondition rest) := by
  have startKnown : work.start.work.Sound (· ∈ names) := sound.later work.precedes_start
  have hidden : ∀ name ∈ pass.captured.names,
      name ∉ pass.work.helperNames ∧ HandedOut work.start.work pass.work name := by
    intro name member
    rcases List.mem_map.mp member with ⟨constant, among, rfl⟩
    refine ⟨(passSound.captured constant among).2.1, ?_⟩
    rcases walks.precedes.capturing constant among with absurd | out
    · cases absurd
    · exact out
  have named : ∀ name ∈ pass.postconditions.map (·.name),
      name ∈ pass.work.helperNames ∧ HandedOut work.start.work pass.work name := by
    intro name member
    rcases List.mem_map.mp member with ⟨checker, among, rfl⟩
    refine ⟨(passSound.checkers checker among).1, ?_⟩
    rcases walks.precedes.checking checker among with absurd | out
    · cases absurd
    · exact out
  apply capturesFirst_of_names
  · rw [finished]
    rfl
  · apply passSound.distinct.append distinct
    exact fun name inChecks inCaptured => (hidden name inCaptured).1 (named name inChecks).1
  · intro name member
    rcases List.mem_append.mp member with inChecks | inCaptured
    · exact (named name inChecks).2.fresh startKnown
    · exact (hidden name inCaptured).2.fresh startKnown
  · exact (unwrapped_of_walks bounded walks).2
  · apply onStatements_applyPostconditions (avoiding_routes _)
    apply Parts.onStatements_of_exchange (carried_avoiding keepsName _) nested
    apply walks.parts (admits_avoiding_of_wired _ ?_)
      (@Pass.sound_start work.entering sound.helpers) (.refl pass)
    · apply avoiding_of_unknown _ bounded
      exact fun name known member => (hidden name member).2.free (startKnown.known known).1
    · exact fun checker wired member => (hidden _ member).1 wired.named

/-- What a transformation makes of a function captures values on entry. -/
theorem capturesOnEntry_of_transformFunction (keeps : settings.stripsContracts = false) :
    ∀ (fuel : Nat) (scopes : ScopeStack) {source target : Function} {work after : Work},
      BoundedFunction fuel (· ∈ names) source → work.Sound (· ∈ names) →
        transformFunction settings fuel scopes source work = .ok (target, after) →
          CapturesOnEntry settings names scopes source target := by
  intro fuel
  induction fuel with
  | zero =>
      intro scopes source target work after bounded
      have small := bounded.size
      rw [Function.nodes_true, functionsOf_cons_function, List.length_cons] at small
      omega
  | succ fuel induction =>
      intro scopes source target work after bounded sound outcome
      have body := bounded.body
      cases shape : source.body with
      | block statements =>
          rw [shape, FunctionBody.nodes] at body
          rcases exists_rest_of_transformFunction shape sound outcome with
            ⟨walked, pass, rest, earliest, walks, passSound, known, later, nested, finished⟩
          have place : (functionContext settings scopes source).place ≠ .topLevel := by
            simp [functionContext]
          have captures := walks.captures place keeps rfl
          have first := capturesFirst_of_walks body walks sound passSound captures.2
            name_of_transformFunction nested finished
          have survive := walks.functions (sound.later work.precedes_start) trivial
          have pairs := related_of_nested (induction (scopes.push source.scope)) later body survive
            nested
          have functions : (functions names).ofBody target.body =
              (functions names).ofStatements rest := by
            rw [finished, Collection.ofBody, finish, Collection.ofStatements_append,
              functions_prologue passSound known, functions_applyPostconditions, List.nil_append]
          rcases List.forall₂_iff_zip.mp pairs with ⟨paired, inner⟩
          apply CapturesOnEntry.block shape (by rw [finished]) captures.1 first
          · rw [shape, functions, Collection.ofBody]
            exact paired
          · rw [shape, functions, Collection.ofBody]
            exact inner
      | result expression =>
          rw [shape, FunctionBody.nodes] at body
          rcases (transformFunction_result shape).mp outcome with ⟨final, transformed, rfl⟩
          rcases nestedFunctions_onExpression (transformFunction_advances settings fuel _)
            transformed with ⟨_, related⟩
          have pairs := related_of_nestedExpression (induction (scopes.push source.scope)) sound
            body related
          rcases List.forall₂_iff_zip.mp pairs with ⟨paired, inner⟩
          exact .result shape rfl paired inner

/--
Every function of a program that survives a transformation which keeps
contracts captures values on entry first, in the order in which its contracts
refer to them, and once in every call; and so do the functions nested in it.
-/
theorem old_values_captured_on_entry
    {program output : Program} {summary : Summary}
    (checks : settings.stripsContracts = false)
    (outcome : program.transform settings = .ok (output, summary)) :
    List.Forall₂ (CapturesOnEntry settings program.allNames (.ofProgram program))
      ((survivors settings .topLevel program.allNames).ofStatements program.statements)
      ((functions program.allNames).ofStatements output.statements) := by
  rcases transform_eq_ok.mp outcome with ⟨work, transformed, _⟩
  rcases transformStatements_eq_ok.mp transformed with ⟨walked, pass, walks, passed⟩
  have sound := Work.sound_ofProgram program
  rcases nestedFunctions_onStatements (transformFunction_advances settings _ _) passed with
    ⟨_, nested⟩
  exact related_of_nested (capturesOnEntry_of_transformFunction checks _ _)
    (sound.later walks.precedes.work) (bounded_ofProgram program)
    (walks.functions sound trivial) nested

/-- A function with a postcondition and an invariant that refer to values on entry. -/
def remembering : Program :=
  ⟨[.declare
    ⟨some "keep", ["x", "y"],
      .block
        [.labeled "post" (.evaluate (.call (.identifier "old") [.identifier "x"])),
          .labeled "invariant"
            (.evaluate
              (.sequence
                [.call (.identifier "old") [.identifier "y"],
                  .call (.identifier "old") [.identifier "x"]])),
          .giveBack (some (.identifier "x"))],
      false, false, false⟩]⟩

theorem old_values_captured_on_entry_of_remembering :
    (Options.usual.resolve "test").stripsContracts = false ∧
      ∃ output summary,
        remembering.transform (Options.usual.resolve "test") = .ok (output, summary) ∧
          summary.oldBindings = 2 ∧
            List.Forall₂
              (CapturesOnEntry (Options.usual.resolve "test") remembering.allNames
                (.ofProgram remembering))
              ((survivors (Options.usual.resolve "test") .topLevel
                remembering.allNames).ofStatements remembering.statements)
              ((functions remembering.allNames).ofStatements output.statements) := by
  have counted : ((remembering.transform (Options.usual.resolve "test")).toOption.map
      fun done => done.2.oldBindings) = some 2 := by
    decide +kernel
  cases outcome : remembering.transform (Options.usual.resolve "test") with
  | error reason =>
      rw [outcome] at counted
      cases counted
  | ok done =>
      rw [outcome] at counted
      exact ⟨rfl, done.1, done.2, rfl, by simpa [Except.toOption] using counted,
        old_values_captured_on_entry rfl outcome⟩

end

end Covenant.Contract
