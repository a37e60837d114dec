import Covenant.Proofs.Discipline
import Covenant.Syntax.Names

/-!
# What every run preserves

A regime is a discipline that any code observes: a property of stores together
with the scopes that code may run in and the names that it may declare there.
If every primitive change of a store stays within a regime, then so does every
run, whatever functions the code consists of.
-/

namespace Covenant.Machine

/-- A property of stores that all primitive changes preserve. -/
structure Regime where
  holds : Store → Prop
  /-- Which scopes code may run in, given the number of frames. -/
  scope : Nat → Scope → Prop
  /-- Which names may be declared in the innermost frame of a scope. -/
  may : Scope → String → Prop
  scope_mono {count more : Nat} {scope' : Scope} :
    count ≤ more → scope count scope' → scope more scope'
  scope_enter {store : Store} {scope' : Scope} :
    holds store → scope store.frames.size scope' →
      scope (store.frames.size + 1) (⟨store.frames.size⟩ :: scope')
  may_enter {store : Store} {scope' : Scope} {name : String} :
    holds store → may (⟨store.frames.size⟩ :: scope') name
  closure {store : Store} {address : ClosureAddress} {closure' : Closure} :
    holds store → store.closure? address = some closure' →
      scope store.frames.size closure'.scope
  cells {store other : Store} :
    holds store → other.frames = store.frames → other.closures = store.closures → holds other
  addFrame {store : Store} (frame : Frame) : holds store → holds (store.addFrame frame).2
  addClosure {store : Store} {closure' : Closure} :
    holds store → scope store.frames.size closure'.scope → holds (store.addClosure closure').2
  declare {store : Store} {scope' : Scope} {name : String} (binding : Binding) :
    holds store → scope store.frames.size scope' → may scope' name →
      holds (store.declare scope' name binding)
  assign {store other : Store} {scope' : Scope} {name : String} {value : Value} :
    holds store → scope store.frames.size scope' →
      store.assign scope' name value = .ok other → holds other

namespace Regime

/-- The discipline of a regime, which allows all functions. -/
def discipline (regime : Regime) : Discipline where
  holds := regime.holds
  scope := regime.scope
  may := regime.may
  code _ := True
  scope_mono := regime.scope_mono
  scope_enter := regime.scope_enter
  may_enter := fun holds _ => regime.may_enter holds
  may_own := fun holds _ _ => regime.may_enter holds
  block := by
    intro store scope function statements holds _ _
    refine Parts.onStatements_of_all (fun _ => ?_) (fun _ => ?_) (fun _ => ?_) statements
    · exact ⟨trivial, fun _ _ => trivial⟩
    · exact ⟨fun _ _ => regime.may_enter holds, trivial⟩
    · exact ⟨fun _ _ => regime.may_enter holds, fun _ _ => trivial⟩
  result := fun _ _ _ _ => trivial
  closure := fun holds found => ⟨regime.closure holds found, trivial⟩
  cells := regime.cells
  enterBlock := regime.addFrame _
  enterCall := fun _ _ holds _ => regime.addFrame _ holds
  addClosure := fun holds usable _ => regime.addClosure holds usable
  declare := regime.declare
  assign := regime.assign

variable {regime : Regime} {α : Type}

/-- An action that preserves a regime wherever it is performed. -/
def Kept (regime : Regime) (action : Action α) : Prop :=
  ∀ machine result after, regime.holds machine.store → action machine = .ok result after →
    regime.holds after.store ∧ machine.store.frames.size ≤ after.store.frames.size

/-- An action that preserves a regime if code may run in a scope. -/
def Keeps (regime : Regime) (scope : Scope) (action : Action α) : Prop :=
  ∀ machine result after, regime.holds machine.store →
    regime.scope machine.store.frames.size scope → action machine = .ok result after →
      regime.holds after.store ∧ machine.store.frames.size ≤ after.store.frames.size

/-- What statements may declare if they run in a scope. -/
def permits (regime : Regime) (scope : Scope) : Parts where
  expression _ := True
  function function := ∀ name ∈ function.name, regime.may scope name
  declared declarators := ∀ name ∈ namesOfDeclarators declarators, regime.may scope name

/-- Every statement is permitted where every name may be declared. -/
theorem permits_all
    {scope : Scope} (may : ∀ name, regime.may scope name) (statements : List Statement) :
    (regime.permits scope).OnStatements statements :=
  Parts.onStatements_of_all (fun _ => trivial) (fun _ name _ => may name)
    (fun _ name _ => may name) statements

/-- What a regime permits is all that its discipline asks for. -/
theorem permits_discipline (regime : Regime) (scope : Scope) :
    (regime.permits scope).Implies (regime.discipline.permits scope) where
  expression _ := ⟨trivial, fun _ _ => trivial⟩
  function may := ⟨may, trivial⟩
  declared may := ⟨may, fun _ _ => trivial⟩

theorem keeps_hoist
    {scope : Scope} {statements : List Statement}
    (permitted : (regime.permits scope).OnStatements statements) :
    regime.Keeps scope (hoist scope statements) :=
  Discipline.keeps_hoist (.imp (regime.permits_discipline scope) statements permitted)

theorem keeps_inTurn {scope : Scope} {execute : Statement → Action Completion} :
    (statements : List Statement) →
      (∀ statement ∈ statements, regime.Keeps scope (execute statement)) →
        regime.Keeps scope (inTurn execute statements) :=
  @Discipline.keeps_inTurn regime.discipline _ _

section

variable {scope : Scope} {evaluate : Expression → Action Value}
  (keeps : ∀ expression, regime.Keeps scope (evaluate expression))

include keeps

theorem keeps_startLoop
    {init : Option LoopInit} (permitted : (regime.permits scope).OnLoopInit init) :
    regime.Keeps scope (startLoop evaluate scope init) :=
  @Discipline.keeps_startLoop regime.discipline _ _ (fun expression _ => keeps expression) _
    (.imp (regime.permits_discipline scope) init permitted)

theorem keeps_testRound (test : Option Expression) :
    regime.Keeps scope (testRound evaluate test) :=
  @Discipline.keeps_testRound regime.discipline _ _ (fun expression _ => keeps expression) _
    fun _ _ => ⟨trivial, fun _ _ => trivial⟩

theorem keeps_stepRound (step : Option Expression) :
    regime.Keeps scope (stepRound evaluate step) :=
  @Discipline.keeps_stepRound regime.discipline _ _ (fun expression _ => keeps expression) _
    fun _ _ => ⟨trivial, fun _ _ => trivial⟩

end

end Regime

/-- Everything that takes fuel preserves a regime. -/
structure Preserves (regime : Regime) (fuel : Nat) : Prop where
  evaluate (scope : Scope) (expression : Expression) :
    regime.Keeps scope (evaluate fuel scope expression)
  construct (constructor : Value) (arguments : List Value) (source : Expression) :
    regime.Kept (construct fuel constructor arguments source)
  call (callee receiver : Value) (arguments : List Value) :
    regime.Kept (call fuel callee receiver arguments)
  execute (scope : Scope) (label : Option String) (statement : Statement) :
    (regime.permits scope).OnStatement statement →
      regime.Keeps scope (execute fuel scope label statement)
  executeAll (scope : Scope) (statements : List Statement) :
    (regime.permits scope).OnStatements statements →
      regime.Keeps scope (executeAll fuel scope statements)
  rounds (scope : Scope) (label : Option String) (test step : Option Expression)
    (body : Statement) :
    (regime.permits scope).OnStatement body →
      regime.Keeps scope (rounds fuel scope label test step body)

/-- Every run preserves every regime. -/
theorem preserves (regime : Regime) (fuel : Nat) : Preserves regime fuel :=
  have observed := regime.discipline.observed fuel
  have implies := regime.permits_discipline
  have optional (scope : Scope) (expression : Option Expression) :
      (regime.discipline.permits scope).OnOptional expression :=
    fun _ _ => ⟨trivial, fun _ _ => trivial⟩
  { evaluate := fun scope _ => observed.evaluate scope fun _ _ => trivial
    construct := observed.construct
    call := observed.call
    execute := fun scope label statement permitted =>
      observed.execute scope label (.imp (implies scope) statement permitted)
    executeAll := fun scope statements permitted =>
      observed.executeAll scope (.imp (implies scope) statements permitted)
    rounds := fun scope label test step body permitted =>
      observed.rounds scope label (optional scope test) (optional scope step)
        (.imp (implies scope) body permitted) }

end Covenant.Machine
