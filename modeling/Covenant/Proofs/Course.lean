import Covenant.Proofs.Performance
import Covenant.Proofs.Stability

/-!
# What holds in the course of a run

A regime that holds where a task is started holds wherever a task is started
that is performed in its course, at any depth, and wherever such a task ends.
The parts of a task are taken one after the other: each starts where what comes
before it has ended, in a scope in which the regime lets code run.
-/

namespace Covenant.Machine

namespace Regime

variable {regime : Regime} {α : Type} {fuel : Nat} {scope : Scope} {machine start : Machine}

/-- A regime holds of a machine, and code may run there in a scope. -/
def Admits (regime : Regime) (scope : Scope) (machine : Machine) : Prop :=
  regime.holds machine.store ∧ regime.scope machine.store.frames.size scope

/-- A regime holds where a task starts, and the code of the task keeps to it. -/
def Stands (regime : Regime) (machine : Machine) : Task → Prop
  | .evaluate scope _ => regime.Admits scope machine
  | .construct _ _ _ | .call _ _ _ => regime.holds machine.store
  | .execute scope _ statement =>
    regime.Admits scope machine ∧ (regime.permits scope).OnStatement statement
  | .executeAll scope statements =>
    regime.Admits scope machine ∧ (regime.permits scope).OnStatements statements
  | .rounds scope _ _ _ body =>
    regime.Admits scope machine ∧ (regime.permits scope).OnStatement body

theorem Stands.holds {task : Task} (stands : regime.Stands machine task) :
    regime.holds machine.store := by
  cases task with
  | evaluate scope expression => exact stands.1
  | construct | call => exact stands
  | execute | executeAll | rounds => exact stands.1.1

/-- Where code may run, it may run after what keeps the regime. -/
theorem Admits.after {action : Action α} {result : α} (admits : regime.Admits scope machine)
    (keeps : regime.Keeps scope action) (outcome : action machine = .ok result start) :
    regime.Admits scope start := by
  rcases keeps machine result start admits.1 admits.2 outcome with ⟨holds, more⟩
  exact ⟨holds, regime.scope_mono more admits.2⟩

/-- Where code may run, it may run in a frame that is entered. -/
theorem Admits.enter {frame : Frame} (admits : regime.Admits scope machine)
    (entered : start.store = (machine.store.addFrame frame).2) :
    regime.Admits (⟨machine.store.frames.size⟩ :: scope) start := by
  constructor
  · rw [entered]
    exact regime.addFrame frame admits.1
  · rw [entered, Store.size_addFrame]
    exact regime.scope_enter admits.1 admits.2

/-- Every statement is permitted in a frame that is entered. -/
theorem permits_entered (holds : regime.holds machine.store) (statements : List Statement) :
    (regime.permits (⟨machine.store.frames.size⟩ :: scope)).OnStatements statements :=
  permits_all (fun _ => regime.may_enter holds) statements

/-! ## Parts of tasks -/

theorem keeps_mapM (expressions : List Expression) :
    regime.Keeps scope (expressions.mapM (evaluate fuel scope)) :=
  @Discipline.keeps_mapM regime.discipline _ _
    (fun expression _ => (preserves regime fuel).evaluate scope expression) _ fun _ _ => trivial

theorem keeps_declareVariables {kind : DeclarationKind} {declarators : List Declarator}
    (may : ∀ name ∈ namesOfDeclarators declarators, regime.may scope name) :
    regime.Keeps scope (declareVariables (evaluate fuel scope) scope kind declarators) :=
  @Discipline.keeps_declareVariables regime.discipline _ _
    (fun expression _ => (preserves regime fuel).evaluate scope expression) _ _
    ⟨may, fun _ _ => trivial⟩

theorem keeps_placeOf (target : Expression) :
    regime.Keeps scope (placeOf (evaluate fuel scope) target) :=
  @Discipline.keeps_placeOf regime.discipline _ _
    (fun expression _ => (preserves regime fuel).evaluate scope expression) _ fun _ _ => trivial

theorem keeps_calleeOf (callee : Expression) :
    regime.Keeps scope (calleeOf (evaluate fuel scope) callee) :=
  @Discipline.keeps_calleeOf regime.discipline _ _
    (fun expression _ => (preserves regime fuel).evaluate scope expression) _ fun _ _ => trivial

theorem Admits.inOrder {expressions : List Expression} {part : Expression}
    (inOrder : EvaluatedInOrder fuel scope expressions machine part start) :
    regime.Admits scope machine → regime.Admits scope start := by
  induction inOrder with
  | head => exact id
  | tail evaluated _ induction =>
      exact fun admits => induction (admits.after ((preserves regime fuel).evaluate _ _) evaluated)

theorem Admits.initializes {kind : DeclarationKind} {declarators : List Declarator}
    {part : Expression} (admits : regime.Admits scope machine)
    (initializes : Initializes fuel scope kind declarators machine part start)
    (may : ∀ name ∈ namesOfDeclarators declarators, regime.may scope name) :
    regime.Admits scope start := by
  rcases initializes with ⟨before, own, rest, rfl, declared⟩
  apply admits.after (keeps_declareVariables ?_) declared
  intro name member
  apply may name
  rw [namesOfDeclarators, List.map_append]
  exact List.mem_append_left _ member

/-- A regime that holds where a task starts holds where a part of it starts. -/
theorem stands_of_part {task next : Task} (part : Part fuel task machine next start)
    (stands : regime.Stands machine task) : regime.Stands start next := by
  have kept := preserves regime fuel
  cases part with
  | operand inOrder => exact stands.inOrder inOrder
  | right evaluated _ => exact stands.after (kept.evaluate _ _) evaluated
  | chosen evaluated => exact stands.after (kept.evaluate _ _) evaluated
  | assigned found _ => exact stands.after (keeps_placeOf _) found
  | argument found inOrder => exact (stands.after (keeps_calleeOf _) found).inOrder inOrder
  | called found evaluated _ =>
      exact ((stands.after (keeps_calleeOf _) found).after (keeps_mapM _) evaluated).1
  | constructed found evaluated =>
      exact ((stands.after (kept.evaluate _ _) found).after (keeps_mapM _) evaluated).1
  | initialized _ _ => exact regime.cells stands rfl rfl
  | entered found _ _ _ =>
      have admits : regime.Admits _ machine := ⟨stands, regime.closure stands found⟩
      exact ⟨admits.enter rfl, permits_entered stands _⟩
  | answered found _ _ _ =>
      have admits : regime.Admits _ machine := ⟨stands, regime.closure stands found⟩
      exact admits.enter rfl
  | subject _ => exact stands.1
  | block => exact ⟨stands.1.enter rfl, permits_entered stands.1.1 _⟩
  | labeled =>
      rcases stands with ⟨admits, permitted⟩
      rw [Parts.OnStatement] at permitted
      exact ⟨admits, permitted⟩
  | whileLoop | firstRound =>
      rcases stands with ⟨admits, permitted⟩
      rw [Parts.OnStatement] at permitted
      exact ⟨admits, permitted.2⟩
  | consequent evaluated _ =>
      rcases stands with ⟨admits, permitted⟩
      rw [Parts.OnStatement] at permitted
      exact ⟨admits.after (kept.evaluate _ _) evaluated, permitted.2.1⟩
  | alternate evaluated _ =>
      rcases stands with ⟨admits, permitted⟩
      rw [Parts.OnStatement] at permitted
      exact ⟨admits.after (kept.evaluate _ _) evaluated, permitted.2.2⟩
  | doWhileLoop ended _ =>
      rcases stands with ⟨admits, permitted⟩
      rw [Parts.OnStatement] at permitted
      exact ⟨admits.after (kept.execute _ _ _ permitted.2) ended, permitted.2⟩
  | loopVariable initializes =>
      exact (stands.1.enter rfl).initializes initializes
        fun _ _ => regime.may_enter stands.1.1
  | loopStart => exact stands.1.enter rfl
  | @forLoop scope label init test step body _ _ started =>
      have inside := @permits_entered _ scope _ stands.1.1 [.forLoop init test step body]
      rw [Parts.onStatements_singleton, Parts.OnStatement] at inside
      exact ⟨(stands.1.enter rfl).after (keeps_startLoop (kept.evaluate _) inside.1) started,
        inside.2.2.2⟩
  | «variable» initializes =>
      rcases stands with ⟨admits, permitted⟩
      rw [Parts.OnStatement] at permitted
      exact admits.initializes initializes permitted
  | statement hoisted ended =>
      rcases stands with ⟨admits, permitted⟩
      have ready := admits.after (keeps_hoist permitted) hoisted
      rw [Parts.onStatements_append, Parts.OnStatements] at permitted
      refine ⟨ready.after (keeps_inTurn _ fun statement member => ?_) ended, permitted.2.1⟩
      exact kept.execute _ _ _ (Parts.onStatements_iff.mp permitted.1 statement member)
  | tested => exact stands.1
  | round goesOn =>
      exact ⟨stands.1.after (keeps_testRound (kept.evaluate _) _) goesOn, stands.2⟩
  | stepped goesOn ended _ =>
      have begun := stands.1.after (keeps_testRound (kept.evaluate _) _) goesOn
      exact begun.after (kept.execute _ _ _ stands.2) ended
  | again goesOn ended _ stepped =>
      have begun := stands.1.after (keeps_testRound (kept.evaluate _) _) goesOn
      have done := begun.after (kept.execute _ _ _ stands.2) ended
      exact ⟨done.after (keeps_stepRound (kept.evaluate _) _) stepped, stands.2⟩

/-- A regime that holds where a task starts holds wherever a task starts in its course. -/
theorem stands_of_performs {less : Nat} {inner task : Task}
    (performs : Performs less inner start fuel task machine) :
    regime.Stands machine task → regime.Stands start inner := by
  induction performs with
  | itself => exact id
  | part part _ induction => exact fun stands => induction (stands_of_part part stands)

/-- A regime that holds where a task starts holds where the task ends. -/
theorem holds_of_perform {task : Task} {result : task.Result} (stands : regime.Stands machine task)
    (outcome : task.perform fuel machine = .ok result start) : regime.holds start.store := by
  have kept := preserves regime fuel
  cases task with
  | evaluate scope expression =>
      exact (stands.after (kept.evaluate scope expression) outcome).1
  | construct constructor arguments source =>
      exact (kept.construct _ _ _ _ _ _ stands outcome).1
  | call callee receiver arguments => exact (kept.call _ _ _ _ _ _ stands outcome).1
  | execute scope label statement =>
      exact (stands.1.after (kept.execute scope label statement stands.2) outcome).1
  | executeAll scope statements =>
      exact (stands.1.after (kept.executeAll scope statements stands.2) outcome).1
  | rounds scope label test step body =>
      exact (stands.1.after (kept.rounds scope label test step body stands.2) outcome).1

end Regime

end Covenant.Machine
