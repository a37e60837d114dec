import Covenant.Proofs.Makeup

/-!
# How deeply calls are nested

A machine counts the calls that are being performed.  A call is counted while
the body of its function runs and no longer, whichever way the body ends, so
that a task leaves the count as it has found it.  In the course of a task the
count never rises above the limit.

A call that begins at the limit does not enter its function.  This is the only
way in which a run finds that calls are nested too deeply, and since nothing
in a program can go on after such a find, every task in the course of which it
is made ends with it.
-/

namespace Covenant.Machine

/-! ## What the parts settle -/

namespace Composed

variable {fuel : Nat} {parts : Task → Machine → Prop} {α : Type} {action : Action α}
  {machine final : Machine}

/-- What holds of the calls of the parts holds of the calls of the whole. -/
theorem sequel (composed : Composed fuel parts action machine)
    (given : ∀ next start, parts next start → start.Sequel ((next.perform fuel).leaves start)) :
    machine.Sequel (action.leaves machine) := by
  induction composed with
  | own calls => exact calls.sequel
  | part starts => exact given _ _ starts
  | @bind _ _ first _ machine _ _ firstInduction nextInduction =>
      cases outcome : first machine with
      | ok value between =>
          rw [Action.leaves_of_ok outcome] at firstInduction
          rw [Action.leaves_bind_of_ok outcome]
          exact firstInduction.trans (nextInduction value between outcome)
      | error stop between =>
          rw [Action.leaves_of_error outcome] at firstInduction
          rw [Action.leaves_bind_of_error outcome]
          exact firstInduction

/-- Where calls are nested too deeply, a part has found them so. -/
theorem blames {limit : Nat} (composed : Composed fuel parts action machine)
    (deep : action machine = .error (.fault (.tooDeep limit)) final) :
    ∃ next start last,
      parts next start ∧ next.perform fuel start = .error (.fault (.tooDeep limit)) last := by
  induction composed with
  | own calls => exact absurd deep (calls.shallow limit final)
  | part starts => exact ⟨_, _, _, starts, deep⟩
  | @bind _ _ first _ machine _ _ firstInduction nextInduction =>
      cases outcome : first machine with
      | ok value between =>
          rw [Action.bind_of_ok outcome] at deep
          exact nextInduction value between outcome deep
      | error stop between =>
          rw [Action.bind_of_error outcome] at deep
          cases deep
          exact firstInduction outcome

end Composed

/-! ## Calls of closures -/

section

variable {fuel : Nat} {address : ClosureAddress} {closure : Closure} {receiver : Value}
  {arguments : List Value} {machine after : Machine}

/-- A nested action stops at the limit of calls, or its body stops above the count of calls. -/
theorem Action.nested_eq_error {α : Type} {body : Action α} {stop : Stop} :
    Action.nested body machine = .error stop after ↔
      machine.depthLimit ≤ machine.depth ∧ stop = .fault (.tooDeep machine.depthLimit) ∧
          after = machine ∨
        machine.depth < machine.depthLimit ∧ ∃ final,
          body { machine with depth := machine.depth + 1 } = .error stop final ∧
            after = final.endCall := by
  unfold Action.nested
  by_cases deep : machine.depthLimit ≤ machine.depth
  · simp [deep, Nat.not_lt.mpr deep, eq_comm]
  · rw [if_neg deep]
    cases outcome : body { machine with depth := machine.depth + 1 } with
    | ok value final => simp [deep]
    | error other final =>
        constructor
        · intro equal
          cases equal
          exact .inr ⟨Nat.not_le.mp deep, final, rfl, rfl⟩
        · rintro (⟨deep', _⟩ | ⟨_, _, equal, rfl⟩)
          · exact absurd deep' deep
          · cases equal
            rfl

/-- The end of a call takes back what its beginning has counted. -/
theorem Sequel.endCall {frame : Frame} (sequel : (machine.beginCall frame).Sequel after) :
    machine.Sequel after.endCall where
  depth := by
    have counted := sequel.depth
    simp only [beginCall] at counted
    simp only [Machine.endCall, counted, Nat.add_sub_cancel]
  depthLimit := sequel.depthLimit
  output := sequel.output

/-- The body of a function that is called is composed of the part of the call. -/
theorem composed_runBody (found : machine.store.closure? address = some closure)
    (supported : unsupportedKind? closure.function = none)
    (shallow : machine.depth < machine.depthLimit) :
    Composed fuel (Part fuel (.call (.closure address) receiver arguments) machine)
      (runBody fuel (⟨machine.store.frames.size⟩ :: closure.scope) closure.function.body)
      (machine.beginCall (callFrame closure.function receiver arguments)) := by
  cases body : closure.function.body with
  | block statements =>
      refine .bind ?_ fun _ _ _ => .pure _
      exact @Composed.part _ _ (.executeAll _ statements) _ (.entered found supported shallow body)
  | result expression => exact .evaluated (.answered found supported shallow body)

/-- At the limit a function is not entered. -/
theorem call_at_limit (found : machine.store.closure? address = some closure)
    (supported : unsupportedKind? closure.function = none)
    (deep : machine.depthLimit ≤ machine.depth) :
    call (fuel + 1) (.closure address) receiver arguments machine =
      .error (.fault (.tooDeep machine.depthLimit)) machine := by
  rw [call_closure_of_some found, enterClosure, supported]
  exact Action.nested_eq_error.mpr (.inl ⟨deep, rfl, rfl⟩)

theorem sequel_call_closure
    (given : ∀ next start, Part fuel (.call (.closure address) receiver arguments) machine next start →
      start.Sequel ((next.perform fuel).leaves start)) :
    machine.Sequel ((call (fuel + 1) (.closure address) receiver arguments).leaves machine) := by
  cases found : machine.store.closure? address with
  | none =>
      have outcome : call (fuel + 1) (.closure address) receiver arguments machine =
          .ok .undefined machine := by
        rw [call_closure, Action.bind_of_ok (Action.query_apply _ machine), found]
        rfl
      rw [Action.leaves_of_ok outcome]
      exact .refl _
  | some closure =>
      rw [Action.leaves_congr (call_closure_of_some found), enterClosure]
      cases supported : unsupportedKind? closure.function with
      | some construct => exact .refl _
      | none =>
          by_cases shallow : machine.depth < machine.depthLimit
          · rw [Action.leaves_nested shallow]
            exact ((composed_runBody found supported shallow).sequel given).endCall
          · rw [Action.leaves_nested_of_deep shallow]
            exact .refl _

/-- A call finds that calls are nested too deeply if it begins at the limit or its part does. -/
theorem call_closure_blames {limit : Nat}
    (deep : call (fuel + 1) (.closure address) receiver arguments machine =
      .error (.fault (.tooDeep limit)) after) :
    (∃ closure, machine.store.closure? address = some closure ∧
        unsupportedKind? closure.function = none ∧ machine.depthLimit ≤ machine.depth ∧
          limit = machine.depthLimit) ∨
      ∃ next start last, Part fuel (.call (.closure address) receiver arguments) machine next start ∧
        next.perform fuel start = .error (.fault (.tooDeep limit)) last := by
  cases found : machine.store.closure? address with
  | none =>
      rw [call_closure, Action.bind_of_ok (Action.query_apply _ machine), found] at deep
      cases deep
  | some closure =>
      rw [call_closure_of_some found, enterClosure] at deep
      cases supported : unsupportedKind? closure.function with
      | some construct =>
          rw [supported] at deep
          cases deep
      | none =>
          rw [supported] at deep
          rcases Action.nested_eq_error.mp deep with
            ⟨reached, equal, _⟩ | ⟨shallow, final, outcome, _⟩
          · cases equal
            exact .inl ⟨closure, rfl, supported, reached, rfl⟩
          · exact .inr ((composed_runBody found supported shallow).blames outcome)

end

/-! ## Tasks -/

section

variable {fuel : Nat} {task next : Task} {machine start final : Machine}

theorem perform_zero (task : Task) (machine : Machine) :
    task.perform 0 machine = .error .exhausted machine := by
  cases task <;> rfl

/-- A task leaves the count of calls as it has found it, and all that has been written. -/
theorem Task.sequel (task : Task) (fuel : Nat) (machine : Machine) :
    machine.Sequel ((task.perform fuel).leaves machine) := by
  induction fuel generalizing task machine with
  | zero =>
      rw [Action.leaves_of_error (perform_zero task machine)]
      exact .refl _
  | succ fuel induction =>
      -- The calls of closures are the tasks that are not composed: they alone change the count.
      by_cases call : ∃ address receiver arguments,
          task = .call (.closure address) receiver arguments
      · obtain ⟨address, receiver, arguments, rfl⟩ := call
        exact sequel_call_closure fun next start _ => induction next start
      · have other := fun address receiver arguments equal =>
          call ⟨address, receiver, arguments, equal⟩
        exact (Task.composed other).sequel fun next start _ => induction next start

/-- What is composed of tasks leaves the count of calls as it has found it. -/
theorem Composed.after {α : Type} {action : Action α} {value : α}
    (composed : Composed fuel (fun _ _ => True) action machine)
    (outcome : action machine = .ok value start) : machine.Sequel start := by
  have sequel := composed.sequel fun next start _ => next.sequel fuel start
  rwa [Action.leaves_of_ok outcome] at sequel

theorem Sequel.evaluated {scope : Scope} {expression : Expression} {value : Value}
    (outcome : evaluate fuel scope expression machine = .ok value start) : machine.Sequel start :=
  Composed.after (.evaluated trivial) outcome

theorem Sequel.executed {scope : Scope} {label : Option String} {statement : Statement}
    {completion : Completion}
    (outcome : execute fuel scope label statement machine = .ok completion start) :
    machine.Sequel start :=
  Composed.after (.executed trivial) outcome

theorem Sequel.enterFrame (machine : Machine) : machine.Sequel machine.enterFrame :=
  ⟨rfl, rfl, List.prefix_rfl⟩

theorem EvaluatedInOrder.sequel {scope : Scope} {expressions : List Expression} {part : Expression}
    (inOrder : EvaluatedInOrder fuel scope expressions machine part start) :
    machine.Sequel start := by
  induction inOrder with
  | head => exact .refl _
  | tail evaluated _ induction => exact (Sequel.evaluated evaluated).trans induction

theorem Initializes.sequel {scope : Scope} {kind : DeclarationKind} {declarators : List Declarator}
    {part : Expression} (initializes : Initializes fuel scope kind declarators machine part start) :
    machine.Sequel start := by
  obtain ⟨before, _, _, _, declared⟩ := initializes
  exact Composed.after (.declareVariables before fun _ _ _ => trivial) declared

theorem Sequel.mapM {scope : Scope} {expressions : List Expression} {values : List Value}
    (outcome : expressions.mapM (evaluate fuel scope) machine = .ok values start) :
    machine.Sequel start :=
  Composed.after (.mapM expressions fun _ _ _ => trivial) outcome

theorem Sequel.calleeOf {scope : Scope} {callee : Expression} {found : Value × Value}
    (outcome : calleeOf (evaluate fuel scope) callee machine = .ok found start) :
    machine.Sequel start :=
  Composed.after (.calleeOf fun _ _ _ => trivial) outcome

theorem Sequel.testRound {scope : Scope} {test : Option Expression} {goesOn : Bool}
    (outcome : testRound (evaluate fuel scope) test machine = .ok goesOn start) :
    machine.Sequel start :=
  Composed.after (.testRound fun _ _ => trivial) outcome

/--
A part of a task starts with as many calls as the task, unless it is the body of
a function that is called below the limit.
-/
theorem Part.starts (part : Part fuel task machine next start) :
    machine.Sequel start ∨
      machine.depth < machine.depthLimit ∧ ∃ frame, start = machine.beginCall frame := by
  cases part with
  | operand inOrder => exact .inl inOrder.sequel
  | right evaluated _ | chosen evaluated | consequent evaluated _ | alternate evaluated _ =>
      exact .inl (.evaluated evaluated)
  | assigned found _ =>
      exact .inl (Composed.after (.placeOf fun _ _ _ => trivial) found)
  | argument found inOrder => exact .inl ((Sequel.calleeOf found).trans inOrder.sequel)
  | called found given _ => exact .inl ((Sequel.calleeOf found).trans (.mapM given))
  | constructed evaluated given => exact .inl ((Sequel.evaluated evaluated).trans (.mapM given))
  | initialized _ _ => exact .inl ⟨rfl, rfl, List.prefix_rfl⟩
  | entered _ _ shallow _ | answered _ _ shallow _ => exact .inr ⟨shallow, _, rfl⟩
  | subject _ | labeled | whileLoop | firstRound | tested => exact .inl (.refl _)
  | block | loopStart => exact .inl (.enterFrame machine)
  | doWhileLoop ended _ => exact .inl (.executed ended)
  | loopVariable initializes => exact .inl ((Sequel.enterFrame machine).trans initializes.sequel)
  | forLoop started =>
      refine .inl ((Sequel.enterFrame machine).trans ?_)
      exact Composed.after (.startLoop (fun _ _ _ _ _ _ => trivial) fun _ _ => trivial) started
  | «variable» initializes => exact .inl initializes.sequel
  | @statement scope before rest statement _ hoisted _ declared ended =>
      have ready : machine.Sequel hoisted :=
        @Composed.after fuel machine hoisted _ _ _ (.hoist _) declared
      exact .inl (ready.trans (Composed.after (.inTurn before fun _ _ _ _ _ _ => trivial) ended))
  | round goesOn => exact .inl (.testRound goesOn)
  | stepped goesOn ended _ => exact .inl ((Sequel.testRound goesOn).trans (.executed ended))
  | again goesOn ended _ stepped =>
      refine .inl (((Sequel.testRound goesOn).trans (.executed ended)).trans ?_)
      exact Composed.after (.stepRound fun _ _ => trivial) stepped

/-- In the course of a task the count of calls stays within a limit that does not change. -/
theorem Performs.within_limit {less : Nat} {inner : Task}
    (performs : Performs less inner start fuel task machine) :
    machine.depth ≤ machine.depthLimit →
      start.depth ≤ machine.depthLimit ∧ start.depthLimit = machine.depthLimit := by
  induction performs with
  | itself => exact fun within => ⟨within, rfl⟩
  | part part _ induction =>
      intro within
      rcases part.starts with sequel | ⟨shallow, frame, rfl⟩
      · rw [← sequel.depthLimit]
        exact induction (by rw [sequel.depth, sequel.depthLimit]; exact within)
      · exact induction shallow

/-- A call of a closure that the machine can call begins where the count has reached the limit. -/
def CallsAtLimit (limit : Nat) (task : Task) (machine : Machine) : Prop :=
  ∃ address receiver arguments closure,
    task = .call (.closure address) receiver arguments ∧
      machine.store.closure? address = some closure ∧ closure.function.isAsync = false ∧
        closure.function.isGenerator = false ∧ machine.depth = limit

theorem unsupportedKind?_eq_none {function : Function} :
    unsupportedKind? function = none ↔ function.isAsync = false ∧ function.isGenerator = false := by
  unfold unsupportedKind?
  cases function.isAsync <;> cases function.isGenerator <;> simp

/-- Where calls are nested too deeply, a call has begun at the limit. -/
theorem Task.blames {limit : Nat} (within : machine.depth ≤ machine.depthLimit)
    (deep : task.perform fuel machine = .error (.fault (.tooDeep limit)) final) :
    limit = machine.depthLimit ∧ ∃ less inner start,
      Performs (less + 1) inner start fuel task machine ∧ CallsAtLimit limit inner start := by
  induction fuel generalizing task machine final with
  | zero =>
      rw [perform_zero] at deep
      cases deep
  | succ fuel induction =>
      have carried {next : Task} {start last : Machine}
          (part : Part fuel task machine next start)
          (deep : next.perform fuel start = .error (.fault (.tooDeep limit)) last) :
          limit = machine.depthLimit ∧ ∃ less inner start,
            Performs (less + 1) inner start (fuel + 1) task machine ∧
              CallsAtLimit limit inner start := by
        obtain ⟨shallow, same⟩ := (Performs.part part .itself).within_limit within
        obtain ⟨equal, less, inner, begun, performs, calls⟩ :=
          induction (by rw [same]; exact shallow) deep
        exact ⟨equal.trans same, less, inner, begun, .part part performs, calls⟩
      by_cases call : ∃ address receiver arguments,
          task = .call (.closure address) receiver arguments
      · obtain ⟨address, receiver, arguments, rfl⟩ := call
        rcases call_closure_blames deep with
          ⟨closure, found, supported, reached, equal⟩ | ⟨next, start, last, part, deeper⟩
        · obtain ⟨notAsync, notGenerator⟩ := unsupportedKind?_eq_none.mp supported
          refine ⟨equal, fuel, _, machine, .itself, address, receiver, arguments, closure, rfl,
            found, notAsync, notGenerator, ?_⟩
          rw [equal]
          exact Nat.le_antisymm within reached
        · exact carried part deeper
      · have other := fun address receiver arguments equal =>
          call ⟨address, receiver, arguments, equal⟩
        obtain ⟨next, start, last, part, deeper⟩ := (Task.composed other).blames deep
        exact carried part deeper

/-- A call that begins at the limit ends the task in the course of which it begins. -/
theorem CallsAtLimit.ends {less : Nat} {inner : Task}
    (within : machine.depth ≤ machine.depthLimit)
    (performs : Performs (less + 1) inner start fuel task machine)
    (calls : CallsAtLimit machine.depthLimit inner start) :
    ∃ final, task.perform fuel machine = .error (.fault (.tooDeep machine.depthLimit)) final := by
  obtain ⟨address, receiver, arguments, closure, rfl, found, notAsync, notGenerator, reached⟩ :=
    calls
  obtain ⟨_, same⟩ := performs.within_limit within
  have deep : call (less + 1) (.closure address) receiver arguments start =
      .error (.fault (.tooDeep start.depthLimit)) start :=
    call_at_limit found (unsupportedKind?_eq_none.mpr ⟨notAsync, notGenerator⟩)
      (by rw [same, reached])
  rw [same] at deep
  obtain ⟨last, outcome, _⟩ := performs.within.stops deep
  exact ⟨last, outcome⟩

/--
A task leaves the count of calls as it has found it, however it ends, and what
has been written stays in front of what is written.  Whatever is performed in
its course starts with no more calls than the limit allows.  The task ends for
the depth of calls just if a call of a function that is neither asynchronous nor
a generator begins in its course while as many calls are being performed as the
limit allows.
-/
theorem keeps_depth (task : Task) (fuel : Nat) (machine : Machine)
    (within : machine.depth ≤ machine.depthLimit) :
    ((task.perform fuel).leaves machine).depth = machine.depth ∧
      ((task.perform fuel).leaves machine).depthLimit = machine.depthLimit ∧
      machine.output.toList <+: ((task.perform fuel).leaves machine).output.toList ∧
      (∀ less inner start, Performs less inner start fuel task machine →
        start.depth ≤ machine.depthLimit) ∧
      ∀ limit, (∃ final, task.perform fuel machine = .error (.fault (.tooDeep limit)) final) ↔
        limit = machine.depthLimit ∧ ∃ less inner start,
          Performs (less + 1) inner start fuel task machine ∧ CallsAtLimit limit inner start := by
  have sequel := task.sequel fuel machine
  refine ⟨sequel.depth, sequel.depthLimit, sequel.output,
    fun less inner start performs => (performs.within_limit within).1, fun limit => ⟨?_, ?_⟩⟩
  · rintro ⟨final, deep⟩
    exact Task.blames within deep
  · rintro ⟨rfl, less, inner, start, performs, calls⟩
    exact calls.ends within performs

end

/-- `function f() { return f(); }` -/
def selfCalling : Function :=
  ⟨some "f", [], .block [.giveBack (some (.call (.identifier "f") []))], false, false, false⟩

theorem keeps_depth_selfCalling :
    ∃ machine, (executeAll 2 globalScope [.declare selfCalling]).leaves (fresh 2) = machine ∧
      ∃ less inner start,
        Performs (less + 1) inner start 20 (.call (.closure ⟨0⟩) .undefined []) machine ∧
          CallsAtLimit 2 inner start := by
  refine ⟨_, rfl, ?_⟩
  obtain ⟨_, _, _, _, deep⟩ := keeps_depth (.call (.closure ⟨0⟩) .undefined []) 20
    ((executeAll 2 globalScope [.declare selfCalling]).leaves (fresh 2)) (by decide)
  exact ((deep 2).mp ⟨_, rfl⟩).2

end Covenant.Machine
