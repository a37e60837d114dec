import Covenant.Proofs.Trace

/-!
# What tasks are made of

A task is made of its parts and of steps of its own.  Its own steps call
nothing: no call begins or ends in them, no line that has been written is taken
back, and none of them finds that calls are nested too deeply.  So whatever
becomes of the calls in a run is the doing of some part, and what holds of the
calls of a task follows from what holds of those of its parts.

The one task that is not made in this way is a call that enters a closure.
-/

namespace Covenant.Machine

/--
What a machine may turn into while no call begins or ends: as many calls are
being performed, under the same limit, and what has been written stays written.
-/
structure Sequel (machine after : Machine) : Prop where
  depth : after.depth = machine.depth
  depthLimit : after.depthLimit = machine.depthLimit
  output : machine.output.toList <+: after.output.toList

namespace Sequel

variable {machine between after : Machine}

theorem refl (machine : Machine) : machine.Sequel machine :=
  ⟨rfl, rfl, List.prefix_rfl⟩

theorem trans (first : machine.Sequel between) (second : between.Sequel after) :
    machine.Sequel after where
  depth := second.depth.trans first.depth
  depthLimit := second.depthLimit.trans first.depthLimit
  output := first.output.trans second.output

end Sequel

/-! ## Steps that call nothing -/

/-- Reading a name never fails for the depth of calls. -/
theorem Store.read_ne_tooDeep {store : Store} {scope : Scope} {name : String} {limit : Nat} :
    store.read scope name ≠ .error (.tooDeep limit) := by
  unfold read
  split <;> simp

theorem Store.property_ne_tooDeep {store : Store} {base : Value} {key : String} {limit : Nat} :
    store.property base key ≠ .error (.tooDeep limit) := by
  unfold property
  split <;> try simp
  split <;> simp

theorem Store.assign_ne_tooDeep {store : Store} {scope : Scope} {name : String} {value : Value}
    {limit : Nat} : store.assign scope name value ≠ .error (.tooDeep limit) := by
  unfold assign
  split
  · simp
  · split <;> simp

theorem Store.setProperty_ne_tooDeep {store : Store} {base value : Value} {key : String}
    {limit : Nat} : store.setProperty base key value ≠ .error (.fault (.tooDeep limit)) := by
  have resolved : store.resolveWrite base key value ≠ .error (.fault (.tooDeep limit)) := by
    unfold resolveWrite resolveLength
    repeat' split
    all_goals simp
  unfold setProperty
  split
  · simp
  case h_2 stop refused =>
    intro deep
    cases deep
    exact resolved refused

theorem binaryResult_ne_tooDeep {store : Store} {operator : BinaryOperator} {left right : Value}
    {limit : Nat} : binaryResult store operator left right ≠ .error (.tooDeep limit) := by
  have searched : (store.hasProperty right (left.toKey store)).map Value.truth ≠
      .error (.tooDeep limit) := by
    unfold Store.hasProperty
    split <;> simp [Except.map]
  have tested : (instanceTest store left right).map Value.truth ≠ .error (.tooDeep limit) := by
    unfold instanceTest
    split <;> simp [Except.map]
  unfold binaryResult
  split
  case h_5 => exact searched
  case h_6 => exact tested
  case h_7 => split <;> simp
  all_goals simp

/-- An action calls nothing when it is performed from a machine on. -/
structure Action.CallsNothing {α : Type} (action : Action α) (machine : Machine) : Prop where
  sequel : machine.Sequel (action.leaves machine)
  shallow (limit : Nat) (final : Machine) : action machine ≠ .error (.fault (.tooDeep limit)) final

namespace Action.CallsNothing

variable {α : Type} {machine : Machine}

theorem pure (result : α) : CallsNothing (Pure.pure result) machine :=
  ⟨.refl _, nofun⟩

theorem fail {fault : Fault} (other : ∀ limit, fault ≠ .tooDeep limit) :
    CallsNothing (Action.fail fault : Action α) machine where
  sequel := .refl _
  shallow limit _ deep := by
    cases deep
    exact other limit rfl

theorem exhausted : CallsNothing (throw .exhausted : Action α) machine :=
  ⟨.refl _, nofun⟩

theorem query (look : Store → α) : CallsNothing (Action.query look) machine :=
  ⟨.refl _, nofun⟩

theorem check {look : Store → Except Fault α}
    (other : ∀ limit, look machine.store ≠ .error (.tooDeep limit)) :
    CallsNothing (Action.check look) machine := by
  cases looked : look machine.store with
  | ok result =>
      have outcome : Action.check look machine = .ok result machine := by
        rw [Action.check, looked]
      refine ⟨?_, fun _ _ deep => by cases outcome.symm.trans deep⟩
      rw [leaves_of_ok outcome]
      exact .refl _
  | error fault =>
      have outcome : Action.check look machine = .error (.fault fault) machine := by
        rw [Action.check, looked]
      refine ⟨?_, fun limit _ deep => ?_⟩
      · rw [leaves_of_error outcome]
        exact .refl _
      · cases outcome.symm.trans deep
        exact other limit looked

theorem allocate (add : Store → α × Store) : CallsNothing (Action.allocate add) machine :=
  ⟨⟨rfl, rfl, List.prefix_rfl⟩, nofun⟩

theorem update (change : Store → Store) : CallsNothing (Action.update change) machine :=
  ⟨⟨rfl, rfl, List.prefix_rfl⟩, nofun⟩

theorem tryUpdate {change : Store → Except Stop Store}
    (other : ∀ limit, change machine.store ≠ .error (.fault (.tooDeep limit))) :
    CallsNothing (Action.tryUpdate change) machine := by
  cases changed : change machine.store with
  | ok store =>
      have outcome : Action.tryUpdate change machine = .ok () { machine with store := store } := by
        rw [Action.tryUpdate, changed]
      refine ⟨?_, fun _ _ deep => by cases outcome.symm.trans deep⟩
      rw [leaves_of_ok outcome]
      exact ⟨rfl, rfl, List.prefix_rfl⟩
  | error stop =>
      have outcome : Action.tryUpdate change machine = .error stop machine := by
        rw [Action.tryUpdate, changed]
      refine ⟨?_, fun limit _ deep => ?_⟩
      · rw [leaves_of_error outcome]
        exact .refl _
      · cases outcome.symm.trans deep
        exact other limit changed

theorem writeLine (line : String) : CallsNothing (Action.writeLine line) machine := by
  refine ⟨⟨rfl, rfl, ?_⟩, nofun⟩
  simp [Action.leaves, Action.writeLine]

end Action.CallsNothing

/-! ## Composition -/

/--
An action, as it is performed from a machine on, is composed of steps that call
nothing and of some parts.
-/
inductive Composed (fuel : Nat) (parts : Task → Machine → Prop) :
    {α : Type} → Action α → Machine → Prop where
  | own {α : Type} {action : Action α} {machine : Machine} :
      action.CallsNothing machine → Composed fuel parts action machine
  | part {next : Task} {start : Machine} :
      parts next start → Composed fuel parts (next.perform fuel) start
  | bind {α β : Type} {first : Action α} {next : α → Action β} {machine : Machine} :
      Composed fuel parts first machine →
        (∀ value between, first machine = .ok value between →
          Composed fuel parts (next value) between) →
          Composed fuel parts (first >>= next) machine

namespace Composed

variable {fuel : Nat} {parts : Task → Machine → Prop} {scope : Scope} {machine : Machine}
  {α : Type}

theorem pure (result : α) : Composed fuel parts (Pure.pure result) machine :=
  .own (.pure result)

theorem fail {fault : Fault} (other : ∀ limit, fault ≠ .tooDeep limit) :
    Composed fuel parts (Action.fail fault : Action α) machine :=
  .own (.fail other)

theorem query (look : Store → α) : Composed fuel parts (Action.query look) machine :=
  .own (.query look)

theorem property (base : Value) (key : String) :
    Composed fuel parts (Action.check fun store => store.property base key) machine :=
  .own (.check fun _ => Store.property_ne_tooDeep)

theorem binaryResult (operator : BinaryOperator) (left right : Value) :
    Composed fuel parts
      (Action.check fun store => Machine.binaryResult store operator left right) machine :=
  .own (.check fun _ => binaryResult_ne_tooDeep)

theorem evaluated {expression : Expression} (given : parts (.evaluate scope expression) machine) :
    Composed fuel parts (evaluate fuel scope expression) machine :=
  .part given

theorem executed {label : Option String} {statement : Statement}
    (given : parts (.execute scope label statement) machine) :
    Composed fuel parts (execute fuel scope label statement) machine :=
  .part given

/-- What only looks at the machine comes before the parts. -/
theorem look_bind {β : Type} {first : Action α} {next : α → Action β} {value : α}
    (outcome : first machine = .ok value machine)
    (rest : Composed fuel parts (next value) machine) :
    Composed fuel parts (first >>= next) machine := by
  refine .bind (.own ⟨?_, ?_⟩) fun other between other' => ?_
  · rw [Action.leaves_of_ok outcome]
    exact .refl _
  · intro limit final deep
    cases outcome.symm.trans deep
  · cases outcome.symm.trans other'
    exact rest

/-! ### Expressions in order -/

theorem mapM : (expressions : List Expression) → ∀ {machine},
    (∀ part start, EvaluatedInOrder fuel scope expressions machine part start →
      parts (.evaluate scope part) start) →
      Composed fuel parts (expressions.mapM (evaluate fuel scope)) machine
  | [], _, _ => pure _
  | expression :: rest, _, given => by
      rw [List.mapM_cons]
      refine .bind (evaluated (given _ _ .head)) fun _ between outcome => ?_
      refine .bind (mapM rest fun part start inOrder => ?_) fun _ _ _ => pure _
      exact given part start (.tail outcome inOrder)

theorem lastValue : (expressions : List Expression) → ∀ {last machine},
    (∀ part start, EvaluatedInOrder fuel scope expressions machine part start →
      parts (.evaluate scope part) start) →
      Composed fuel parts (Machine.lastValue (evaluate fuel scope) last expressions) machine
  | [], _, _, _ => pure _
  | _ :: rest, _, _, given =>
      .bind (evaluated (given _ _ .head)) fun _ _ outcome =>
        lastValue rest fun part start inOrder => given part start (.tail outcome inOrder)

theorem evaluateProperties {properties : List Property}
    (given : ∀ part start,
      EvaluatedInOrder fuel scope (properties.map (·.value)) machine part start →
        parts (.evaluate scope part) start) :
    Composed fuel parts (Machine.evaluateProperties (evaluate fuel scope) properties) machine := by
  refine .bind ?_ fun _ _ _ => pure _
  induction properties generalizing machine with
  | nil => exact pure _
  | cons property rest induction =>
      rw [List.mapM_cons, bind_assoc]
      refine .bind (evaluated (given _ _ .head)) fun value between outcome => ?_
      rw [pure_bind]
      refine .bind (induction fun part start inOrder => ?_) fun _ _ _ => pure _
      exact given part start (.tail outcome inOrder)

theorem propertyOf? {target : Expression} {found : Action (Value × String)}
    (denotes : Machine.propertyOf? (evaluate fuel scope) target = some found)
    (given : ∀ part start, EvaluatedInOrder fuel scope (propertyParts target) machine part start →
      parts (.evaluate scope part) start) : Composed fuel parts found machine := by
  cases target with
  | member object name =>
      cases denotes
      exact .bind (evaluated (given _ _ .head)) fun _ _ _ => pure _
  | index object key =>
      cases denotes
      refine .bind (evaluated (given _ _ .head)) fun _ _ outcome => ?_
      refine .bind (evaluated (given _ _ (.tail outcome .head))) fun _ _ _ => ?_
      exact .bind (query _) fun _ _ _ => pure _
  | _ => cases denotes

theorem placeOf {target : Expression}
    (given : ∀ part start, EvaluatedInOrder fuel scope (propertyParts target) machine part start →
      parts (.evaluate scope part) start) :
    Composed fuel parts (Machine.placeOf (evaluate fuel scope) target) machine := by
  unfold Machine.placeOf
  split
  · exact pure _
  · split
    case h_1 found denotes => exact .bind (propertyOf? denotes given) fun _ _ _ => pure _
    case h_2 => exact fail (by simp)

theorem calleeOf {callee : Expression}
    (given : ∀ part start, EvaluatedInOrder fuel scope (calleeParts callee) machine part start →
      parts (.evaluate scope part) start) :
    Composed fuel parts (Machine.calleeOf (evaluate fuel scope) callee) machine := by
  unfold Machine.calleeOf
  split
  case h_1 found denotes =>
    have same : calleeParts callee = propertyParts callee := by
      cases callee <;> first | rfl | cases denotes
    rw [same] at given
    refine .bind (propertyOf? denotes given) fun _ _ _ => ?_
    exact .bind (property _ _) fun _ _ _ => pure _
  case h_2 other =>
    refine .bind (evaluated (given _ _ ?_)) fun _ _ _ => pure _
    cases callee with
    | member | index => cases other
    | _ => exact .head

theorem readPlace (place : Place) : Composed fuel parts (Machine.readPlace scope place) machine := by
  cases place with
  | binding name =>
      rw [Machine.readPlace]
      exact .own (.check fun _ => Store.read_ne_tooDeep)
  | property base key =>
      rw [Machine.readPlace]
      exact property base key

theorem writePlace (place : Place) (value : Value) :
    Composed fuel parts (Machine.writePlace scope place value) machine := by
  cases place with
  | binding name =>
      rw [Machine.writePlace]
      refine .own (.tryUpdate fun limit deep => ?_)
      cases outcome : machine.store.assign scope name value with
      | ok store => simp [outcome, Except.mapError] at deep
      | error fault =>
          rw [outcome] at deep
          cases deep
          exact Store.assign_ne_tooDeep outcome
  | property base key =>
      rw [Machine.writePlace]
      exact .own (.tryUpdate fun _ => Store.setProperty_ne_tooDeep)

/-! ### Declarations and statements in order -/

theorem declare (name : String) (binding : Binding) :
    Composed fuel parts (Machine.declare scope name binding) machine :=
  .own (.update _)

theorem makeClosure (function : Function) :
    Composed fuel parts (Machine.makeClosure scope function) machine :=
  .own (.allocate _)

theorem enterBlock : Composed fuel parts (Machine.enterBlock scope) machine :=
  .own (.allocate _)

theorem makeLambda (function : Function) :
    Composed fuel parts (Machine.makeLambda scope function) machine := by
  unfold Machine.makeLambda
  split
  · refine .bind enterBlock fun _ _ _ => .bind (makeClosure _) fun _ _ _ => ?_
    exact .bind (declare _ _) fun _ _ _ => pure _
  · exact makeClosure _

theorem hoist (statements : List Statement) :
    Composed fuel parts (Machine.hoist scope statements) machine := by
  unfold Machine.hoist
  induction statements generalizing machine with
  | nil => exact pure _
  | cons statement rest induction =>
      rw [List.forM]
      refine .bind ?_ fun _ _ _ => induction
      split
      · split
        · exact .bind (makeClosure _) fun _ _ _ => declare _ _
        · exact pure _
      · exact pure _

theorem declareVariables {kind : DeclarationKind} : (declarators : List Declarator) →
    ∀ {machine},
      (∀ part start, Initializes fuel scope kind declarators machine part start →
        parts (.evaluate scope part) start) →
        Composed fuel parts
          (Machine.declareVariables (evaluate fuel scope) scope kind declarators) machine
  | [], _, _ => pure _
  | declarator :: rest, machine, given => by
      obtain ⟨name, init⟩ := declarator
      have single (between : Machine)
          (declared : Machine.declareVariables (evaluate fuel scope) scope kind [⟨name, init⟩]
            machine = .ok () between) :
          Composed fuel parts (Machine.declareVariables (evaluate fuel scope) scope kind rest)
            between := by
        refine declareVariables rest fun part start initializes => ?_
        obtain ⟨before, other, others, rfl, outcome⟩ := initializes
        obtain ⟨_, _, done, ended⟩ := Action.bind_eq_ok.mp declared
        cases ended
        exact given part start ⟨⟨name, init⟩ :: before, other, others, rfl,
          Action.bind_eq_ok.mpr ⟨_, between, done, outcome⟩⟩
      refine .bind ?_ fun _ between outcome =>
        single between (Action.bind_eq_ok.mpr ⟨_, between, outcome, rfl⟩)
      cases init with
      | none => exact .bind (pure _) fun _ _ _ => declare _ _
      | some init =>
          refine .bind (evaluated (given _ _ ?_)) fun _ _ _ => declare _ _
          exact ⟨[], name, rest, rfl, rfl⟩

theorem inTurn : (statements : List Statement) → ∀ {machine},
    (∀ before statement rest start, statements = before ++ statement :: rest →
      Machine.inTurn (execute fuel scope none) before machine = .ok .finished start →
        parts (.execute scope none statement) start) →
      Composed fuel parts (Machine.inTurn (execute fuel scope none) statements) machine
  | [], _, _ => pure _
  | statement :: rest, _, given => by
      rw [Machine.inTurn]
      refine .bind (executed (given [] statement rest _ rfl rfl)) fun completion between outcome => ?_
      cases completion with
      | finished =>
          refine inTurn rest fun before other others start equal ended => ?_
          refine given (statement :: before) other others start (by rw [equal]; rfl) ?_
          exact Action.bind_eq_ok.mpr ⟨_, between, outcome, ended⟩
      | returned | broken | continued => exact pure _

theorem startLoop {init : Option LoopInit}
    (variables' : ∀ kind declarators part start, init = some (.bindings kind declarators) →
      Initializes fuel scope kind declarators machine part start → parts (.evaluate scope part) start)
    (expression' : ∀ expression, init = some (.evaluate expression) →
      parts (.evaluate scope expression) machine) :
    Composed fuel parts (Machine.startLoop (evaluate fuel scope) scope init) machine := by
  unfold Machine.startLoop
  split
  · exact pure _
  case h_2 kind declarators =>
    exact declareVariables declarators fun part start =>
      variables' kind declarators part start rfl
  case h_3 expression => exact .bind (evaluated (expression' expression rfl)) fun _ _ _ => pure _

theorem testRound {test : Option Expression}
    (given : ∀ expression, test = some expression → parts (.evaluate scope expression) machine) :
    Composed fuel parts (Machine.testRound (evaluate fuel scope) test) machine := by
  cases test with
  | none => exact pure _
  | some test => exact .bind (evaluated (given test rfl)) fun _ _ _ => pure _

theorem stepRound {step : Option Expression}
    (given : ∀ expression, step = some expression → parts (.evaluate scope expression) machine) :
    Composed fuel parts (Machine.stepRound (evaluate fuel scope) step) machine := by
  cases step with
  | none => exact pure _
  | some step => exact .bind (evaluated (given step rfl)) fun _ _ _ => pure _

end Composed

/-! ## Tasks -/

section

variable {fuel : Nat} {scope : Scope} {machine : Machine}

/-- Asking for the type of a name evaluates no operand. -/
theorem composed_unary (operator : UnaryOperator) (argument : Expression) :
    Composed fuel (Part fuel (.evaluate scope (.unary operator argument)) machine)
      (evaluate (fuel + 1) scope (.unary operator argument)) machine := by
  obtain ⟨unbound, looked⟩ := exists_isUnboundName scope argument machine
  rw [evaluate]
  refine .look_bind looked ?_
  split
  · exact .pure _
  · refine .bind ?_ fun _ _ _ => .query _
    by_cases asked : operator = .typeOf ∧ ∃ name, argument = .identifier name
    · obtain ⟨rfl, name, rfl⟩ := asked
      refine .own ?_
      cases fuel with
      | zero =>
          rw [evaluate]
          exact .exhausted
      | succ fuel =>
          rw [evaluate]
          exact .check fun _ => Store.read_ne_tooDeep
    · have single : operands (.unary operator argument) = [argument] := by
        cases argument with
        | identifier name =>
            cases operator with
            | typeOf => exact absurd ⟨rfl, name, rfl⟩ asked
            | _ => rfl
        | _ => cases operator <;> rfl
      refine .evaluated (.operand ?_)
      rw [single]
      exact .head

theorem composed_assign (operator : AssignOperator) (target value : Expression) :
    Composed fuel (Part fuel (.evaluate scope (.assign operator target value)) machine)
      (evaluate (fuel + 1) scope (.assign operator target value)) machine := by
  rw [evaluate]
  refine .bind (.placeOf fun _ _ inOrder => .operand inOrder) fun place between found => ?_
  cases asks : operator.binary? with
  | none =>
      refine .bind (.evaluated (.assigned found (.inl asks))) fun _ _ _ => ?_
      exact .bind (.writePlace _ _) fun _ _ _ => .pure _
  | some binary =>
      refine .bind (.readPlace place) fun current read outcome => ?_
      -- The part starts where the place was found, and reading it has only looked at the machine.
      have unchanged : read = between := by
        cases place <;>
        · simp only [readPlace, Action.check] at outcome
          split at outcome <;> cases outcome
          rfl
      subst unchanged
      refine .bind (.evaluated (.assigned found (.inr ⟨current, outcome⟩))) fun _ _ _ => ?_
      refine .bind (.binaryResult _ _ _) fun _ _ _ => ?_
      exact .bind (.writePlace _ _) fun _ _ _ => .pure _

theorem composed_evaluate (expression : Expression) :
    Composed fuel (Part fuel (.evaluate scope expression) machine)
      (evaluate (fuel + 1) scope expression) machine := by
  cases expression with
  | unary operator argument => exact composed_unary operator argument
  | assign operator target value => exact composed_assign operator target value
  | literal literal =>
      rw [evaluate]
      exact .pure _
  | identifier name =>
      rw [evaluate]
      exact .own (.check fun _ => Store.read_ne_tooDeep)
  | receiver =>
      rw [evaluate]
      exact .query _
  | yield argument delegate | await argument =>
      rw [evaluate]
      exact .fail (by simp)
  | lambda function =>
      rw [evaluate]
      exact .makeLambda function
  | array elements =>
      rw [evaluate]
      exact .bind (.mapM elements fun _ _ inOrder => .operand inOrder) fun _ _ _ =>
        .own (.allocate _)
  | record properties =>
      rw [evaluate]
      exact .bind (.evaluateProperties fun _ _ inOrder => .operand inOrder) fun _ _ _ =>
        .own (.allocate _)
  | sequence elements =>
      rw [evaluate]
      exact .lastValue elements fun _ _ inOrder => .operand inOrder
  | update operator leading target =>
      rw [evaluate]
      refine .bind (.placeOf fun _ _ inOrder => .operand inOrder) fun place _ _ => ?_
      refine .bind (.readPlace place) fun _ _ _ => .bind (.query _) fun _ _ _ => ?_
      exact .bind (.writePlace place _) fun _ _ _ => .pure _
  | binary operator left right =>
      rw [evaluate]
      refine .bind (.evaluated (.operand .head)) fun _ _ outcome => ?_
      exact .bind (.evaluated (.operand (.tail outcome .head))) fun _ _ _ => .binaryResult _ _ _
  | index object key =>
      rw [evaluate]
      refine .bind (.evaluated (.operand .head)) fun _ _ outcome => ?_
      refine .bind (.evaluated (.operand (.tail outcome .head))) fun _ _ _ => ?_
      exact .own (.check fun _ => Store.property_ne_tooDeep)
  | member object name =>
      rw [evaluate]
      exact .bind (.evaluated (.operand .head)) fun _ _ _ => .property _ _
  | logical operator left right =>
      rw [evaluate]
      refine .bind (.evaluated (.operand .head)) fun value _ outcome => ?_
      cases decides : shortCircuits operator value with
      | true => exact .pure _
      | false => exact .evaluated (.right outcome decides)
  | conditional test consequent alternate =>
      rw [evaluate]
      refine .bind (.evaluated (.operand .head)) fun value between outcome => ?_
      have chosen := @Part.chosen fuel scope test consequent alternate _ _ _ outcome
      cases truthy : value.isTruthy with
      | true =>
          rw [truthy, if_pos rfl] at chosen
          exact .evaluated chosen
      | false =>
          rw [truthy, if_neg Bool.false_ne_true] at chosen
          exact .evaluated chosen
  | call callee arguments =>
      rw [evaluate]
      refine .bind (.calleeOf fun _ _ inOrder => .operand inOrder) fun found _ outcome => ?_
      refine .bind (.mapM arguments fun _ _ inOrder => .argument outcome inOrder)
        fun values _ given => ?_
      cases callable : found.1.isCallable with
      | true => exact @Composed.part _ _ (.call found.1 found.2 values) _ (.called outcome given callable)
      | false => exact .fail (by simp)
  | construct callee arguments =>
      rw [evaluate]
      refine .bind (.evaluated (.operand .head)) fun constructor _ outcome => ?_
      refine .bind (.mapM arguments fun _ _ inOrder => .operand (.tail outcome inOrder))
        fun values _ given => ?_
      exact @Composed.part _ _ (.construct constructor values callee) _ (.constructed outcome given)

theorem composed_construct (constructor : Value) (arguments : List Value) (source : Expression) :
    Composed fuel (Part fuel (.construct constructor arguments source) machine)
      (construct (fuel + 1) constructor arguments source) machine := by
  cases constructor with
  | closure address =>
      rw [construct]
      refine .look_bind (Action.query_apply _ _) ?_
      split
      case isTrue written =>
        obtain ⟨closure, found, written⟩ := exists_of_any_notArrow written
        refine .bind (.own (.allocate _)) fun created _ added => ?_
        cases added
        refine .bind (@Composed.part _ _ (.call (.closure address) _ arguments) _
          (.initialized found written)) fun result _ _ => ?_
        cases result <;> exact .pure _
      case isFalse => exact .fail (by simp)
  | builtin function =>
      cases function with
      | makeError =>
          rw [construct]
          exact .own (.allocate _)
      | writeLine =>
          rw [construct]
          · exact .fail (by simp)
          all_goals simp
  | _ =>
      rw [construct]
      · exact .fail (by simp)
      all_goals simp

/-- A call of anything but a closure. -/
theorem composed_call {callee receiver : Value} {arguments : List Value}
    (other : ∀ address, callee ≠ .closure address) :
    Composed fuel (Part fuel (.call callee receiver arguments) machine)
      (call (fuel + 1) callee receiver arguments) machine := by
  cases callee with
  | closure address => exact absurd rfl (other address)
  | builtin function =>
      cases function with
      | makeError =>
          rw [call]
          exact .own (.allocate _)
      | writeLine =>
          rw [call]
          refine .bind (.query _) fun _ _ _ => ?_
          exact .bind (.own (.writeLine _)) fun _ _ _ => .pure _
  | _ =>
      rw [call]
      · exact .bind (.query _) fun _ _ _ => .fail (by simp)
      all_goals simp

theorem composed_execute (label : Option String) (statement : Statement) :
    Composed fuel (Part fuel (.execute scope label statement) machine)
      (execute (fuel + 1) scope label statement) machine := by
  cases statement with
  | evaluate expression =>
      rw [execute]
      exact .bind (.bind (.evaluated (.subject rfl)) fun _ _ _ => .pure _) fun _ _ _ => .pure _
  | block statements =>
      rw [execute]
      refine .bind .enterBlock fun inner _ entered => ?_
      cases entered
      exact @Composed.part _ _ (.executeAll _ statements) _ .block
  | labeled own body =>
      rw [execute]
      exact .bind (.executed .labeled) fun _ _ _ => .pure _
  | giveBack argument =>
      cases argument with
      | none =>
          rw [execute]
          exact .pure _
      | some argument =>
          rw [execute]
          exact .bind (.evaluated (.subject rfl)) fun _ _ _ => .pure _
  | branch test consequent alternate =>
      rw [execute_branch]
      refine .bind (.evaluated (.subject rfl)) fun value _ outcome => ?_
      cases truthy : value.isTruthy with
      | true => exact .executed (.consequent outcome truthy)
      | false =>
          cases alternate with
          | none => exact .pure _
          | some alternate => exact .executed (.alternate outcome truthy)
  | whileLoop test body =>
      rw [execute]
      exact @Composed.part _ _ (.rounds scope label (some test) none body) _ .whileLoop
  | doWhileLoop body test =>
      rw [execute]
      refine .bind (.executed .firstRound) fun completion _ outcome => ?_
      cases continues : completion.afterRound label with
      | some ending => exact .pure _
      | none =>
          exact @Composed.part _ _ (.rounds scope label (some test) none body) _
            (.doWhileLoop outcome continues)
  | forLoop init test step body =>
      rw [execute_forLoop]
      refine .bind .enterBlock fun inner _ entered => ?_
      cases entered
      refine .bind (.startLoop ?_ ?_) fun _ _ started => ?_
      · rintro kind declarators part start rfl initializes
        exact .loopVariable initializes
      · rintro expression rfl
        exact .loopStart
      · exact @Composed.part _ _ (.rounds _ label test step body) _ (.forLoop started)
  | bindings kind declarators =>
      rw [execute]
      exact .bind (.declareVariables declarators fun _ _ initializes => .variable initializes)
        fun _ _ _ => .pure _
  | raise argument =>
      rw [execute]
      exact .bind (.evaluated (.subject rfl)) fun _ _ _ => .fail (by simp)
  | declare function | breakOut target | continueLoop target | empty =>
      rw [execute]
      exact .pure _

theorem composed_executeAll (statements : List Statement) :
    Composed fuel (Part fuel (.executeAll scope statements) machine)
      (executeAll (fuel + 1) scope statements) machine := by
  rw [executeAll]
  refine .bind (.hoist statements) fun _ _ hoisted => .inTurn statements ?_
  rintro before statement rest start rfl ended
  exact .statement hoisted ended

theorem composed_rounds (label : Option String) (test step : Option Expression)
    (body : Statement) :
    Composed fuel (Part fuel (.rounds scope label test step body) machine)
      (rounds (fuel + 1) scope label test step body) machine := by
  rw [rounds_succ]
  refine .bind (.testRound ?_) fun goesOn _ tested => ?_
  · rintro expression rfl
    exact .tested
  · cases goesOn with
    | false => exact .pure _
    | true =>
        refine .bind (.executed (.round tested)) fun completion _ ended => ?_
        cases continues : completion.afterRound label with
        | some ending => exact .pure _
        | none =>
            refine .bind (.stepRound ?_) fun _ _ stepped => ?_
            · rintro expression rfl
              exact .stepped tested ended continues
            · exact @Composed.part _ _ (.rounds scope label test step body) _
                (.again tested ended continues stepped)

/-- Every task but the call of a closure is composed of its parts and of steps that call nothing. -/
theorem Task.composed {task : Task} (other : ∀ address receiver arguments,
      task ≠ .call (.closure address) receiver arguments) :
    Composed fuel (Part fuel task machine) (task.perform (fuel + 1)) machine := by
  cases task with
  | evaluate scope expression => exact composed_evaluate expression
  | construct constructor arguments source => exact composed_construct constructor arguments source
  | call callee receiver arguments =>
      refine composed_call fun address closure => ?_
      subst closure
      exact other address receiver arguments rfl
  | execute scope label statement => exact composed_execute label statement
  | executeAll scope statements => exact composed_executeAll statements
  | rounds scope label test step body => exact composed_rounds label test step body

end

end Covenant.Machine
