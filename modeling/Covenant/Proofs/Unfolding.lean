import Covenant.Proofs.Trace

/-!
# The trace of every task

Each task goes on from its entry with its parts, in the order in which they are
performed, and with changes of its own: this is shown for expressions, calls
and statements in turn, and said of all tasks at the end.
-/

namespace Covenant

/-- Whether an evaluation may go on behind the operands of an expression. -/
def Expression.goesOn : Expression → Bool
  | .logical _ _ _ | .conditional _ _ _ | .assign _ _ _ | .call _ _ | .construct _ _ => true
  | _ => false

end Covenant

namespace Covenant.Machine

section

variable {fuel : Nat} {scope : Scope} {machine : Machine}

/-- A task goes on, from its entry, with its parts and with nothing else. -/
def Unfolds (fuel : Nat) (task : Task) (machine : Machine) : Prop :=
  ∃ steps,
    Trace fuel task machine.store.frames.size (task.entry machine) steps
        ((task.perform (fuel + 1)).leaves machine) ∧
      ∀ next start, (next, start) ∈ steps ↔ Part fuel task machine next start

/-- Where nothing but operands is performed, the operands are the parts. -/
theorem Proceeds.operandsOnly {count : Nat} {expression : Expression} {action : Action Value}
    (only : expression.goesOn = false)
    (proceeds : Proceeds fuel (.evaluate scope expression) count action machine
      (Evaluates fuel scope (operands expression) machine)) :
    Proceeds fuel (.evaluate scope expression) count action machine
      (Part fuel (.evaluate scope expression) machine) := by
  refine proceeds.congr fun next start => ⟨fun ⟨_, same, inOrder⟩ => same ▸ .operand inOrder, ?_⟩
  intro part
  cases part with
  | operand inOrder => exact ⟨_, rfl, inOrder⟩
  | right | chosen | assigned | argument | called | constructed => cases only

/-- Where there are no operands either, there are no parts. -/
theorem Proceeds.withoutParts {count : Nat} {expression : Expression} {action : Action Value}
    (only : expression.goesOn = false) (none : operands expression = [])
    (proceeds : Proceeds fuel (.evaluate scope expression) count action machine
      fun _ _ => False) :
    Proceeds fuel (.evaluate scope expression) count action machine
      (Part fuel (.evaluate scope expression) machine) := by
  refine .operandsOnly only (proceeds.congr fun _ _ => ?_)
  rw [none]
  exact (iff_false_intro not_evaluates_nil).symm

/-- Reading a place leaves the machine as it is. -/
theorem readPlace_eq_ok {place : Place} {value : Value} {after : Machine}
    (read : readPlace scope place machine = .ok value after) : after = machine := by
  cases place with
  | binding name =>
      simp only [readPlace, Action.check] at read
      split at read
      · cases read
        rfl
      · cases read
  | property base key =>
      simp only [readPlace, Action.check] at read
      split at read
      · cases read
        rfl
      · cases read

/-- A name is evaluated without parts. -/
theorem proceeds_identifier {task : Task} {count : Nat} (name : String) :
    Proceeds fuel task count (evaluate fuel scope (.identifier name)) machine
      fun _ _ => False := by
  cases fuel with
  | zero =>
      rw [evaluate]
      exact .throw _
  | succ fuel =>
      rw [evaluate]
      exact .check _

/-- Asking for the type of a name evaluates no operand. -/
theorem proceeds_unary {count : Nat} (operator : UnaryOperator) (argument : Expression) :
    Proceeds fuel (.evaluate scope (.unary operator argument)) count
      (evaluate (fuel + 1) scope (.unary operator argument)) machine
      (Evaluates fuel scope (operands (.unary operator argument)) machine) := by
  obtain ⟨unbound, looked⟩ := exists_isUnboundName scope argument machine
  rw [evaluate]
  refine .look_bind looked ?_
  by_cases asked : operator = .typeOf ∧ ∃ name, argument = .identifier name
  · obtain ⟨rfl, name, rfl⟩ := asked
    refine Proceeds.congr ?_ fun _ _ => (iff_false_intro not_evaluates_nil).symm
    split
    · exact .pure _
    · exact (proceeds_identifier name).bind_quiet fun _ _ _ => .query _
  · have single : operands (.unary operator argument) = [argument] ∧
        (operator = .typeOf && unbound) = false := by
      cases argument with
      | identifier name =>
          cases operator with
          | typeOf => exact absurd ⟨rfl, name, rfl⟩ asked
          | _ => exact ⟨rfl, rfl⟩
      | _ =>
          cases looked
          exact ⟨by cases operator <;> rfl, Bool.and_false _⟩
    rw [single.1, if_neg (by simp [single.2])]
    exact (Proceeds.evaluated argument).bind_quiet fun _ _ _ => .query _

/-- The value of an assignment is evaluated once its place has been read, if it is. -/
theorem proceeds_assigned {task : Task} {count : Nat} (operator : AssignOperator) (place : Place)
    (value : Expression) {next : Value → Action Value}
    (quiet : ∀ given machine,
      Proceeds fuel task count (next given) machine fun _ _ => False) :
    Proceeds fuel task count
      (match operator.binary? with
        | none => evaluate fuel scope value >>= next
        | some operator => do
          let current ← readPlace scope place
          let operand ← evaluate fuel scope value
          let given ← .check fun store => binaryResult store operator current operand
          next given) machine
      fun part start => part = .evaluate scope value ∧ start = machine ∧
        (operator.binary? = none ∨ ∃ current, readPlace scope place start = .ok current start) := by
  cases operator.binary? with
  | none =>
      refine ((Proceeds.performed (.evaluate scope value)).bind_quiet fun given between _ =>
        quiet given between).congr fun _ _ => by simp
  | some operator =>
      refine ((Proceeds.readPlace place).bind fun current between _ =>
        (Proceeds.performed (.evaluate scope value)).bind_quiet fun _ _ _ =>
          (Proceeds.check _).bind_quiet fun given after _ => quiet given after).congr
            fun part start => ?_
      constructor
      · rintro (none | ⟨current, between, read, rfl, same⟩)
        · exact none.elim
        · cases readPlace_eq_ok read
          cases same
          exact ⟨rfl, rfl, .inr ⟨current, read⟩⟩
      · rintro ⟨rfl, rfl, none | ⟨current, read⟩⟩
        · cases none
        · exact .inr ⟨current, _, read, rfl, rfl⟩

/-- The evaluation of an expression that makes no closure goes on with its parts. -/
theorem proceeds_evaluate {count : Nat} {expression : Expression}
    (plain : ∀ function, expression ≠ .lambda function) :
    Proceeds fuel (.evaluate scope expression) count (evaluate (fuel + 1) scope expression) machine
      (Part fuel (.evaluate scope expression) machine) := by
  cases expression with
  | lambda function => exact absurd rfl (plain function)
  | literal literal =>
      rw [evaluate]
      exact .withoutParts rfl rfl (.pure _)
  | identifier name =>
      rw [evaluate]
      exact .withoutParts rfl rfl (.check _)
  | receiver =>
      rw [evaluate]
      exact .withoutParts rfl rfl (.query _)
  | yield argument delegate | await argument =>
      rw [evaluate]
      exact .withoutParts rfl rfl (.throw _)
  | array elements =>
      rw [evaluate]
      refine .operandsOnly rfl ((Proceeds.mapM elements machine).bind_quiet fun _ _ _ => ?_)
      exact .allocate_cells (fun _ => rfl) fun _ => rfl
  | record properties =>
      rw [evaluate]
      refine .operandsOnly rfl ((Proceeds.evaluateProperties properties).bind_quiet
        fun _ _ _ => ?_)
      exact .allocate_cells (fun _ => rfl) fun _ => rfl
  | sequence elements =>
      rw [evaluate]
      exact .operandsOnly rfl (Proceeds.lastValue elements _ machine)
  | unary operator argument => exact .operandsOnly rfl (proceeds_unary operator argument)
  | update operator leading target =>
      rw [evaluate]
      refine .operandsOnly rfl ((Proceeds.placeOf target).bind_quiet fun place _ _ => ?_)
      refine (Proceeds.readPlace place).bind_quiet fun _ _ _ => ?_
      refine (Proceeds.query _).bind_quiet fun _ _ _ => ?_
      exact (Proceeds.writePlace place _).bind_quiet fun _ _ _ => .pure _
  | binary operator left right =>
      rw [evaluate]
      refine .operandsOnly rfl (.evaluated_bind fun _ _ _ => ?_)
      exact (Proceeds.evaluated right).bind_quiet fun _ _ _ => .check _
  | index object key =>
      rw [evaluate]
      refine .operandsOnly rfl (.evaluated_bind fun _ _ _ => ?_)
      exact (Proceeds.evaluated key).bind_quiet fun _ _ _ => .check _
  | member object name =>
      rw [evaluate]
      exact .operandsOnly rfl ((Proceeds.evaluated object).bind_quiet fun _ _ _ => .check _)
  | logical operator left right =>
      rw [evaluate]
      have goesOn (value : Value) (between : Machine) :
          Proceeds fuel (.evaluate scope (.logical operator left right)) count
            (if shortCircuits operator value then pure value else evaluate fuel scope right) between
            fun part start => shortCircuits operator value = false ∧
              part = .evaluate scope right ∧ start = between := by
        cases decides : shortCircuits operator value with
        | true => exact (Proceeds.pure _).congr fun _ _ => by simp
        | false => exact (Proceeds.performed (.evaluate scope right)).congr fun _ _ => by simp
      refine ((Proceeds.evaluated left).bind fun value between _ => goesOn value between).congr
        fun next start => ?_
      constructor
      · rintro (⟨_, rfl, inOrder⟩ | ⟨_, _, evaluated, continues, rfl, rfl⟩)
        · exact .operand inOrder
        · exact .right evaluated continues
      · intro part
        cases part with
        | operand inOrder => exact .inl ⟨_, rfl, inOrder⟩
        | right evaluated continues => exact .inr ⟨_, _, evaluated, continues, rfl, rfl⟩
  | conditional test consequent alternate =>
      rw [evaluate]
      have goesOn (value : Value) (between : Machine) :
          Proceeds fuel (.evaluate scope (.conditional test consequent alternate)) count
            (if value.isTruthy then evaluate fuel scope consequent
              else evaluate fuel scope alternate) between
            fun part start =>
              part = .evaluate scope (if value.isTruthy then consequent else alternate) ∧
                start = between := by
        cases value.isTruthy with
        | true => exact .performed (.evaluate scope consequent)
        | false => exact .performed (.evaluate scope alternate)
      refine ((Proceeds.evaluated test).bind fun value between _ => goesOn value between).congr
        fun next start => ?_
      constructor
      · rintro (⟨_, rfl, inOrder⟩ | ⟨_, _, evaluated, rfl, rfl⟩)
        · exact .operand inOrder
        · exact .chosen evaluated
      · intro part
        cases part with
        | operand inOrder => exact .inl ⟨_, rfl, inOrder⟩
        | chosen evaluated => exact .inr ⟨_, _, evaluated, rfl, rfl⟩
  | assign operator target value =>
      rw [evaluate]
      refine ((Proceeds.placeOf target).bind fun place between _ =>
        proceeds_assigned operator place value fun given _ =>
          (Proceeds.writePlace place given).bind_quiet fun _ _ _ => .pure _).congr
            fun next start => ?_
      constructor
      · rintro (⟨_, rfl, inOrder⟩ | ⟨_, _, found, rfl, rfl, read⟩)
        · exact .operand inOrder
        · exact .assigned found read
      · intro part
        cases part with
        | operand inOrder => exact .inl ⟨_, rfl, inOrder⟩
        | assigned found read => exact .inr ⟨_, _, found, rfl, rfl, read⟩
  | call callee arguments =>
      rw [evaluate]
      have called (found : Value × Value) (values : List Value) (between : Machine) :
          Proceeds fuel (.evaluate scope (.call callee arguments)) count
            (if found.1.isCallable then Machine.call fuel found.1 found.2 values
              else .fail (.type (.notFunction callee.source))) between
            fun part start => found.1.isCallable = true ∧
              part = .call found.1 found.2 values ∧ start = between := by
        cases found.1.isCallable with
        | true =>
            exact (Proceeds.performed (.call found.1 found.2 values)).congr fun _ _ => by simp
        | false => exact (Proceeds.throw _).congr fun _ _ => by simp
      refine ((Proceeds.calleeOf callee).bind fun found between _ =>
        (Proceeds.mapM arguments between).bind fun values ready _ =>
          called found values ready).congr fun next start => ?_
      constructor
      · rintro (⟨_, rfl, inOrder⟩ | ⟨_, _, found, ⟨_, rfl, inOrder⟩ |
          ⟨_, _, evaluated, callable, rfl, rfl⟩⟩)
        · exact .operand inOrder
        · exact .argument found inOrder
        · exact .called found evaluated callable
      · intro part
        cases part with
        | operand inOrder => exact .inl ⟨_, rfl, inOrder⟩
        | argument found inOrder => exact .inr ⟨_, _, found, .inl ⟨_, rfl, inOrder⟩⟩
        | called found evaluated callable =>
            exact .inr ⟨_, _, found, .inr ⟨_, _, evaluated, callable, rfl, rfl⟩⟩
  | construct callee arguments =>
      rw [evaluate]
      refine ((Proceeds.evaluated callee).bind fun constructor between _ =>
        (Proceeds.mapM arguments between).bind fun values ready _ =>
          Proceeds.performed (.construct constructor values callee)).congr fun next start => ?_
      constructor
      · rintro (first | ⟨_, _, found, ⟨_, rfl, inOrder⟩ | ⟨_, _, evaluated, rfl, rfl⟩⟩)
        · obtain ⟨rfl, rfl⟩ := evaluates_singleton.mp first
          exact .operand .head
        · exact .operand (.tail found inOrder)
        · exact .constructed found evaluated
      · intro part
        cases part with
        | operand inOrder =>
            cases inOrder with
            | head => exact .inl (evaluates_singleton.mpr ⟨rfl, rfl⟩)
            | tail found inOrder => exact .inr ⟨_, _, found, .inl ⟨_, rfl, inOrder⟩⟩
        | constructed found evaluated =>
            exact .inr ⟨_, _, found, .inr ⟨_, _, evaluated, rfl, rfl⟩⟩

/-! ### Functions -/

theorem makeLambda_of_none {function : Function} (unseen : function.selfName? = none) :
    makeLambda scope function = makeClosure scope function := by
  unfold makeLambda
  split
  case h_1 name named written => simp [Function.selfName?, named, written] at unseen
  case h_2 => rfl

theorem makeLambda_of_some {function : Function} {name : String}
    (seen : function.selfName? = some name) :
    makeLambda scope function = (do
      let inner ← enterBlock scope
      let closure ← makeClosure inner function
      declare inner name ⟨closure, false⟩
      pure closure) := by
  cases written : function.isArrow with
  | true => simp [Function.selfName?, written] at seen
  | false =>
      have named : function.name = some name := by
        simpa [Function.selfName?, written] using seen
      simp only [makeLambda, named, written]

theorem unfolds_of_leaves {task : Task} {β : Type} {action : Action β}
    (same : (task.perform (fuel + 1)).leaves machine = action.leaves (task.entry machine))
    (proceeds : Proceeds fuel task machine.store.frames.size action (task.entry machine)
      (Part fuel task machine)) : Unfolds fuel task machine := by
  rcases proceeds with ⟨steps, trace, exactly⟩
  refine ⟨steps, ?_, exactly⟩
  rw [same]
  exact trace

theorem not_part_of_lambda {function : Function} {next : Task} {start : Machine} :
    ¬ Part fuel (.evaluate scope (.lambda function)) machine next start := by
  intro part
  cases part with
  | operand inOrder => cases inOrder

theorem unfolds_lambda (function : Function) :
    Unfolds fuel (.evaluate scope (.lambda function)) machine := by
  have none (next : Task) (start : Machine) :
      False ↔ Part fuel (.evaluate scope (.lambda function)) machine next start :=
    (iff_false_intro not_part_of_lambda).symm
  have performs : (Task.evaluate scope (.lambda function)).perform (fuel + 1) =
      makeLambda scope function := by
    show evaluate _ _ _ = _
    rw [evaluate]
  cases seen : function.selfName? with
  | none =>
      have entry : (Task.evaluate scope (.lambda function)).entry machine = machine := by
        simp [Task.entry, seen]
      refine @unfolds_of_leaves _ _ _ _ (makeClosure scope function) ?_ ?_
      · rw [performs, makeLambda_of_none seen, entry]
        rfl
      · exact (Proceeds.makeClosure (.lambda seen)).congr none
  | some name =>
      have entry : (Task.evaluate scope (.lambda function)).entry machine =
          machine.enterFrame := by
        simp [Task.entry, seen]
      refine @unfolds_of_leaves _ _ _ _ (do
        let closure ← makeClosure (⟨machine.store.frames.size⟩ :: scope) function
        declare (⟨machine.store.frames.size⟩ :: scope) name ⟨closure, false⟩
        pure closure) ?_ ?_
      · rw [performs, makeLambda_of_some seen, entry]
        exact Action.leaves_bind_of_ok rfl
      · refine Proceeds.congr ?_ none
        refine (Proceeds.makeClosure (.named seen)).bind_quiet fun _ _ _ => ?_
        exact (Proceeds.declare (.named seen) _).bind_quiet fun _ _ _ => .pure _

theorem unfolds_evaluate (expression : Expression) :
    Unfolds fuel (.evaluate scope expression) machine := by
  by_cases lambda : ∃ function, expression = .lambda function
  · obtain ⟨function, rfl⟩ := lambda
    exact unfolds_lambda function
  · have plain : ∀ function, expression ≠ .lambda function :=
      fun function equal => lambda ⟨function, equal⟩
    have entry : (Task.evaluate scope expression).entry machine = machine := by
      cases expression with
      | lambda function => exact absurd rfl (plain function)
      | _ => rfl
    refine @unfolds_of_leaves _ _ _ _ (evaluate (fuel + 1) scope expression) ?_ ?_
    · rw [entry]
      rfl
    · rw [entry]
      exact proceeds_evaluate plain

theorem unfolds_construct (constructor : Value) (arguments : List Value) (source : Expression) :
    Unfolds fuel (.construct constructor arguments source) machine := by
  refine @unfolds_of_leaves _ _ _ _ (construct (fuel + 1) constructor arguments source) rfl ?_
  have quiet {action : Action Value} {count : Nat} (other : ∀ address, constructor ≠ .closure address)
      (proceeds : Proceeds fuel (.construct constructor arguments source) count action machine
        fun _ _ => False) :
      Proceeds fuel (.construct constructor arguments source) count action machine
        (Part fuel (.construct constructor arguments source) machine) := by
    refine proceeds.congr fun _ _ => ⟨False.elim, fun part => ?_⟩
    cases part with
    | initialized => exact other _ rfl
  show Proceeds _ _ _ _ machine _
  cases constructor with
  | closure address =>
      rw [construct]
      refine .look_bind (Action.query_apply _ _) ?_
      split
      case isTrue written =>
        obtain ⟨closure, found, written⟩ := exists_of_any_notArrow written
        refine ((Proceeds.allocate_cells (fun _ => rfl) fun _ => rfl).bind fun created between _ =>
          (Proceeds.performed (.call (.closure address) created arguments)).bind_quiet
            fun result after _ => ?_).congr fun next start => ?_
        · cases result <;> exact .pure _
        · constructor
          · rintro (none | ⟨_, _, added, rfl, rfl⟩)
            · exact none.elim
            · cases added
              exact .initialized found written
          · intro part
            cases part with
            | initialized => exact .inr ⟨_, _, rfl, rfl, rfl⟩
      case isFalse arrow =>
        refine (Proceeds.throw _).congr fun _ _ => ⟨False.elim, fun part => ?_⟩
        cases part with
        | initialized found written => exact absurd (by simp [found, written]) arrow
  | builtin function =>
      refine quiet (by simp) ?_
      cases function with
      | makeError =>
          rw [construct]
          exact .allocate_cells (fun _ => rfl) fun _ => rfl
      | writeLine =>
          rw [construct]
          · exact .throw _
          all_goals simp
  | _ =>
      refine quiet (by simp) ?_
      rw [construct]
      · exact .throw _
      all_goals simp

/-- A call that does not enter a closure has no parts. -/
theorem not_part_of_call {address : ClosureAddress} {receiver : Value} {arguments : List Value}
    {next : Task} {start : Machine}
    (closed : ∀ closure, machine.store.closure? address = some closure →
      unsupportedKind? closure.function = none → ¬ machine.depth < machine.depthLimit) :
    ¬ Part fuel (.call (.closure address) receiver arguments) machine next start := by
  intro part
  cases part with
  | entered found supported shallow => exact closed _ found supported shallow
  | answered found supported shallow => exact closed _ found supported shallow

theorem proceeds_runBody {task : Task} {count : Nat} (body : FunctionBody) :
    Proceeds fuel task count (runBody fuel scope body) machine fun part start =>
      start = machine ∧
        ((∃ statements, body = .block statements ∧ part = .executeAll scope statements) ∨
          ∃ expression, body = .result expression ∧ part = .evaluate scope expression) := by
  cases body with
  | block statements =>
      refine ((Proceeds.performed (.executeAll scope statements)).bind_quiet
        fun _ _ _ => .pure _).congr fun _ _ => ?_
      simp [and_comm]
  | result expression =>
      refine (Proceeds.performed (.evaluate scope expression)).congr fun _ _ => ?_
      simp [and_comm]

/-- A call of a closure of the store goes on with the body of its function, if it begins at all. -/
theorem unfolds_call_closure {address : ClosureAddress} {closure : Closure} {receiver : Value}
    {arguments : List Value} (found : machine.store.closure? address = some closure) :
    Unfolds fuel (.call (.closure address) receiver arguments) machine := by
  have called : ((Task.call (.closure address) receiver arguments).perform (fuel + 1)).leaves
      machine = (enterClosure fuel closure receiver arguments).leaves machine := by
    exact Action.leaves_congr (call_closure_of_some found)
  by_cases begins : unsupportedKind? closure.function = none ∧ machine.depth < machine.depthLimit
  · have entry : (Task.call (.closure address) receiver arguments).entry machine =
        machine.beginCall (callFrame closure.function receiver arguments) := by
      simp [Task.entry, found, begins]
    have performs : ((Task.call (.closure address) receiver arguments).perform (fuel + 1)).leaves
        machine =
          ((runBody fuel (⟨machine.store.frames.size⟩ :: closure.scope)
            closure.function.body).leaves
              (machine.beginCall (callFrame closure.function receiver arguments))).endCall := by
      rw [called, enterClosure, begins.1]
      exact Action.leaves_nested begins.2
    obtain ⟨steps, trace, exactly⟩ := @proceeds_runBody fuel
      (⟨machine.store.frames.size⟩ :: closure.scope)
      (machine.beginCall (callFrame closure.function receiver arguments))
      (.call (.closure address) receiver arguments) machine.store.frames.size closure.function.body
    refine ⟨steps, ?_, fun next start => (exactly next start).trans ⟨?_, ?_⟩⟩
    · rw [entry, performs]
      exact trace.endCall
    · rintro ⟨rfl, ⟨statements, body, rfl⟩ | ⟨expression, body, rfl⟩⟩
      · exact .entered found begins.1 begins.2 body
      · exact .answered found begins.1 begins.2 body
    · intro part
      cases part with
      | entered found' _ _ body =>
          cases found.symm.trans found'
          exact ⟨rfl, .inl ⟨_, body, rfl⟩⟩
      | answered found' _ _ body =>
          cases found.symm.trans found'
          exact ⟨rfl, .inr ⟨_, body, rfl⟩⟩
  · have entry : (Task.call (.closure address) receiver arguments).entry machine = machine := by
      simp [Task.entry, found, begins]
    have stays : ((Task.call (.closure address) receiver arguments).perform (fuel + 1)).leaves
        machine = machine := by
      rw [called, enterClosure]
      cases supported : unsupportedKind? closure.function with
      | some construct => rfl
      | none => exact Action.leaves_nested_of_deep fun shallow => begins ⟨supported, shallow⟩
    refine ⟨[], ?_, fun next start => ⟨fun listed => absurd listed List.not_mem_nil,
      fun part => absurd part (not_part_of_call ?_)⟩⟩
    · rw [entry, stays]
      exact .done
    · intro other found' supported shallow
      cases found.symm.trans found'
      exact begins ⟨supported, shallow⟩

theorem unfolds_call (callee receiver : Value) (arguments : List Value) :
    Unfolds fuel (.call callee receiver arguments) machine := by
  have quiet (stays : (Task.call callee receiver arguments).entry machine = machine)
      (other : ∀ next start, ¬ Part fuel (.call callee receiver arguments) machine next start)
      (proceeds : Proceeds fuel (.call callee receiver arguments) machine.store.frames.size
        (call (fuel + 1) callee receiver arguments) machine fun _ _ => False) :
      Unfolds fuel (.call callee receiver arguments) machine := by
    refine @unfolds_of_leaves _ _ _ _ (call (fuel + 1) callee receiver arguments) ?_ ?_
    · rw [stays]
      rfl
    · rw [stays]
      exact proceeds.congr fun next start => (iff_false_intro (other next start)).symm
  cases callee with
  | closure address =>
      cases found : machine.store.closure? address with
      | some closure => exact unfolds_call_closure found
      | none =>
          refine quiet (by simp [Task.entry, found]) (fun _ _ => not_part_of_call ?_) ?_
          · intro closure found'
            cases found.symm.trans found'
          · rw [call_closure]
            refine .look_bind (Action.query_apply _ machine) ?_
            rw [found]
            exact .pure _
  | builtin function =>
      refine quiet rfl (fun _ _ part => by cases part) ?_
      cases function with
      | makeError =>
          rw [call]
          exact .allocate_cells (fun _ => rfl) fun _ => rfl
      | writeLine =>
          rw [call]
          refine (Proceeds.query _).bind_quiet fun _ _ _ => ?_
          exact (Proceeds.writeLine _).bind_quiet fun _ _ _ => .pure _
  | _ =>
      refine quiet rfl (fun _ _ part => by cases part) ?_
      rw [call]
      · exact (Proceeds.query _).bind_quiet fun _ _ _ => .throw _
      all_goals simp

/-! ### Statements -/

variable {label : Option String}

/-- Where the expression that a statement starts with is all there is, it is the one part. -/
theorem Proceeds.subjectOnly {count : Nat} {statement : Statement} {expression : Expression}
    {action : Action Completion} (first : subject? statement = some expression)
    (only : ∀ test consequent alternate, statement ≠ .branch test consequent alternate)
    (proceeds : Proceeds fuel (.execute scope label statement) count action machine fun part start =>
      part = .evaluate scope expression ∧ start = machine) :
    Proceeds fuel (.execute scope label statement) count action machine
      (Part fuel (.execute scope label statement) machine) := by
  refine proceeds.congr fun next start => ⟨?_, fun part => ?_⟩
  · rintro ⟨rfl, rfl⟩
    exact .subject first
  · cases part with
    | subject found =>
        cases first.symm.trans found
        exact ⟨rfl, rfl⟩
    | consequent | alternate => exact absurd rfl (only _ _ _)
    | block | labeled | whileLoop | firstRound | doWhileLoop | loopVariable | loopStart | forLoop
    | «variable» => cases first

/-- How a loop goes on behind a round. -/
theorem proceeds_afterRound {task : Task} {count : Nat} {completion : Completion}
    {action : Action Completion} {parts : Task → Machine → Prop}
    (goesOn : Proceeds fuel task count action machine parts) :
    Proceeds fuel task count
      (match completion.afterRound label with
        | some completion => pure completion
        | none => action) machine fun part start =>
          completion.afterRound label = none ∧ parts part start := by
  cases completion.afterRound label with
  | some ending => exact (Proceeds.pure _).congr fun _ _ => by simp
  | none => exact goesOn.congr fun _ _ => by simp

theorem proceeds_branch {count : Nat} (test : Expression) (consequent : Statement)
    (alternate : Option Statement) :
    Proceeds fuel (.execute scope label (.branch test consequent alternate)) count
      (execute (fuel + 1) scope label (.branch test consequent alternate)) machine
      (Part fuel (.execute scope label (.branch test consequent alternate)) machine) := by
  have chosen (value : Value) (between : Machine) :
      Proceeds fuel (.execute scope label (.branch test consequent alternate)) count
        (if value.isTruthy then execute fuel scope none consequent
          else executeAlternate (execute fuel scope none) alternate) between fun part start =>
            start = between ∧
              ((value.isTruthy = true ∧ part = .execute scope none consequent) ∨
                ∃ other, value.isTruthy = false ∧ alternate = some other ∧
                  part = .execute scope none other) := by
    cases value.isTruthy with
    | true =>
        refine (Proceeds.performed (.execute scope none consequent)).congr fun _ _ => ?_
        simp [and_comm]
    | false =>
        cases alternate with
        | none => exact (Proceeds.pure _).congr fun _ _ => by simp
        | some other =>
            refine (Proceeds.performed (.execute scope none other)).congr fun _ _ => ?_
            simp [and_comm]
  rw [execute_branch]
  refine ((Proceeds.performed (.evaluate scope test)).bind fun value between _ =>
    chosen value between).congr fun next start => ⟨?_, fun part => ?_⟩
  · rintro (⟨rfl, rfl⟩ | ⟨_, _, evaluated, rfl, ⟨truthy, rfl⟩ | ⟨other, falsy, rfl, rfl⟩⟩)
    · exact .subject rfl
    · exact .consequent evaluated truthy
    · exact .alternate evaluated falsy
  · cases part with
    | subject first =>
        cases first
        exact .inl ⟨rfl, rfl⟩
    | consequent evaluated truthy => exact .inr ⟨_, _, evaluated, rfl, .inl ⟨truthy, rfl⟩⟩
    | alternate evaluated falsy => exact .inr ⟨_, _, evaluated, rfl, .inr ⟨_, falsy, rfl, rfl⟩⟩

theorem proceeds_doWhileLoop {count : Nat} (body : Statement) (test : Expression) :
    Proceeds fuel (.execute scope label (.doWhileLoop body test)) count
      (execute (fuel + 1) scope label (.doWhileLoop body test)) machine
      (Part fuel (.execute scope label (.doWhileLoop body test)) machine) := by
  rw [execute]
  refine ((Proceeds.performed (.execute scope none body)).bind fun completion between _ =>
    proceeds_afterRound (Proceeds.performed
      (.rounds scope label (some test) none body))).congr fun next start => ⟨?_, fun part => ?_⟩
  · rintro (⟨rfl, rfl⟩ | ⟨_, _, ended, continues, rfl, rfl⟩)
    · exact .firstRound
    · exact .doWhileLoop ended continues
  · cases part with
    | subject first => cases first
    | firstRound => exact .inl ⟨rfl, rfl⟩
    | doWhileLoop ended continues => exact .inr ⟨_, _, ended, continues, rfl, rfl⟩

/-- The initial step of a loop, performed in the frame of the loop. -/
def StartsLoop (fuel : Nat) (scope : Scope) (init : Option LoopInit) (machine : Machine)
    (part : Task) (start : Machine) : Prop :=
  match init with
  | none => False
  | some (.bindings kind declarators) =>
    EvaluatesInitials fuel scope kind declarators machine part start
  | some (.evaluate expression) => part = .evaluate scope expression ∧ start = machine

theorem proceeds_startLoop {count : Nat} (init : Option LoopInit) (test step : Option Expression)
    (body : Statement) :
    Proceeds fuel (.execute scope label (.forLoop init test step body)) count
      (startLoop (evaluate fuel (⟨count⟩ :: scope)) (⟨count⟩ :: scope) init) machine
      (StartsLoop fuel (⟨count⟩ :: scope) init machine) := by
  cases init with
  | none => exact .pure _
  | some init =>
      cases init with
      | bindings kind declarators =>
          exact .declareVariables declarators (fun _ => .loopVariable) machine
      | evaluate expression =>
          exact (Proceeds.performed (.evaluate _ expression)).bind_quiet fun _ _ _ => .pure _

theorem unfolds_forLoop (init : Option LoopInit) (test step : Option Expression)
    (body : Statement) :
    Unfolds fuel (.execute scope label (.forLoop init test step body)) machine := by
  refine @unfolds_of_leaves _ _ _ _ (do
    startLoop (evaluate fuel (⟨machine.store.frames.size⟩ :: scope))
      (⟨machine.store.frames.size⟩ :: scope) init
    rounds fuel (⟨machine.store.frames.size⟩ :: scope) label test step body) ?_ ?_
  · show (execute _ _ _ _).leaves machine = _
    rw [execute_forLoop]
    exact Action.leaves_bind_of_ok rfl
  · refine ((proceeds_startLoop init test step body).bind fun _ between _ =>
      Proceeds.performed (.rounds _ label test step body)).congr fun next start =>
        ⟨?_, fun part => ?_⟩
    · rintro (starts | ⟨_, _, started, rfl, rfl⟩)
      · cases init with
        | none => exact starts.elim
        | some init =>
            cases init with
            | bindings kind declarators =>
                obtain ⟨_, rfl, initializes⟩ := starts
                exact .loopVariable initializes
            | evaluate expression =>
                obtain ⟨rfl, rfl⟩ := starts
                exact .loopStart
      · exact .forLoop started
    · cases part with
      | subject first => cases first
      | loopVariable initializes => exact .inl ⟨_, rfl, initializes⟩
      | loopStart => exact .inl ⟨rfl, rfl⟩
      | forLoop started => exact .inr ⟨_, _, started, rfl, rfl⟩

theorem unfolds_execute (label : Option String) (statement : Statement) :
    Unfolds fuel (.execute scope label statement) machine := by
  have stays (same : (Task.execute scope label statement).entry machine = machine)
      (proceeds : Proceeds fuel (.execute scope label statement) machine.store.frames.size
        (execute (fuel + 1) scope label statement) machine
        (Part fuel (.execute scope label statement) machine)) :
      Unfolds fuel (.execute scope label statement) machine := by
    refine @unfolds_of_leaves _ _ _ _ (execute (fuel + 1) scope label statement) ?_ ?_
    · rw [same]
      rfl
    · rw [same]
      exact proceeds
  cases statement with
  | block statements =>
      refine @unfolds_of_leaves _ _ _ _
        (executeAll fuel (⟨machine.store.frames.size⟩ :: scope) statements) ?_ ?_
      · show (execute _ _ _ _).leaves machine = _
        rw [execute]
        exact Action.leaves_bind_of_ok rfl
      · refine (Proceeds.performed (.executeAll _ statements)).congr fun next start => ⟨?_, ?_⟩
        · rintro ⟨rfl, rfl⟩
          exact .block
        · intro part
          cases part with
          | subject first => cases first
          | block => exact ⟨rfl, rfl⟩
  | forLoop init test step body => exact unfolds_forLoop init test step body
  | evaluate expression =>
      refine stays rfl (.subjectOnly rfl (by simp) ?_)
      rw [execute]
      refine Proceeds.bind_quiet ?_ fun _ _ _ => .pure _
      exact (Proceeds.performed (.evaluate scope expression)).bind_quiet fun _ _ _ => .pure _
  | raise argument =>
      refine stays rfl (.subjectOnly rfl (by simp) ?_)
      rw [execute]
      exact (Proceeds.performed (.evaluate scope argument)).bind_quiet fun _ _ _ => .throw _
  | giveBack argument =>
      cases argument with
      | none =>
          refine stays rfl ?_
          rw [execute]
          refine (Proceeds.pure _).congr fun _ _ => ⟨False.elim, fun part => ?_⟩
          cases part with
          | subject first => cases first
      | some argument =>
          refine stays rfl (.subjectOnly rfl (by simp) ?_)
          rw [execute]
          exact (Proceeds.performed (.evaluate scope argument)).bind_quiet fun _ _ _ => .pure _
  | labeled inner body =>
      refine stays rfl ?_
      rw [execute]
      refine ((Proceeds.performed (.execute scope (some inner) body)).bind_quiet
        fun _ _ _ => .pure _).congr fun next start => ⟨?_, fun part => ?_⟩
      · rintro ⟨rfl, rfl⟩
        exact .labeled
      · cases part with
        | subject first => cases first
        | labeled => exact ⟨rfl, rfl⟩
  | branch test consequent alternate => exact stays rfl (proceeds_branch test consequent alternate)
  | whileLoop test body =>
      refine stays rfl ?_
      rw [execute]
      refine (Proceeds.performed (.rounds scope label (some test) none body)).congr
        fun next start => ⟨?_, fun part => ?_⟩
      · rintro ⟨rfl, rfl⟩
        exact .whileLoop
      · cases part with
        | subject first => cases first
        | whileLoop => exact ⟨rfl, rfl⟩
  | doWhileLoop body test => exact stays rfl (proceeds_doWhileLoop body test)
  | bindings kind declarators =>
      refine stays rfl ?_
      rw [execute]
      refine ((Proceeds.declareVariables declarators (fun _ => .variable) machine).bind_quiet
        fun _ _ _ => .pure _).congr fun next start => ⟨?_, fun part => ?_⟩
      · rintro ⟨_, rfl, initializes⟩
        exact .variable initializes
      · cases part with
        | subject first => cases first
        | «variable» initializes => exact ⟨_, rfl, initializes⟩
  | declare function | breakOut target | continueLoop target | empty =>
      refine stays rfl ?_
      rw [execute]
      refine (Proceeds.pure _).congr fun _ _ => ⟨False.elim, fun part => ?_⟩
      cases part with
      | subject first => cases first

theorem unfolds_executeAll (statements : List Statement) :
    Unfolds fuel (.executeAll scope statements) machine := by
  refine @unfolds_of_leaves _ _ _ _ (executeAll (fuel + 1) scope statements) rfl ?_
  rw [executeAll]
  refine ((Proceeds.hoist statements).bind fun _ hoisted _ =>
    Proceeds.inTurn statements hoisted).congr fun next start => ⟨?_, fun part => ?_⟩
  · rintro (none | ⟨_, _, hoisted, _, _, _, rfl, rfl, ended⟩)
    · exact none.elim
    · exact .statement hoisted ended
  · cases part with
    | statement hoisted ended => exact .inr ⟨_, _, hoisted, _, _, _, rfl, rfl, ended⟩

theorem proceeds_testRound {task : Task} {count : Nat} (test : Option Expression) :
    Proceeds fuel task count (testRound (evaluate fuel scope) test) machine fun part start =>
      ∃ given, test = some given ∧ part = .evaluate scope given ∧ start = machine := by
  cases test with
  | none => exact (Proceeds.pure _).congr fun _ _ => by simp
  | some test =>
      refine ((Proceeds.performed (.evaluate scope test)).bind_quiet fun _ _ _ => .pure _).congr
        fun _ _ => by simp

theorem proceeds_stepRound {task : Task} {count : Nat} (step : Option Expression) :
    Proceeds fuel task count (stepRound (evaluate fuel scope) step) machine fun part start =>
      ∃ given, step = some given ∧ part = .evaluate scope given ∧ start = machine := by
  cases step with
  | none => exact (Proceeds.pure _).congr fun _ _ => by simp
  | some step =>
      refine ((Proceeds.performed (.evaluate scope step)).bind_quiet fun _ _ _ => .pure _).congr
        fun _ _ => by simp

theorem unfolds_rounds (label : Option String) (test step : Option Expression) (body : Statement) :
    Unfolds fuel (.rounds scope label test step body) machine := by
  have further (between : Machine) :=
    ((@proceeds_stepRound fuel scope between (.rounds scope label test step body)
      machine.store.frames.size step).bind fun _ _ _ =>
        Proceeds.performed (.rounds scope label test step body))
  have rest (goesOn : Bool) (between : Machine) :
      Proceeds fuel (.rounds scope label test step body) machine.store.frames.size
        (if goesOn then do
          let completion ← execute fuel scope none body
          match completion.afterRound label with
          | some completion => pure completion
          | none =>
            stepRound (evaluate fuel scope) step
            rounds fuel scope label test step body
        else pure .finished) between fun part start =>
          goesOn = true ∧
            ((part = .execute scope none body ∧ start = between) ∨
              ∃ completion ended,
                execute fuel scope none body between = .ok completion ended ∧
                  completion.afterRound label = none ∧
                    ((∃ given, step = some given ∧ part = .evaluate scope given ∧ start = ended) ∨
                      (part = .rounds scope label test step body ∧
                        stepRound (evaluate fuel scope) step ended = .ok () start))) := by
    cases goesOn with
    | false => exact (Proceeds.pure _).congr fun _ _ => by simp
    | true =>
        refine ((Proceeds.performed (.execute scope none body)).bind fun completion ended _ =>
          proceeds_afterRound (further ended)).congr fun part start => ⟨?_, ?_⟩
        · rintro (here | ⟨completion, ended, outcome, continues, after | ⟨_, _, stepped, rfl, rfl⟩⟩)
          · exact ⟨rfl, .inl here⟩
          · exact ⟨rfl, .inr ⟨completion, ended, outcome, continues, .inl after⟩⟩
          · exact ⟨rfl, .inr ⟨completion, ended, outcome, continues, .inr ⟨rfl, stepped⟩⟩⟩
        · rintro ⟨_, here | ⟨completion, ended, outcome, continues, after | ⟨rfl, stepped⟩⟩⟩
          · exact .inl here
          · exact .inr ⟨completion, ended, outcome, continues, .inl after⟩
          · exact .inr ⟨completion, ended, outcome, continues, .inr ⟨_, _, stepped, rfl, rfl⟩⟩
  refine @unfolds_of_leaves _ _ _ _ (rounds (fuel + 1) scope label test step body) rfl ?_
  rw [rounds_succ]
  refine ((proceeds_testRound test).bind fun goesOn between _ => rest goesOn between).congr
    fun next start => ⟨?_, fun part => ?_⟩
  · rintro (⟨_, rfl, rfl, rfl⟩ | ⟨_, _, goesOn, rfl, ⟨rfl, rfl⟩ |
      ⟨_, _, ended, continues, ⟨_, rfl, rfl, rfl⟩ | ⟨rfl, stepped⟩⟩⟩)
    · exact .tested
    · exact .round goesOn
    · exact .stepped goesOn ended continues
    · exact .again goesOn ended continues stepped
  · cases part with
    | tested => exact .inl ⟨_, rfl, rfl, rfl⟩
    | round goesOn => exact .inr ⟨_, _, goesOn, rfl, .inl ⟨rfl, rfl⟩⟩
    | stepped goesOn ended continues =>
        exact .inr ⟨_, _, goesOn, rfl, .inr ⟨_, _, ended, continues, .inl ⟨_, rfl, rfl, rfl⟩⟩⟩
    | again goesOn ended continues stepped =>
        exact .inr ⟨_, _, goesOn, rfl, .inr ⟨_, _, ended, continues, .inr ⟨rfl, stepped⟩⟩⟩

/-- Every task goes on with its parts, one after the other, and with changes of its own. -/
theorem Task.unfolds (fuel : Nat) (task : Task) (machine : Machine) :
    Unfolds fuel task machine := by
  cases task with
  | evaluate scope expression => exact unfolds_evaluate expression
  | construct constructor arguments source => exact unfolds_construct constructor arguments source
  | call callee receiver arguments => exact unfolds_call callee receiver arguments
  | execute scope label statement => exact unfolds_execute label statement
  | executeAll scope statements => exact unfolds_executeAll statements
  | rounds scope label test step body => exact unfolds_rounds label test step body

end

end Covenant.Machine
