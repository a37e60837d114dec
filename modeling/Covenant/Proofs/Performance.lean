import Covenant.Machine.Session
import Covenant.Proofs.Evaluation

/-!
# What is performed in the course of a run

A run performs tasks: it evaluates expressions, executes statements, calls
functions.  The parts of a task are those that are performed directly for it,
each from the machine in which it is started; the parts of these parts follow.

Nothing in the language catches what is thrown.  A part that stops therefore
stops its task, for the same reason, and no cell of the store is touched on
the way out.
-/

namespace Covenant.Machine

/-! ## Actions within actions -/

/--
One action is performed, from some machine on, in the course of another: it is
the other one itself, or it is performed within its first part, or within what
follows a first part that has ended, or within the body of a call.
-/
inductive Within {β : Type} (inner : Action β) (start : Machine) :
    {α : Type} → Action α → Machine → Prop where
  | itself : Within inner start inner start
  | first {α γ : Type} {first : Action γ} {next : γ → Action α} {machine : Machine} :
      Within inner start first machine → Within inner start (first >>= next) machine
  | next {α γ : Type} {first : Action γ} {next : γ → Action α} {machine between : Machine}
      {result : γ} :
      first machine = .ok result between → Within inner start (next result) between →
        Within inner start (first >>= next) machine
  | nested {α : Type} {body : Action α} {machine : Machine} :
      machine.depth < machine.depthLimit →
        Within inner start body { machine with depth := machine.depth + 1 } →
          Within inner start (Action.nested body) machine

/-- An action stops for the reason for which an action stops that is performed within it. -/
theorem Within.stops
    {α β : Type} {inner : Action β} {outer : Action α} {start machine final : Machine} {stop : Stop}
    (within : Within inner start outer machine) (stops : inner start = .error stop final) :
    ∃ last, outer machine = .error stop last ∧ last.store = final.store ∧
      last.output = final.output := by
  induction within with
  | itself => exact ⟨final, stops, rfl, rfl⟩
  | first _ induction =>
      obtain ⟨last, outcome, same⟩ := induction
      exact ⟨last, Action.bind_of_error outcome, same⟩
  | next begun _ induction =>
      obtain ⟨last, outcome, same⟩ := induction
      exact ⟨last, (Action.bind_of_ok begun).trans outcome, same⟩
  | nested shallow _ induction =>
      obtain ⟨last, outcome, same⟩ := induction
      refine ⟨last.endCall, ?_, same⟩
      unfold Action.nested
      rw [if_neg (Nat.not_le.mpr shallow), outcome]
      rfl

/-! ## Tasks and their parts -/

/-- Something that a run performs. -/
inductive Task where
  | evaluate (scope : Scope) (expression : Expression)
  | construct (constructor : Value) (arguments : List Value) (source : Expression)
  | call (callee receiver : Value) (arguments : List Value)
  | execute (scope : Scope) (label : Option String) (statement : Statement)
  | executeAll (scope : Scope) (statements : List Statement)
  | rounds (scope : Scope) (label : Option String) (test step : Option Expression)
      (body : Statement)

namespace Task

/-- What a task ends with. -/
def Result : Task → Type
  | evaluate _ _ | construct _ _ _ | call _ _ _ => Value
  | execute _ _ _ | executeAll _ _ | rounds _ _ _ _ _ => Completion

/-- Perform a task. -/
def perform (fuel : Nat) : (task : Task) → Action task.Result
  | evaluate scope expression => Machine.evaluate fuel scope expression
  | construct constructor arguments source => Machine.construct fuel constructor arguments source
  | call callee receiver arguments => Machine.call fuel callee receiver arguments
  | execute scope label statement => Machine.execute fuel scope label statement
  | executeAll scope statements => Machine.executeAll fuel scope statements
  | rounds scope label test step body => Machine.rounds fuel scope label test step body

end Task

/-- The parts of an expression that denotes a property. -/
def propertyParts : Expression → List Expression
  | .member object _ => [object]
  | .index object key => [object, key]
  | _ => []

/-- What is evaluated to find the function of a call. -/
def calleeParts : Expression → List Expression
  | .member object _ => [object]
  | .index object key => [object, key]
  | callee => [callee]

/-- The expressions that are evaluated first, one after the other, for an expression. -/
def operands : Expression → List Expression
  | .array elements | .sequence elements => elements
  | .record properties => properties.map (·.value)
  | .unary .typeOf (.identifier _) => []
  | .unary _ argument => [argument]
  | .update _ _ target | .assign _ target _ => propertyParts target
  | .binary _ left right | .index left right => [left, right]
  | .logical _ left _ => [left]
  | .conditional test _ _ => [test]
  | .call callee _ => calleeParts callee
  | .construct callee arguments => callee :: arguments
  | .member object _ => [object]
  | _ => []

/-- The expression that is evaluated first for a statement. -/
def subject? : Statement → Option Expression
  | .evaluate expression | .raise expression => some expression
  | .giveBack argument => argument
  | .branch test _ _ => some test
  | _ => none

/-- One of some expressions is evaluated after those before it. -/
inductive EvaluatedInOrder (fuel : Nat) (scope : Scope) :
    List Expression → Machine → Expression → Machine → Prop where
  | head {expression : Expression} {rest : List Expression} {machine : Machine} :
      EvaluatedInOrder fuel scope (expression :: rest) machine expression machine
  | tail {expression part : Expression} {rest : List Expression}
      {machine between start : Machine} {value : Value} :
      evaluate fuel scope expression machine = .ok value between →
        EvaluatedInOrder fuel scope rest between part start →
          EvaluatedInOrder fuel scope (expression :: rest) machine part start

/-- The initial value of one of some variables is evaluated after those before it are declared. -/
def Initializes (fuel : Nat) (scope : Scope) (kind : DeclarationKind)
    (declarators : List Declarator) (machine : Machine) (part : Expression) (start : Machine) :
    Prop :=
  ∃ before name rest,
    declarators = before ++ ⟨name, some part⟩ :: rest ∧
      declareVariables (evaluate fuel scope) scope kind before machine = .ok () start

/-- A machine in which a block has been entered. -/
def enterFrame (machine : Machine) : Machine :=
  { machine with store := (machine.store.addFrame []).2 }

/--
The parts of a task that is performed with fuel from a machine on, each with
the machine from which it is performed with less fuel.
-/
inductive Part (fuel : Nat) : Task → Machine → Task → Machine → Prop where
  /-- An expression that is evaluated first. -/
  | operand {scope : Scope} {expression part : Expression} {machine start : Machine} :
      EvaluatedInOrder fuel scope (operands expression) machine part start →
        Part fuel (.evaluate scope expression) machine (.evaluate scope part) start
  /-- The right operand, where the left one does not decide. -/
  | right {scope : Scope} {operator : LogicalOperator} {left right : Expression} {value : Value}
      {machine start : Machine} :
      evaluate fuel scope left machine = .ok value start → shortCircuits operator value = false →
        Part fuel (.evaluate scope (.logical operator left right)) machine
          (.evaluate scope right) start
  /-- The alternative that a test chooses. -/
  | chosen {scope : Scope} {test consequent alternate : Expression} {value : Value}
      {machine start : Machine} :
      evaluate fuel scope test machine = .ok value start →
        Part fuel (.evaluate scope (.conditional test consequent alternate)) machine
          (.evaluate scope (if value.isTruthy then consequent else alternate)) start
  /-- The value that is given to a place, read first if an operator asks for it. -/
  | assigned {scope : Scope} {operator : AssignOperator} {target value : Expression}
      {place : Place} {machine start : Machine} :
      placeOf (evaluate fuel scope) target machine = .ok place start →
        (operator.binary? = none ∨ ∃ current, readPlace scope place start = .ok current start) →
          Part fuel (.evaluate scope (.assign operator target value)) machine
            (.evaluate scope value) start
  /-- An argument of a call. -/
  | argument {scope : Scope} {callee part : Expression} {arguments : List Expression}
      {found : Value × Value} {machine between start : Machine} :
      calleeOf (evaluate fuel scope) callee machine = .ok found between →
        EvaluatedInOrder fuel scope arguments between part start →
          Part fuel (.evaluate scope (.call callee arguments)) machine (.evaluate scope part) start
  /-- The call of a function with the values of its arguments. -/
  | called {scope : Scope} {callee : Expression} {arguments : List Expression}
      {function receiver : Value} {values : List Value} {machine between start : Machine} :
      calleeOf (evaluate fuel scope) callee machine = .ok (function, receiver) between →
        arguments.mapM (evaluate fuel scope) between = .ok values start →
          function.isCallable = true →
            Part fuel (.evaluate scope (.call callee arguments)) machine
              (.call function receiver values) start
  /-- The construction of an object with the values of the arguments. -/
  | constructed {scope : Scope} {callee : Expression} {arguments : List Expression}
      {constructor : Value} {values : List Value} {machine between start : Machine} :
      evaluate fuel scope callee machine = .ok constructor between →
        arguments.mapM (evaluate fuel scope) between = .ok values start →
          Part fuel (.evaluate scope (.construct callee arguments)) machine
            (.construct constructor values callee) start
  /-- The call that initializes a new object. -/
  | initialized {address : ClosureAddress} {closure : Closure} {arguments : List Value}
      {source : Expression} {machine : Machine} :
      machine.store.closure? address = some closure → closure.function.isArrow = false →
        Part fuel (.construct (.closure address) arguments source) machine
          (.call (.closure address) (machine.store.addObject ⟨.plain, []⟩).1 arguments)
          { machine with store := (machine.store.addObject ⟨.plain, []⟩).2 }
  /-- The statements of a function that is called. -/
  | entered {address : ClosureAddress} {closure : Closure} {receiver : Value}
      {arguments : List Value} {statements : List Statement} {machine : Machine} :
      machine.store.closure? address = some closure →
        unsupportedKind? closure.function = none → machine.depth < machine.depthLimit →
          closure.function.body = .block statements →
            Part fuel (.call (.closure address) receiver arguments) machine
              (.executeAll (⟨machine.store.frames.size⟩ :: closure.scope) statements)
              (machine.beginCall (callFrame closure.function receiver arguments))
  /-- The expression that a function is, when it is called. -/
  | answered {address : ClosureAddress} {closure : Closure} {receiver : Value}
      {arguments : List Value} {expression : Expression} {machine : Machine} :
      machine.store.closure? address = some closure →
        unsupportedKind? closure.function = none → machine.depth < machine.depthLimit →
          closure.function.body = .result expression →
            Part fuel (.call (.closure address) receiver arguments) machine
              (.evaluate (⟨machine.store.frames.size⟩ :: closure.scope) expression)
              (machine.beginCall (callFrame closure.function receiver arguments))
  /-- The expression that a statement starts with. -/
  | subject {scope : Scope} {label : Option String} {statement : Statement}
      {expression : Expression} {machine : Machine} :
      subject? statement = some expression →
        Part fuel (.execute scope label statement) machine (.evaluate scope expression) machine
  /-- The statements of a block, in a frame of their own. -/
  | block {scope : Scope} {label : Option String} {statements : List Statement}
      {machine : Machine} :
      Part fuel (.execute scope label (.block statements)) machine
        (.executeAll (⟨machine.store.frames.size⟩ :: scope) statements) machine.enterFrame
  /-- A labeled statement. -/
  | labeled {scope : Scope} {outer : Option String} {label : String} {body : Statement}
      {machine : Machine} :
      Part fuel (.execute scope outer (.labeled label body)) machine
        (.execute scope (some label) body) machine
  /-- The branch for a test that holds. -/
  | consequent {scope : Scope} {label : Option String} {test : Expression}
      {consequent : Statement} {alternate : Option Statement} {value : Value}
      {machine start : Machine} :
      evaluate fuel scope test machine = .ok value start → value.isTruthy = true →
        Part fuel (.execute scope label (.branch test consequent alternate)) machine
          (.execute scope none consequent) start
  /-- The branch for a test that does not hold. -/
  | alternate {scope : Scope} {label : Option String} {test : Expression}
      {consequent alternate : Statement} {value : Value} {machine start : Machine} :
      evaluate fuel scope test machine = .ok value start → value.isTruthy = false →
        Part fuel (.execute scope label (.branch test consequent (some alternate))) machine
          (.execute scope none alternate) start
  /-- The rounds of a loop that tests first. -/
  | whileLoop {scope : Scope} {label : Option String} {test : Expression} {body : Statement}
      {machine : Machine} :
      Part fuel (.execute scope label (.whileLoop test body)) machine
        (.rounds scope label (some test) none body) machine
  /-- The first round of a loop that tests afterwards. -/
  | firstRound {scope : Scope} {label : Option String} {test : Expression} {body : Statement}
      {machine : Machine} :
      Part fuel (.execute scope label (.doWhileLoop body test)) machine
        (.execute scope none body) machine
  /-- The further rounds of a loop that tests afterwards. -/
  | doWhileLoop {scope : Scope} {label : Option String} {test : Expression} {body : Statement}
      {completion : Completion} {machine start : Machine} :
      execute fuel scope none body machine = .ok completion start →
        completion.afterRound label = none →
          Part fuel (.execute scope label (.doWhileLoop body test)) machine
            (.rounds scope label (some test) none body) start
  /-- An initial value of a loop with variables. -/
  | loopVariable {scope : Scope} {label : Option String} {kind : DeclarationKind}
      {declarators : List Declarator} {test step : Option Expression} {body : Statement}
      {part : Expression} {machine start : Machine} :
      Initializes fuel (⟨machine.store.frames.size⟩ :: scope) kind declarators machine.enterFrame
          part start →
        Part fuel
          (.execute scope label (.forLoop (some (.bindings kind declarators)) test step body))
          machine (.evaluate (⟨machine.store.frames.size⟩ :: scope) part) start
  /-- The initial expression of a loop. -/
  | loopStart {scope : Scope} {label : Option String} {init : Expression}
      {test step : Option Expression} {body : Statement} {machine : Machine} :
      Part fuel (.execute scope label (.forLoop (some (.evaluate init)) test step body)) machine
        (.evaluate (⟨machine.store.frames.size⟩ :: scope) init) machine.enterFrame
  /-- The rounds of a loop that has started. -/
  | forLoop {scope : Scope} {label : Option String} {init : Option LoopInit}
      {test step : Option Expression} {body : Statement} {machine start : Machine} :
      startLoop (evaluate fuel (⟨machine.store.frames.size⟩ :: scope))
          (⟨machine.store.frames.size⟩ :: scope) init machine.enterFrame = .ok () start →
        Part fuel (.execute scope label (.forLoop init test step body)) machine
          (.rounds (⟨machine.store.frames.size⟩ :: scope) label test step body) start
  /-- An initial value of a declaration. -/
  | variable {scope : Scope} {label : Option String} {kind : DeclarationKind}
      {declarators : List Declarator} {part : Expression} {machine start : Machine} :
      Initializes fuel scope kind declarators machine part start →
        Part fuel (.execute scope label (.bindings kind declarators)) machine
          (.evaluate scope part) start
  /-- A statement of several, after those before it. -/
  | statement {scope : Scope} {before rest : List Statement} {statement : Statement}
      {machine hoisted start : Machine} :
      hoist scope (before ++ statement :: rest) machine = .ok () hoisted →
        inTurn (execute fuel scope none) before hoisted = .ok .finished start →
          Part fuel (.executeAll scope (before ++ statement :: rest)) machine
            (.execute scope none statement) start
  /-- The test of a round. -/
  | tested {scope : Scope} {label : Option String} {test : Expression} {step : Option Expression}
      {body : Statement} {machine : Machine} :
      Part fuel (.rounds scope label (some test) step body) machine (.evaluate scope test) machine
  /-- A round. -/
  | round {scope : Scope} {label : Option String} {test step : Option Expression}
      {body : Statement} {machine start : Machine} :
      testRound (evaluate fuel scope) test machine = .ok true start →
        Part fuel (.rounds scope label test step body) machine (.execute scope none body) start
  /-- The step behind a round. -/
  | stepped {scope : Scope} {label : Option String} {test : Option Expression}
      {step : Expression} {body : Statement} {completion : Completion}
      {machine between start : Machine} :
      testRound (evaluate fuel scope) test machine = .ok true between →
        execute fuel scope none body between = .ok completion start →
          completion.afterRound label = none →
            Part fuel (.rounds scope label test (some step) body) machine
              (.evaluate scope step) start
  /-- The further rounds. -/
  | again {scope : Scope} {label : Option String} {test step : Option Expression}
      {body : Statement} {completion : Completion} {machine between ended start : Machine} :
      testRound (evaluate fuel scope) test machine = .ok true between →
        execute fuel scope none body between = .ok completion ended →
          completion.afterRound label = none →
            stepRound (evaluate fuel scope) step ended = .ok () start →
              Part fuel (.rounds scope label test step body) machine
                (.rounds scope label test step body) start

/-! ## A part is performed in the course of its task -/

section

variable {fuel : Nat} {scope : Scope} {part : Expression} {machine start : Machine}

theorem EvaluatedInOrder.within_mapM {expressions : List Expression}
    (inOrder : EvaluatedInOrder fuel scope expressions machine part start) :
    Within (evaluate fuel scope part) start (expressions.mapM (evaluate fuel scope)) machine := by
  induction inOrder with
  | head =>
      rw [List.mapM_cons]
      exact .first .itself
  | tail evaluated _ induction =>
      rw [List.mapM_cons]
      exact .next evaluated (.first induction)

theorem EvaluatedInOrder.within_lastValue {expressions : List Expression}
    (inOrder : EvaluatedInOrder fuel scope expressions machine part start) :
    ∀ last, Within (evaluate fuel scope part) start
      (lastValue (evaluate fuel scope) last expressions) machine := by
  induction inOrder with
  | head => exact fun _ => .first .itself
  | tail evaluated _ induction => exact fun _ => .next evaluated (induction _)

theorem EvaluatedInOrder.within_evaluateProperties {properties : List Property}
    (inOrder : EvaluatedInOrder fuel scope (properties.map (·.value)) machine part start) :
    Within (evaluate fuel scope part) start
      (evaluateProperties (evaluate fuel scope) properties) machine := by
  refine .first ?_
  generalize equal : properties.map (·.value) = values at inOrder
  induction inOrder generalizing properties with
  | head =>
      obtain _ | ⟨property, properties⟩ := properties
      · cases equal
      · cases equal
        rw [List.mapM_cons]
        exact .first (.first .itself)
  | tail evaluated _ induction =>
      obtain _ | ⟨property, properties⟩ := properties
      · cases equal
      · cases equal
        rw [List.mapM_cons]
        exact .next (Action.bind_of_ok evaluated) (.first (induction rfl))

/-- What is evaluated to find a property is evaluated within the search for it. -/
theorem EvaluatedInOrder.within_propertyOf? {target : Expression}
    (inOrder : EvaluatedInOrder fuel scope (propertyParts target) machine part start) :
    ∃ found, propertyOf? (evaluate fuel scope) target = some found ∧
      Within (evaluate fuel scope part) start found machine := by
  cases target with
  | member object name =>
      refine ⟨_, rfl, ?_⟩
      cases inOrder with
      | head => exact .first .itself
      | tail _ nothing => cases nothing
  | index object key =>
      refine ⟨_, rfl, ?_⟩
      cases inOrder with
      | head => exact .first .itself
      | tail evaluated inOrder =>
          cases inOrder with
          | head => exact .next evaluated (.first .itself)
          | tail _ nothing => cases nothing
  | _ => cases inOrder

theorem EvaluatedInOrder.within_placeOf {target : Expression}
    (inOrder : EvaluatedInOrder fuel scope (propertyParts target) machine part start) :
    Within (evaluate fuel scope part) start (placeOf (evaluate fuel scope) target) machine := by
  obtain ⟨found, denotes, within⟩ := inOrder.within_propertyOf?
  cases target with
  | identifier name => cases denotes
  | _ =>
      rw [placeOf]
      · rw [denotes]
        exact .first within
      · simp

theorem EvaluatedInOrder.within_calleeOf {callee : Expression}
    (inOrder : EvaluatedInOrder fuel scope (calleeParts callee) machine part start) :
    Within (evaluate fuel scope part) start (calleeOf (evaluate fuel scope) callee) machine := by
  by_cases property : propertyOf? (evaluate fuel scope) callee = none
  · have single : calleeParts callee = [callee] := by
      cases callee <;> first | rfl | cases property
    rw [single] at inOrder
    rw [calleeOf, property]
    cases inOrder with
    | head => exact .first .itself
    | tail _ nothing => cases nothing
  · have same : calleeParts callee = propertyParts callee := by
      cases callee <;> first | rfl | exact absurd rfl property
    rw [same] at inOrder
    obtain ⟨found, denotes, within⟩ := inOrder.within_propertyOf?
    rw [calleeOf, denotes]
    exact .first within

theorem Initializes.within {kind : DeclarationKind} {declarators : List Declarator}
    (initializes : Initializes fuel scope kind declarators machine part start) :
    Within (evaluate fuel scope part) start
      (declareVariables (evaluate fuel scope) scope kind declarators) machine := by
  obtain ⟨before, name, rest, rfl, declared⟩ := initializes
  induction before generalizing machine with
  | nil =>
      cases declared
      exact .first (.first .itself)
  | cons declarator before induction =>
      obtain ⟨_, between, first, others⟩ := Action.bind_eq_ok.mp declared
      exact .next first (induction others)

theorem within_inTurn {α : Type} {inner : Action α} {execute : Statement → Action Completion}
    {statement : Statement} {rest : List Statement} {between : Machine}
    (within : Within inner start (execute statement) between) :
    (before : List Statement) → ∀ {machine}, inTurn execute before machine = .ok .finished between →
      Within inner start (inTurn execute (before ++ statement :: rest)) machine
  | [], _, ended => by
      cases ended
      exact .first within
  | _ :: before, _, ended => by
      obtain ⟨completion, between, first, others⟩ := Action.bind_eq_ok.mp ended
      refine .next first ?_
      cases completion with
      | finished => exact within_inTurn within before others
      | _ => cases others

end

/-- What is performed for the body of a function is performed for a call of it. -/
theorem within_call {β : Type} {inner : Action β} {start machine : Machine} {fuel : Nat}
    {address : ClosureAddress} {closure : Closure} {receiver : Value} {arguments : List Value}
    (found : machine.store.closure? address = some closure)
    (supported : unsupportedKind? closure.function = none)
    (shallow : machine.depth < machine.depthLimit)
    (within : Within inner start
      (runBody fuel (⟨machine.store.frames.size⟩ :: closure.scope) closure.function.body)
      (machine.beginCall (callFrame closure.function receiver arguments))) :
    Within inner start (call (fuel + 1) (.closure address) receiver arguments) machine := by
  rw [call_closure]
  refine .next (Action.query_apply _ _) ?_
  rw [found]
  show Within _ _ (enterClosure _ _ _ _) _
  rw [enterClosure, supported]
  exact .nested shallow (.next rfl within)

/-- The argument of an operator is evaluated, except where the type of a name is asked for. -/
theorem within_argument {fuel : Nat} {scope : Scope} {operator : UnaryOperator}
    {argument part : Expression} {machine start : Machine}
    (inOrder : EvaluatedInOrder fuel scope (operands (.unary operator argument)) machine part
      start) :
    Within (evaluate fuel scope part) start
      (evaluate (fuel + 1) scope (.unary operator argument)) machine := by
  obtain ⟨unbound, looked⟩ := exists_isUnboundName scope argument machine
  have single : operands (.unary operator argument) = [argument] ∧
      (operator = .typeOf && unbound) = false := by
    cases argument with
    | identifier name =>
        cases operator with
        | typeOf => cases inOrder
        | _ => exact ⟨rfl, rfl⟩
    | _ =>
        cases looked
        exact ⟨by cases operator <;> rfl, Bool.and_false _⟩
  rw [single.1] at inOrder
  rw [evaluate]
  refine .next looked ?_
  rw [if_neg (by simp [single.2])]
  cases inOrder with
  | head => exact .first .itself
  | tail _ nothing => cases nothing

/-- An expression that is evaluated first is evaluated in the course of its evaluation. -/
theorem within_operand {fuel : Nat} {scope : Scope} {expression part : Expression}
    {machine start : Machine}
    (inOrder : EvaluatedInOrder fuel scope (operands expression) machine part start) :
    Within (evaluate fuel scope part) start (evaluate (fuel + 1) scope expression) machine := by
  cases expression with
  | literal | identifier | receiver | lambda | yield | await => cases inOrder
  | array elements =>
      rw [evaluate]
      exact .first inOrder.within_mapM
  | record properties =>
      rw [evaluate]
      exact .first inOrder.within_evaluateProperties
  | sequence elements =>
      rw [evaluate]
      exact inOrder.within_lastValue _
  | unary operator argument =>
      exact within_argument inOrder
  | update operator leading target =>
      rw [evaluate]
      exact .first inOrder.within_placeOf
  | assign operator target value =>
      rw [evaluate]
      exact .first inOrder.within_placeOf
  | binary operator left right =>
      rw [evaluate]
      cases inOrder with
      | head => exact .first .itself
      | tail evaluated inOrder =>
          cases inOrder with
          | head => exact .next evaluated (.first .itself)
          | tail _ nothing => cases nothing
  | index left right =>
      rw [evaluate]
      cases inOrder with
      | head => exact .first .itself
      | tail evaluated inOrder =>
          cases inOrder with
          | head => exact .next evaluated (.first .itself)
          | tail _ nothing => cases nothing
  | logical operator left right =>
      rw [evaluate]
      cases inOrder with
      | head => exact .first .itself
      | tail _ nothing => cases nothing
  | conditional test consequent alternate =>
      rw [evaluate]
      cases inOrder with
      | head => exact .first .itself
      | tail _ nothing => cases nothing
  | member object name =>
      rw [evaluate]
      cases inOrder with
      | head => exact .first .itself
      | tail _ nothing => cases nothing
  | call callee arguments =>
      rw [evaluate]
      exact .first inOrder.within_calleeOf
  | construct callee arguments =>
      rw [evaluate]
      cases inOrder with
      | head => exact .first .itself
      | tail evaluated inOrder => exact .next evaluated (.first inOrder.within_mapM)

/-- A part is performed in the course of its task. -/
theorem Part.within {fuel : Nat} {task next : Task} {machine start : Machine}
    (part : Part fuel task machine next start) :
    Within (next.perform fuel) start (task.perform (fuel + 1)) machine := by
  cases part with
  | operand inOrder => exact within_operand inOrder
  | right evaluated continues =>
      show Within _ _ (evaluate _ _ _) _
      rw [evaluate]
      refine .next evaluated ?_
      rw [if_neg (by simp [continues])]
      exact .itself
  | @chosen scope test consequent alternate value _ _ evaluated =>
      show Within _ _ (evaluate _ _ _) _
      rw [evaluate]
      refine .next evaluated ?_
      cases value.isTruthy <;> exact .itself
  | @assigned scope operator target value place _ _ found read =>
      show Within _ _ (evaluate _ _ _) _
      rw [evaluate]
      refine .next found ?_
      cases asks : operator.binary? with
      | none => exact .first .itself
      | some operator =>
          obtain none | ⟨current, readOutcome⟩ := read
          · rw [none] at asks
            cases asks
          · exact .next readOutcome (.first .itself)
  | argument found inOrder =>
      show Within _ _ (evaluate _ _ _) _
      rw [evaluate]
      exact .next found (.first inOrder.within_mapM)
  | called found evaluated callable =>
      show Within _ _ (evaluate _ _ _) _
      rw [evaluate]
      refine .next found (.next evaluated ?_)
      rw [if_pos callable]
      exact .itself
  | constructed found evaluated =>
      show Within _ _ (evaluate _ _ _) _
      rw [evaluate]
      exact .next found (.next evaluated .itself)
  | @initialized address closure arguments source _ found written =>
      show Within _ _ (construct _ _ _ _) _
      rw [construct]
      refine .next (Action.query_apply _ _) ?_
      rw [if_pos (by simp [found, written])]
      exact .next rfl (.first .itself)
  | entered found supported shallow body =>
      refine within_call found supported shallow ?_
      rw [body]
      exact .first .itself
  | answered found supported shallow body =>
      refine within_call found supported shallow ?_
      rw [body]
      exact .itself
  | @subject scope label statement expression _ first =>
      show Within _ _ (execute _ _ _ _) _
      cases statement with
      | evaluate expression =>
          cases first
          rw [execute]
          exact .first (.first .itself)
      | giveBack argument =>
          cases first
          rw [execute]
          exact .first .itself
      | branch test consequent alternate =>
          cases first
          rw [execute_branch]
          exact .first .itself
      | raise argument =>
          cases first
          rw [execute]
          exact .first .itself
      | _ => cases first
  | block =>
      show Within _ _ (execute _ _ _ _) _
      rw [execute]
      exact .next rfl .itself
  | labeled =>
      show Within _ _ (execute _ _ _ _) _
      rw [execute]
      exact .first .itself
  | consequent evaluated truthy =>
      show Within _ _ (execute _ _ _ _) _
      rw [execute_branch]
      refine .next evaluated ?_
      rw [if_pos truthy]
      exact .itself
  | alternate evaluated falsy =>
      show Within _ _ (execute _ _ _ _) _
      rw [execute_branch]
      refine .next evaluated ?_
      rw [if_neg (by simp [falsy])]
      exact .itself
  | whileLoop =>
      show Within _ _ (execute _ _ _ _) _
      rw [execute]
      exact .itself
  | firstRound =>
      show Within _ _ (execute _ _ _ _) _
      rw [execute]
      exact .first .itself
  | doWhileLoop ended continues =>
      show Within _ _ (execute _ _ _ _) _
      rw [execute]
      refine .next ended ?_
      rw [continues]
      exact .itself
  | loopVariable initializes =>
      show Within _ _ (execute _ _ _ _) _
      rw [execute_forLoop]
      exact .next rfl (.first initializes.within)
  | loopStart =>
      show Within _ _ (execute _ _ _ _) _
      rw [execute_forLoop]
      exact .next rfl (.first (.first .itself))
  | forLoop started =>
      show Within _ _ (execute _ _ _ _) _
      rw [execute_forLoop]
      exact .next rfl (.next started .itself)
  | «variable» initializes =>
      show Within _ _ (execute _ _ _ _) _
      rw [execute]
      exact .first initializes.within
  | statement hoisted ended =>
      show Within _ _ (executeAll _ _ _) _
      rw [executeAll]
      exact .next hoisted (within_inTurn .itself _ ended)
  | tested =>
      show Within _ _ (rounds _ _ _ _ _ _) _
      rw [rounds_succ]
      exact .first (.first .itself)
  | round goesOn =>
      show Within _ _ (rounds _ _ _ _ _ _) _
      rw [rounds_succ]
      refine .next goesOn ?_
      exact .first .itself
  | stepped goesOn ended continues =>
      show Within _ _ (rounds _ _ _ _ _ _) _
      rw [rounds_succ]
      refine .next goesOn (.next ended ?_)
      rw [continues]
      exact .first (.first .itself)
  | again goesOn ended continues stepped =>
      show Within _ _ (rounds _ _ _ _ _ _) _
      rw [rounds_succ]
      refine .next goesOn (.next ended ?_)
      rw [continues]
      exact .next stepped .itself

/-! ## Parts of parts -/

/-- A task is performed with fuel, from some machine on, in the course of another one. -/
inductive Performs (less : Nat) (inner : Task) (start : Machine) : Nat → Task → Machine → Prop where
  /-- It is the other one itself. -/
  | itself : Performs less inner start less inner start
  /-- It is performed in the course of a part of the other one. -/
  | part {fuel : Nat} {task next : Task} {machine between : Machine} :
      Part fuel task machine next between → Performs less inner start fuel next between →
        Performs less inner start (fuel + 1) task machine

/-- Actions that are within one that is itself within another are within the other. -/
theorem Within.trans {α β γ : Type} {inner : Action β} {between : Action γ} {outer : Action α}
    {start begun machine : Machine}
    (first : Within inner start between begun) (second : Within between begun outer machine) :
    Within inner start outer machine := by
  induction second with
  | itself => exact first
  | first _ induction => exact .first induction
  | next ended _ induction => exact .next ended induction
  | nested shallow _ induction => exact .nested shallow induction

/-- What is performed in the course of a task is performed within it. -/
theorem Performs.within {less fuel : Nat} {inner task : Task} {start machine : Machine}
    (performs : Performs less inner start fuel task machine) :
    Within (inner.perform less) start (task.perform fuel) machine := by
  induction performs with
  | itself => exact .itself
  | part part _ induction => exact induction.trans part.within

/-! ## Runs of programs -/

/--
A task is performed when a program is run: while it is loaded, or in the course
of the call that follows.
-/
inductive PerformsInRun (less : Nat) (inner : Task) (start : Machine) (fuel : Nat)
    (program : Program) (name : String) (arguments : List Json) (machine : Machine) : Prop where
  | loading :
      Performs less inner start fuel (.executeAll globalScope program.statements) machine →
        PerformsInRun less inner start fuel program name arguments machine
  | calling {loaded received : Machine} {values : List Value} {callee : Value} :
      load fuel program machine = .ok () loaded →
        receive arguments loaded = .ok values received →
          received.store.lookup? globalScope name = some callee → callee.isCallable = true →
            Performs less inner start fuel (.call callee .undefined values) received →
              PerformsInRun less inner start fuel program name arguments machine

/-- What is performed when a program is run is performed within the run. -/
theorem PerformsInRun.within {less fuel : Nat} {inner : Task} {program : Program} {name : String}
    {arguments : List Json} {start machine : Machine}
    (performs : PerformsInRun less inner start fuel program name arguments machine) :
    Within (inner.perform less) start (program.run fuel name arguments) machine := by
  cases performs with
  | loading performs => exact .first (.first performs.within)
  | @calling loaded received values callee ended given found callable performs =>
      refine .next ended (.next given ?_)
      unfold callGlobal
      refine .next (Action.query_apply _ _) ?_
      rw [found]
      show Within _ _ (if callee.isCallable then _ else _) _
      rw [if_pos callable]
      exact performs.within

/-- A run stops for the reason for which a task stops that is performed in it. -/
theorem PerformsInRun.stops {less fuel : Nat} {inner : Task} {program : Program} {name : String}
    {arguments : List Json} {start machine final : Machine} {stop : Stop}
    (performs : PerformsInRun less inner start fuel program name arguments machine)
    (stops : inner.perform less start = .error stop final) :
    ∃ last, program.run fuel name arguments machine = .error stop last ∧
      last.store = final.store ∧ last.output = final.output :=
  performs.within.stops stops

end Covenant.Machine
