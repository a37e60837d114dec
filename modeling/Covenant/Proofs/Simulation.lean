import Covenant.Proofs.Fuel
import Covenant.Proofs.MirrorParts
import Covenant.Proofs.Silence

/-!
# Runs of woven programs

Whenever a program with checks woven in has a result, the program without them
has a corresponding result, given the same fuel.  This is shown once for every
form of expression and statement, by induction on fuel: the checks are steps
that the other program does not take, and returned values that pass through
checkers come out as they went in.
-/

namespace Covenant.Machine

open Covenant.Machine.Action (Mirrors)

/-! ## Completions -/

/-- Completions that correspond. -/
inductive Pairing.RelatesCompletion (pairing : Pairing) : Completion → Completion → Prop where
  | finished : RelatesCompletion pairing .finished .finished
  | returned {value other : Value} (related : pairing.Relates value other) :
      RelatesCompletion pairing (.returned value) (.returned other)
  | broken (label : Option String) : RelatesCompletion pairing (.broken label) (.broken label)
  | continued (label : Option String) :
      RelatesCompletion pairing (.continued label) (.continued label)

namespace Pairing.RelatesCompletion

variable {pairing : Pairing} {completion other : Completion}
  (related : pairing.RelatesCompletion completion other)

include related

theorem afterLabel (label : String) :
    pairing.RelatesCompletion (completion.afterLabel label) (other.afterLabel label) := by
  cases related with
  | finished => exact .finished
  | returned values => exact .returned values
  | continued target => exact .continued target
  | broken target =>
      cases target with
      | none => exact .broken none
      | some target =>
          rw [Completion.afterLabel]
          split
          · exact .finished
          · exact .broken (some target)

theorem afterRound (label : Option String) :
    Option.Rel pairing.RelatesCompletion (completion.afterRound label)
      (other.afterRound label) := by
  cases related with
  | finished => exact .none
  | returned values => exact .some (.returned values)
  | broken target =>
      cases target with
      | none => exact .some .finished
      | some target =>
          rw [Completion.afterRound]
          split
          · exact .some .finished
          · exact .some (.broken (some target))
  | continued target =>
      cases target with
      | none => exact .none
      | some target =>
          rw [Completion.afterRound]
          split
          · exact .none
          · exact .some (.continued (some target))

theorem result : pairing.Relates completion.result other.result := by
  cases related with
  | returned values => exact values
  | finished | broken | continued => exact .primitive .undefined

end Pairing.RelatesCompletion

/-! ## Frames of calls -/

section

variable {code : Correspondence} {pairing : Pairing}

/-- Frames stay alike when the same names are bound to corresponding values. -/
theorem relatesFrames_bound
    (names : List String) {values others : List Value} (given : pairing.RelatesAll values others)
    {frame other : Frame} (frames : Store.RelatesFrames code pairing frame other) :
    Store.RelatesFrames code pairing
      ((names.zip values).foldl
        (fun frame parameter => Entries.put parameter.1 ⟨parameter.2, true⟩ frame) frame)
      ((names.zip others).foldl
        (fun frame parameter => Entries.put parameter.1 ⟨parameter.2, true⟩ frame) other) := by
  induction names generalizing values others frame other with
  | nil => exact frames
  | cons name rest inductionHypothesis =>
      cases given with
      | nil => exact frames
      | cons head tail =>
          refine inductionHypothesis tail fun name' visible => ?_
          rw [Entries.lookup_put, Entries.lookup_put]
          split
          · exact .some ⟨head, rfl⟩
          · exact frames name' visible

/-- A name that is not among those that are bound is looked up as before. -/
theorem lookup_bound
    {name : String} {names : List String} (absent : name ∉ names) (values : List Value)
    (frame : Frame) :
    ((names.zip values).foldl
      (fun frame parameter => Entries.put parameter.1 (Binding.mk parameter.2 true) frame)
      frame).lookup name = frame.lookup name := by
  induction names generalizing values frame with
  | nil => rfl
  | cons head rest inductionHypothesis =>
      cases values with
      | nil => rfl
      | cons value others =>
          rw [List.zip_cons_cons, List.foldl_cons,
            inductionHypothesis (fun member => absent (List.mem_cons_of_mem _ member)),
            Entries.lookup_put, if_neg]
          rintro rfl
          exact absent List.mem_cons_self

variable {function other : Function} (functions : code.function function other)

include functions

/-- Functions that correspond are entered with frames that do. -/
theorem relatesFrames_callFrame
    {receiver corresponding : Value} (receivers : pairing.Relates receiver corresponding)
    {arguments others : List Value} (given : pairing.RelatesAll arguments others) :
    Store.RelatesFrames code pairing (callFrame function receiver arguments)
      (callFrame other corresponding others) := by
  have alike := code.alike functions
  rw [callFrame, callFrame, ← alike.parameters, ← alike.isArrow]
  refine relatesFrames_bound _ (List.rel_append given (Pairing.RelatesAll.replicate _ (.primitive _))) ?_
  intro name _
  split
  · exact .none
  · rw [List.lookup_cons, List.lookup_cons]
    cases name == "this" with
    | true => exact .some ⟨receivers, rfl⟩
    | false => exact .none

/-- No function that corresponds to another one has a checker for a parameter. -/
theorem lookup_callFrame_of_checker
    (receiver : Value) (arguments : List Value) {name : String} (checker : code.checker name) :
    (callFrame function receiver arguments).lookup name = none := by
  rw [callFrame, lookup_bound fun member => code.apart checker (code.parameter functions member)]
  split
  · rfl
  · rw [List.lookup_cons, beq_eq_false_iff_ne.mpr]
    · rfl
    · rintro rfl
      exact code.apart checker code.receiver

end

/-! ## Every run -/

/-- Everything that takes fuel goes with it as it does without the checks. -/
structure Simulates (code : Correspondence) (fuel : Nat) : Prop where
  evaluate : MirrorsEvaluation code (evaluate fuel) (evaluate fuel)
  construct {pairing : Pairing} {constructor corresponding : Value}
    (constructors : pairing.Relates constructor corresponding) {arguments others : List Value}
    (given : pairing.RelatesAll arguments others) (source source' : Expression) :
    Mirrors code pairing Pairing.Relates (construct fuel constructor arguments source)
      (construct fuel corresponding others source')
  call {pairing : Pairing} {callee corresponding : Value}
    (callees : pairing.Relates callee corresponding) {receiver other : Value}
    (receivers : pairing.Relates receiver other) {arguments others : List Value}
    (given : pairing.RelatesAll arguments others) :
    Mirrors code pairing Pairing.Relates (call fuel callee receiver arguments)
      (call fuel corresponding other others)
  execute {pairing : Pairing} {scope corresponding : Scope}
    (scopes : pairing.RelatesScope scope corresponding) (label : Option String)
    {statement other : Statement} (related : Woven.OnStatement code statement other) :
    Mirrors code pairing Pairing.RelatesCompletion (execute fuel scope label statement)
      (execute fuel corresponding label other)
  executeAll {pairing : Pairing} {scope corresponding : Scope}
    (scopes : pairing.RelatesScope scope corresponding) {statements others : List Statement}
    (related : Woven.OnStatements code statements others) :
    Mirrors code pairing Pairing.RelatesCompletion (executeAll fuel scope statements)
      (executeAll fuel corresponding others)
  rounds {pairing : Pairing} {scope corresponding : Scope}
    (scopes : pairing.RelatesScope scope corresponding) (label : Option String)
    {test test' step step' : Option Expression} {body body' : Statement}
    (tests : code.exchange.OnOptional test test') (steps : code.exchange.OnOptional step step')
    (bodies : Woven.OnStatement code body body') :
    Mirrors code pairing Pairing.RelatesCompletion (rounds fuel scope label test step body)
      (rounds fuel corresponding label test' step' body')

namespace Simulates

theorem zero (code : Correspondence) : Simulates code 0 where
  evaluate _ _ _ _ _ _ _ := by
    rw [Machine.evaluate]
    exact .throw _ _
  construct _ _ _ _ _ _ := by
    rw [Machine.construct]
    exact .throw _ _
  call _ _ _ _ _ _ _ := by
    rw [Machine.call]
    exact .throw _ _
  execute _ _ _ _ _ := by
    rw [Machine.execute]
    exact .throw _ _
  executeAll _ _ _ _ := by
    rw [Machine.executeAll]
    exact .throw _ _
  rounds _ _ _ _ _ _ _ _ _ _ _ := by
    rw [Machine.rounds]
    exact .throw _ _

variable {code : Correspondence} {fuel : Nat} (simulates : Simulates code fuel)

include simulates

theorem evaluate_succ : MirrorsEvaluation code (Machine.evaluate (fuel + 1))
    (Machine.evaluate (fuel + 1)) := by
  intro pairing scope corresponding expression other scopes related
  have inner := simulates.evaluate
  cases related with
  | exchanged given => cases given
  | literal value =>
      rw [Machine.evaluate, Machine.evaluate]
      exact .pure (.primitive value)
  | identifier known =>
      rw [Machine.evaluate, Machine.evaluate]
      exact mirrors_read scopes known
  | receiver =>
      rw [Machine.evaluate, Machine.evaluate]
      exact .query fun _ _ given => relates_getD (given.lookup?_related code.receiver scopes)
  | array elements =>
      rw [Machine.evaluate, Machine.evaluate]
      exact (mirrors_all inner scopes elements).bind fun _ _ _ _ values => mirrors_addArray values
  | record properties =>
      rw [Machine.evaluate, Machine.evaluate]
      exact (mirrors_evaluateProperties inner scopes properties).bind fun _ _ _ _ entries =>
        mirrors_addObject .plain entries
  | lambda functions =>
      rw [Machine.evaluate, Machine.evaluate]
      exact mirrors_makeLambda scopes functions
  | unary argument =>
      rw [Machine.evaluate, Machine.evaluate]
      refine (mirrors_isUnboundName scopes argument).bind fun later unbound _ grows same => ?_
      subst same
      split
      · exact .pure (.primitive _)
      · exact (inner (scopes.mono grows) argument).bind fun _ _ _ _ values =>
          .query fun _ _ given => given.unaryResult_related _ values
  | update argument =>
      rw [Machine.evaluate, Machine.evaluate]
      refine (mirrors_placeOf inner scopes argument).bind fun later _ _ grows places => ?_
      refine (mirrors_readPlace (scopes.mono grows) places).bind fun next _ _ more values => ?_
      refine Mirrors.bind (.querySame fun _ _ given => given.toNumber_eq values)
        fun last _ _ most same => ?_
      subst same
      have scopesFinally := ((scopes.mono grows).mono more).mono most
      refine Mirrors.next ?_ fun _ _ => .pure (.primitive _)
      exact mirrors_writePlace scopesFinally ((places.mono more).mono most) (.primitive _)
  | binary left right =>
      rw [Machine.evaluate, Machine.evaluate]
      refine (inner scopes left).bind fun later _ _ grows lefts => ?_
      refine (inner (scopes.mono grows) right).bind fun _ _ _ more rights => ?_
      exact .check fun _ _ _ given outcome =>
        given.binaryResult_eq_ok (lefts.mono more) rights outcome
  | logical left right =>
      rw [Machine.evaluate, Machine.evaluate]
      refine (inner scopes left).bind fun later _ _ grows values => ?_
      rw [← values.shortCircuits_eq]
      split
      · exact .pure values
      · exact inner (scopes.mono grows) right
  | @assign operator _ _ _ _ target value =>
      rw [Machine.evaluate, Machine.evaluate]
      refine (mirrors_placeOf inner scopes target).bind fun later _ _ grows places => ?_
      cases operator.binary? with
      | none =>
          refine (inner (scopes.mono grows) value).bind fun last _ _ more values => ?_
          refine Mirrors.next ?_ fun _ most => .pure (values.mono most)
          exact mirrors_writePlace ((scopes.mono grows).mono more) (places.mono more) values
      | some operator =>
          refine (mirrors_readPlace (scopes.mono grows) places).bind fun next _ _ more olds => ?_
          refine (inner ((scopes.mono grows).mono more) value).bind fun last _ _ most news => ?_
          refine Mirrors.bind (.check fun _ _ _ given outcome =>
            given.binaryResult_eq_ok (olds.mono most) news outcome) fun final _ _ yet values => ?_
          have scopesFinally := (((scopes.mono grows).mono more).mono most).mono yet
          refine Mirrors.next ?_ fun _ ever => .pure (values.mono ever)
          exact mirrors_writePlace scopesFinally (((places.mono more).mono most).mono yet) values
  | conditional test consequent alternate =>
      rw [Machine.evaluate, Machine.evaluate]
      refine (inner scopes test).bind fun later chosen chosen' grows tests => ?_
      rw [← tests.isTruthy_eq]
      split
      · exact inner (scopes.mono grows) consequent
      · exact inner (scopes.mono grows) alternate
  | call callee arguments =>
      rw [Machine.evaluate, Machine.evaluate]
      refine (mirrors_calleeOf inner scopes callee).bind fun later found found' grows callees => ?_
      refine (mirrors_all inner (scopes.mono grows) arguments).bind
        fun last values values' more given => ?_
      rw [← callees.1.isCallable_eq]
      split
      · exact simulates.call (callees.1.mono more) (callees.2.mono more) given
      · exact .throw _ _
  | construct callee arguments =>
      rw [Machine.evaluate, Machine.evaluate]
      refine (inner scopes callee).bind fun later _ _ grows constructors => ?_
      refine (mirrors_all inner (scopes.mono grows) arguments).bind fun _ _ _ more given => ?_
      exact simulates.construct (constructors.mono more) given _ _
  | member object =>
      rw [Machine.evaluate, Machine.evaluate]
      exact (inner scopes object).bind fun _ _ _ _ bases => mirrors_property bases _
  | index object key =>
      rw [Machine.evaluate, Machine.evaluate]
      refine (inner scopes object).bind fun later _ _ grows bases => ?_
      refine (inner (scopes.mono grows) key).bind fun _ _ _ more keys => ?_
      refine .check fun _ _ _ given outcome => ?_
      rw [given.toKey_eq keys] at outcome
      exact given.property_eq_ok (bases.mono more) outcome
  | sequence expressions =>
      rw [Machine.evaluate, Machine.evaluate]
      exact mirrors_lastValue inner scopes expressions (.primitive .undefined)
  | yield argument =>
      rw [Machine.evaluate]
      exact .throw _ _
  | await argument =>
      rw [Machine.evaluate]
      exact .throw _ _

theorem construct_succ
    {pairing : Pairing} {constructor corresponding : Value}
    (constructors : pairing.Relates constructor corresponding) {arguments others : List Value}
    (given : pairing.RelatesAll arguments others) (source source' : Expression) :
    Mirrors code pairing Pairing.Relates
      (Machine.construct (fuel + 1) constructor arguments source)
      (Machine.construct (fuel + 1) corresponding others source') := by
  cases constructors with
  | builtin function =>
      cases function with
      | makeError =>
          rw [Machine.construct, Machine.construct]
          exact mirrors_addError (given.headD (.primitive .undefined))
      | writeLine =>
          rw [Machine.construct]
          · exact .throw _ _
          all_goals simp
  | @closure address target paired =>
      rw [Machine.construct, Machine.construct]
      refine (mirrors_closure? paired).bind fun later _ _ grows found => ?_
      obtain ⟨closure, other, rfl, rfl, functions, _⟩ := found
      rw [Option.any_some, Option.any_some, ← (code.alike functions).isArrow]
      split
      · refine (mirrors_addObject .plain .nil).bind fun last _ _ more created => ?_
        refine (simulates.call (.closure ((grows.trans more).closures paired)) created
          (given.mono (grows.trans more))).bind fun final _ _ most results => ?_
        cases results with
        | array pair => exact .pure (.array pair)
        | object pair => exact .pure (.object pair)
        | primitive | closure | builtin => exact .pure (created.mono most)
      · exact .throw _ _
  | primitive | array | object =>
      rw [Machine.construct]
      · exact .throw _ _
      all_goals simp

/-- The body of a function is run as it is without the checks. -/
theorem runBody
    {pairing : Pairing} {scope corresponding : Scope}
    (scopes : pairing.RelatesScope scope corresponding) {body other : FunctionBody}
    (related : Woven.OnBody code body other) :
    Mirrors code pairing Pairing.Relates (Machine.runBody fuel scope body)
      (Machine.runBody fuel corresponding other) := by
  cases related with
  | block inner =>
      exact (simulates.executeAll scopes inner).bind fun _ _ _ _ completions =>
        .pure completions.result
  | result inner => exact simulates.evaluate scopes inner

section

variable (closed : ∀ {function other : Function}, code.function function other →
  Woven.OnBody code function.body other.body)

include closed

theorem enterClosure
    {pairing : Pairing} {closure other : Closure}
    (functions : code.function closure.function other.function)
    (scopes : pairing.RelatesScope closure.scope other.scope)
    {receiver corresponding : Value} (receivers : pairing.Relates receiver corresponding)
    {arguments others : List Value} (given : pairing.RelatesAll arguments others) :
    Mirrors code pairing Pairing.Relates (Machine.enterClosure fuel closure receiver arguments)
      (Machine.enterClosure fuel other corresponding others) := by
  have alike := code.alike functions
  unfold Machine.enterClosure
  rw [unsupportedKind?, unsupportedKind?, ← alike.isAsync, ← alike.isGenerator]
  split
  · exact .throw _ _
  · refine .nested ?_
    refine (mirrors_enter scopes (relatesFrames_callFrame functions receivers given)
      fun _ checker => lookup_callFrame_of_checker functions receiver arguments checker).bind
        fun later _ _ grows entered => ?_
    exact simulates.runBody entered (closed functions)

theorem call_succ
    {pairing : Pairing} {callee corresponding : Value}
    (callees : pairing.Relates callee corresponding) {receiver other : Value}
    (receivers : pairing.Relates receiver other) {arguments others : List Value}
    (given : pairing.RelatesAll arguments others) :
    Mirrors code pairing Pairing.Relates (Machine.call (fuel + 1) callee receiver arguments)
      (Machine.call (fuel + 1) corresponding other others) := by
  cases callees with
  | builtin function =>
      cases function with
      | makeError =>
          rw [Machine.call, Machine.call]
          exact mirrors_addError (given.headD (.primitive .undefined))
      | writeLine =>
          rw [Machine.call, Machine.call]
          refine Mirrors.bind (.querySame fun left right stores => ?_) fun later line _ _ same => ?_
          · exact congrArg (String.intercalate " ")
              (map_eq_of_forall₂ given fun _ _ values => stores.toText_eq values)
          · subst same
            exact Mirrors.next (.writeLine line) fun _ _ => .pure (.primitive .undefined)
  | @closure address target paired =>
      rw [call_closure, call_closure]
      refine (mirrors_closure? paired).bind fun later _ _ grows found => ?_
      obtain ⟨closure, other, rfl, rfl, functions, scopes⟩ := found
      exact simulates.enterClosure closed functions scopes (receivers.mono grows)
        (given.mono grows)
  | primitive | array | object =>
      rw [Machine.call]
      · intro left right result after _ outcome
        cases outcome
      all_goals simp

end

/-! ## Statements -/

/-- Statements are run in turn as they are without the checks among them. -/
theorem inTurn
    {pairing : Pairing} {scope corresponding : Scope}
    (scopes : pairing.RelatesScope scope corresponding) {statements others : List Statement}
    (related : Woven.OnStatements code statements others) :
    Mirrors code pairing Pairing.RelatesCompletion
      (Machine.inTurn (Machine.execute fuel scope none) statements)
      (Machine.inTurn (Machine.execute fuel corresponding none) others) := by
  induction statements generalizing pairing scope corresponding others with
  | nil =>
      cases related
      exact .pure .finished
  | cons statement rest inductionHypothesis =>
      cases related with
      | cons first second =>
          rw [Machine.inTurn, Machine.inTurn]
          refine (simulates.execute scopes none first).bind fun later _ _ grows completions => ?_
          cases completions with
          | finished => exact inductionHypothesis (scopes.mono grows) second
          | returned values => exact .pure (.returned values)
          | broken label => exact .pure (.broken label)
          | continued label => exact .pure (.continued label)
      | silent silent second =>
          intro left right result after corresponds outcome
          rw [Machine.inTurn] at outcome
          obtain ⟨completion, between, ran, rest⟩ := Action.bind_eq_ok.mp outcome
          obtain ⟨rfl, unseen⟩ := unseen_silent corresponds scopes silent ran
          exact inductionHypothesis scopes second between right result after
            (corresponds.unseen unseen) rest

/-- A returned value that passes through checkers is the value without them. -/
theorem returned
    {pairing : Pairing} {scope corresponding : Scope}
    (scopes : pairing.RelatesScope scope corresponding) {argument other : Option Expression}
    (related : Woven.Returned code argument other) :
    Mirrors code pairing Pairing.Relates (returnedValue (Machine.evaluate fuel scope) argument)
      (returnedValue (Machine.evaluate fuel corresponding) other) := by
  induction related with
  | same inner =>
      cases inner with
      | none => exact .pure (.primitive .undefined)
      | some inner => exact simulates.evaluate scopes inner
  | @routed checker argument other named _ inductionHypothesis =>
      intro left right result after corresponds outcome
      obtain ⟨less, between, smaller, evaluated, unseen⟩ :=
        unseen_evaluate_checkerCall corresponds scopes named outcome
      -- The argument was evaluated with less fuel than there is without the call.
      have own : returnedValue (Machine.evaluate fuel scope) argument left =
          .ok result between := by
        cases argument with
        | some argument =>
            exact ((moreFuel_of_le (Nat.le_of_lt smaller)).evaluate scope argument).of_ok evaluated
        | none =>
            cases less with
            | zero => cases evaluated
            | succ less =>
                rw [Option.getD_none, Machine.evaluate] at evaluated
                cases evaluated
                rfl
      obtain ⟨later, corresponding, final, grows, same, corresponds, values⟩ :=
        inductionHypothesis left right result between corresponds own
      exact ⟨later, corresponding, final, grows, same, corresponds.unseen unseen, values⟩

theorem execute_succ
    {pairing : Pairing} {scope corresponding : Scope}
    (scopes : pairing.RelatesScope scope corresponding) (label : Option String)
    {statement other : Statement} (related : Woven.OnStatement code statement other) :
    Mirrors code pairing Pairing.RelatesCompletion (Machine.execute (fuel + 1) scope label statement)
      (Machine.execute (fuel + 1) corresponding label other) := by
  have inner := simulates.evaluate
  cases related with
  | evaluate expression =>
      rw [Machine.execute, Machine.execute]
      refine Mirrors.next ?_ fun _ _ => .pure .finished
      exact (inner scopes expression).bind fun _ _ _ _ _ => .pure trivial
  | block statements =>
      rw [Machine.execute, Machine.execute]
      exact (mirrors_enterBlock scopes).bind fun _ _ _ _ entered =>
        simulates.executeAll entered statements
  | labeled body =>
      rw [Machine.execute, Machine.execute]
      exact (simulates.execute scopes (some _) body).bind fun _ _ _ _ completions =>
        .pure (completions.afterLabel _)
  | giveBack argument =>
      rw [execute_giveBack, execute_giveBack]
      exact (simulates.returned scopes argument).bind fun _ _ _ _ values =>
        .pure (.returned values)
  | branch test consequent alternate =>
      rw [execute_branch, execute_branch]
      refine (inner scopes test).bind fun later _ _ grows tests => ?_
      rw [← tests.isTruthy_eq]
      split
      · exact simulates.execute (scopes.mono grows) none consequent
      · cases alternate with
        | none => exact .pure .finished
        | some alternate => exact simulates.execute (scopes.mono grows) none alternate
  | whileLoop test body =>
      rw [Machine.execute, Machine.execute]
      exact simulates.rounds scopes label (.some test) .none body
  | doWhileLoop body test =>
      rw [Machine.execute, Machine.execute]
      refine (simulates.execute scopes none body).bind
        fun later completion other grows completions => ?_
      have ends := completions.afterRound label
      generalize completion.afterRound label = leaves at ends ⊢
      generalize other.afterRound label = leaves' at ends ⊢
      cases ends with
      | none => exact simulates.rounds (scopes.mono grows) label (.some test) .none body
      | some leaves => exact .pure leaves
  | forLoop init test step body =>
      rw [execute_forLoop, execute_forLoop]
      refine (mirrors_enterBlock scopes).bind fun later _ _ grows entered => ?_
      refine Mirrors.next (mirrors_startLoop inner entered init) fun last more => ?_
      exact simulates.rounds (entered.mono more) label test step body
  | bindings declarators =>
      rw [Machine.execute, Machine.execute]
      exact Mirrors.next (mirrors_declareVariables inner scopes _ declarators) fun _ _ =>
        .pure .finished
  | raise argument =>
      rw [Machine.execute, Machine.execute]
      exact (inner scopes argument).bind fun _ _ _ _ _ => .throw _ _
  | declare functions =>
      rw [Machine.execute, Machine.execute]
      exact .pure .finished
  | breakOut label =>
      rw [Machine.execute, Machine.execute]
      exact .pure (.broken label)
  | continueLoop label =>
      rw [Machine.execute, Machine.execute]
      exact .pure (.continued label)
  | empty =>
      rw [Machine.execute, Machine.execute]
      exact .pure .finished

theorem executeAll_succ
    {pairing : Pairing} {scope corresponding : Scope}
    (scopes : pairing.RelatesScope scope corresponding) {statements others : List Statement}
    (related : Woven.OnStatements code statements others) :
    Mirrors code pairing Pairing.RelatesCompletion
      (Machine.executeAll (fuel + 1) scope statements)
      (Machine.executeAll (fuel + 1) corresponding others) := by
  rw [Machine.executeAll, Machine.executeAll]
  exact Mirrors.next (mirrors_hoist scopes related) fun _ grows =>
    simulates.inTurn (scopes.mono grows) related

theorem rounds_succ
    {pairing : Pairing} {scope corresponding : Scope}
    (scopes : pairing.RelatesScope scope corresponding) (label : Option String)
    {test test' step step' : Option Expression} {body body' : Statement}
    (tests : code.exchange.OnOptional test test') (steps : code.exchange.OnOptional step step')
    (bodies : Woven.OnStatement code body body') :
    Mirrors code pairing Pairing.RelatesCompletion
      (Machine.rounds (fuel + 1) scope label test step body)
      (Machine.rounds (fuel + 1) corresponding label test' step' body') := by
  have inner := simulates.evaluate
  rw [Machine.rounds_succ, Machine.rounds_succ]
  refine (mirrors_testRound inner scopes tests).bind fun later goesOn _ grows same => ?_
  subst same
  split
  · refine (simulates.execute (scopes.mono grows) none bodies).bind
      fun last completion other more completions => ?_
    have scopesAfter := (scopes.mono grows).mono more
    have ends := completions.afterRound label
    generalize completion.afterRound label = leaves at ends ⊢
    generalize other.afterRound label = leaves' at ends ⊢
    cases ends with
    | some leaves => exact .pure leaves
    | none =>
        exact Mirrors.next (mirrors_stepRound inner scopesAfter steps) fun _ most =>
          simulates.rounds (scopesAfter.mono most) label tests steps bodies
  · exact .pure .finished

end Simulates

/-- Whatever a woven program does, the program that it is woven from does as well. -/
theorem simulates
    {code : Correspondence}
    (closed : ∀ {function other : Function}, code.function function other →
      Woven.OnBody code function.body other.body) :
    (fuel : Nat) → Simulates code fuel
  | 0 => .zero code
  | fuel + 1 =>
      have less := simulates closed fuel
      ⟨less.evaluate_succ, less.construct_succ, less.call_succ closed, less.execute_succ,
        less.executeAll_succ, less.rounds_succ⟩

end Covenant.Machine
