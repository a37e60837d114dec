import Covenant.Proofs.Calm
import Covenant.Proofs.Capture
import Covenant.Proofs.Stability

/-!
# What a checker does

A call of a checker that has a result evaluates its conditions one after the
other, finds each of them true while its parameter has the value of the
argument, and gives the argument back.
-/

namespace Covenant.Contract

open Machine

/--
Expressions are evaluated one after the other in a scope in which a name has a
value, and all of them come out true.
-/
inductive Holding (scope : Scope) (name : String) (value : Value) :
    List Expression → Machine → Machine → Prop where
  | done (machine : Machine) : Holding scope name value [] machine machine
  | next {fuel : Nat} {test : Expression} {rest : List Expression} {outcome : Value}
      {machine between after : Machine} :
      machine.store.lookup? scope name = some value →
        evaluate fuel scope test machine = .ok outcome between → outcome.isTruthy = true →
          Holding scope name value rest between after →
            Holding scope name value (test :: rest) machine after

/--
A check of conditions from one machine to another: in a call of its own, whose
parameter has a value, all of them come out true.
-/
def Checked (parameter : String) (home : Scope) (tests : List Expression) (value : Value)
    (machine after : Machine) : Prop :=
  ∃ final,
    Holding (⟨machine.store.frames.size⟩ :: home) parameter value tests
        (machine.beginCall [(parameter, ⟨value, true⟩)]) final ∧
      after = final.endCall

/-! ## Frames that plain conditions leave alone -/

/-- A frame out of sight stays as it is when plain expressions are evaluated. -/
def calmOfSealed (address : FrameAddress) (bindings : Frame) : Calm true where
  holds machine := machine.store.Sealed address bindings
  array _ kept := (sealing address bindings).cells kept rfl rfl
  object _ kept := (sealing address bindings).cells kept rfl rfl
  call fuel callee receiver arguments _ machine result after kept outcome :=
    ((preserves (sealing address bindings) fuel).call callee receiver arguments machine result
      after kept outcome).1
  construct fuel constructor arguments source _ machine result after kept outcome :=
    ((preserves (sealing address bindings) fuel).construct constructor arguments source machine
      result after kept outcome).1

/-- The parameter of a call that nothing else sees has the value it was given. -/
theorem lookup?_of_sealed
    {store : Store} {address : FrameAddress} {home : Scope} {parameter : String} {value : Value}
    (kept : store.Sealed address [(parameter, ⟨value, true⟩)]) :
    store.lookup? (address :: home) parameter = some value := by
  simp [Store.lookup?, Store.nearest?, kept.equal]

/-! ## Guards -/

theorem execute_raise_block
    {fuel : Nat} {scope : Scope} {label : Option String} {argument : Expression}
    {machine after : Machine} {completion : Completion} :
    execute fuel scope label (.block [.raise argument]) machine ≠ .ok completion after := by
  intro outcome
  cases fuel with
  | zero => cases outcome
  | succ fuel =>
      rw [execute] at outcome
      obtain ⟨inner, entered, _, outcome⟩ := Action.bind_eq_ok.mp outcome
      cases fuel with
      | zero => cases outcome
      | succ fuel =>
          rw [executeAll] at outcome
          obtain ⟨_, _, _, outcome⟩ := Action.bind_eq_ok.mp outcome
          rw [inTurn] at outcome
          obtain ⟨_, _, raised, _⟩ := Action.bind_eq_ok.mp outcome
          cases fuel with
          | zero => cases raised
          | succ fuel =>
              rw [execute] at raised
              obtain ⟨_, _, _, failed⟩ := Action.bind_eq_ok.mp raised
              cases failed

/-- A negation does nothing before its argument is evaluated. -/
theorem evaluate_not_apply
    {fuel : Nat} {scope : Scope} {argument : Expression} {machine : Machine} :
    evaluate (fuel + 1) scope (.unary .not argument) machine =
      (do
        let operand ← evaluate fuel scope argument
        Action.query fun store => unaryResult store .not operand) machine := by
  obtain ⟨unbound, looked⟩ := exists_isUnboundName scope argument machine
  rw [evaluate, Action.bind_of_ok looked, if_neg (by simp)]

/-- A negation has a result if its argument has, and then the opposite truth value. -/
theorem evaluate_not
    {fuel : Nat} {scope : Scope} {argument : Expression} {machine after : Machine}
    {result : Value}
    (outcome : evaluate (fuel + 1) scope (.unary .not argument) machine = .ok result after) :
    ∃ operand,
      evaluate fuel scope argument machine = .ok operand after ∧
        result.isTruthy = !operand.isTruthy := by
  rw [evaluate_not_apply] at outcome
  obtain ⟨operand, final, evaluated, negated⟩ := Action.bind_eq_ok.mp outcome
  cases negated
  exact ⟨operand, evaluated, rfl⟩

/-- A guard that does not stop a run has found its test true. -/
theorem execute_guardClause
    {fuel : Nat} {scope : Scope} {label : Option String} {test message : Expression}
    {machine after : Machine} {completion : Completion}
    (outcome : execute fuel scope label (guardClause test message) machine =
      .ok completion after) :
    completion = .finished ∧
      ∃ less value,
        evaluate less scope test machine = .ok value after ∧ value.isTruthy = true := by
  cases fuel with
  | zero => cases outcome
  | succ fuel =>
      rw [guardClause, execute_branch] at outcome
      obtain ⟨chosen, between, tested, outcome⟩ := Action.bind_eq_ok.mp outcome
      cases fuel with
      | zero => cases tested
      | succ fuel =>
          obtain ⟨value, evaluated, opposite⟩ := evaluate_not tested
          split at outcome
          · exact (execute_raise_block outcome).elim
          case isFalse holds =>
            cases outcome
            refine ⟨rfl, fuel, value, evaluated, ?_⟩
            cases truthy : value.isTruthy with
            | true => rfl
            | false =>
                rw [truthy] at opposite
                exact (holds opposite).elim

section

variable {site : Site} {fuel : Nat} {address : FrameAddress} {home : Scope} {parameter : String}
  {value : Value}

/-- Guards that are run in a frame out of sight find their conditions true. -/
theorem holding_of_inTurn {rest : List Statement} {after : Machine} {completion : Completion} :
    {found : List Condition} → {machine : Machine} →
      (∀ condition ∈ found, condition.isPlain none true = true) →
        machine.store.Sealed address [(parameter, ⟨value, true⟩)] →
          inTurn (execute fuel (address :: home) none)
              (found.map (Condition.clause site) ++ rest) machine = .ok completion after →
            ∃ between,
              Holding (address :: home) parameter value (found.map Condition.test) machine
                  between ∧
                between.store.Sealed address [(parameter, ⟨value, true⟩)] ∧
                  inTurn (execute fuel (address :: home) none) rest between =
                    .ok completion after
  | [], machine, _, kept, outcome => ⟨machine, .done machine, kept, outcome⟩
  | condition :: more, machine, plain, kept, outcome => by
      rw [List.map_cons, List.cons_append, inTurn] at outcome
      obtain ⟨first, between, guarded, outcome⟩ := Action.bind_eq_ok.mp outcome
      obtain ⟨rfl, less, truth, evaluated, truthy⟩ := execute_guardClause guarded
      have testPlain := plain condition List.mem_cons_self
      rw [Condition.isPlain, Bool.and_eq_true] at testPlain
      have still : between.store.Sealed address [(parameter, ⟨value, true⟩)] :=
        (calmOfSealed address _).upholds_evaluate less (address :: home) condition.test
          testPlain.1 machine truth between kept evaluated
      obtain ⟨final, holding, keptFinally, returned⟩ := holding_of_inTurn
        (fun other member => plain other (List.mem_cons_of_mem _ member)) still outcome
      exact ⟨final, .next (lookup?_of_sealed kept) evaluated truthy holding, keptFinally, returned⟩

end

/-! ## Calls of checkers -/

/-- Statements without function declarations need no preparation. -/
theorem hoist_of_noDeclarations
    {scope : Scope} {machine : Machine} : {statements : List Statement} →
      (∀ function, Statement.declare function ∉ statements) →
        hoist scope statements machine = .ok () machine
  | [], _ => rfl
  | statement :: rest, absent => by
      have here : ∀ function, statement ≠ .declare function :=
        fun function equal => absent function (equal ▸ List.mem_cons_self)
      have others : hoist scope rest machine = .ok () machine :=
        hoist_of_noDeclarations fun function member =>
          absent function (List.mem_cons_of_mem statement member)
      unfold hoist at others ⊢
      rw [List.forM]
      refine (@Action.bind_of_ok Unit Unit _ _ machine machine () ?_).trans others
      cases statement with
      | declare function => exact (here function rfl).elim
      | _ => rfl

/-- A checker checks some conditions that are plain. -/
def Checker.Checks (checker : Checker) (found : List Condition) : Prop :=
  (∃ site, checker.guards = found.map (Condition.clause site)) ∧
    ∀ condition ∈ found, condition.isPlain none true = true

/-- A checker is called with its parameter bound to the argument. -/
theorem callFrame_checker
    (checker : Checker) (parameter : String) (receiver : Value) (arguments : List Value) :
    callFrame (checker.function parameter) receiver arguments =
      [(parameter, ⟨arguments.headD .undefined, true⟩)] := by
  cases arguments <;> rfl

/-- A call of a checker that has a result gives the argument back after the check. -/
theorem checked_of_call
    {checker : Checker} {found : List Condition} (checks : checker.Checks found)
    {parameter : String} {home : Scope} {fuel : Nat} {address : ClosureAddress}
    {receiver result : Value} {arguments : List Value} {machine after : Machine}
    (wellScoped : machine.store.WellScoped)
    (closure : machine.store.closure? address = some ⟨checker.function parameter, home⟩)
    (outcome : call fuel (.closure address) receiver arguments machine = .ok result after) :
    result = arguments.headD .undefined ∧
      Checked parameter home (found.map Condition.test) (arguments.headD .undefined) machine
        after := by
  obtain ⟨⟨site, guards⟩, plain⟩ := checks
  cases fuel with
  | zero => cases outcome
  | succ fuel =>
      rw [call_closure_of_some closure, enterClosure_eq_ok] at outcome
      obtain ⟨_, _, final, ran, rfl⟩ := outcome
      rw [callFrame_checker] at ran
      simp only [Checker.function, runBody] at ran
      obtain ⟨completion, between, executed, finished⟩ := Action.bind_eq_ok.mp ran
      cases finished
      cases fuel with
      | zero => cases executed
      | succ fuel =>
          have bare : ∀ function, Statement.declare function ∉
              checker.guards ++ [.giveBack (some (.identifier parameter))] := by
            intro function member
            rw [guards] at member
            simp [Condition.clause, guardClause] at member
          rw [executeAll, Action.bind_of_ok (hoist_of_noDeclarations bare), guards] at executed
          obtain ⟨checked, holding, kept, returned⟩ := holding_of_inTurn plain
            (wellScoped.sealed [(parameter, ⟨arguments.headD .undefined, true⟩)]) executed
          rw [inTurn] at returned
          obtain ⟨given, last, read, returned⟩ := Action.bind_eq_ok.mp returned
          cases fuel with
          | zero => cases read
          | succ fuel =>
              rw [execute] at read
              obtain ⟨value, same, looked, given⟩ := Action.bind_eq_ok.mp read
              cases fuel with
              | zero => cases looked
              | succ fuel =>
                  rw [evaluate, Action.check, Store.read, lookup?_of_sealed kept] at looked
                  cases looked
                  cases given
                  cases returned
                  exact ⟨rfl, _, holding, rfl⟩

end Covenant.Contract
