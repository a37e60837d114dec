import Covenant.Proofs.Checking
import Covenant.Proofs.Mirror
import Covenant.Proofs.Woven

/-!
# What checks leave alone

A statement that only checks something, and that lets the run go on, leaves the
machine as it was but for cells that the other program does not know of: the
values of conditions, the frames of checkers, and the names of checkers and of
captured values.
-/

namespace Covenant.Machine

open Contract

/-- A machine has changed by nothing that the other program knows of. -/
structure Unseen (code : Correspondence) (before after : Machine) : Prop where
  store : before.store.Grows code after.store
  output : after.output = before.output
  depth : after.depth = before.depth
  depthLimit : after.depthLimit = before.depthLimit

variable {code : Correspondence}

theorem Unseen.refl (machine : Machine) : Unseen code machine machine :=
  ⟨.refl _, rfl, rfl, rfl⟩

theorem Unseen.trans
    {before between after : Machine}
    (first : Unseen code before between) (second : Unseen code between after) :
    Unseen code before after :=
  ⟨first.store.trans second.store, second.output.trans first.output,
    second.depth.trans first.depth, second.depthLimit.trans first.depthLimit⟩

/-- A change of the first machine that is not seen leaves machines corresponding. -/
theorem Corresponds.unseen
    {pairing : Pairing} {left right after : Machine}
    (corresponds : Corresponds code pairing left right) (unseen : Unseen code left after) :
    Corresponds code pairing after right :=
  ⟨corresponds.store.grows unseen.store, unseen.output.trans corresponds.output,
    unseen.depth.trans corresponds.depth, unseen.depthLimit.trans corresponds.depthLimit⟩

/-! ## Expressions without calls -/

/-- What is not seen and leaves the frames alone is not disturbed by new cells. -/
def calmOfUnseen (code : Correspondence) (start : Machine) : Calm false where
  holds machine :=
    Unseen code start machine ∧ machine.store.frames = start.store.frames
  array elements held :=
    ⟨held.1.trans ⟨Store.grows_addArray _ elements, rfl, rfl, rfl⟩, held.2⟩
  object object held :=
    ⟨held.1.trans ⟨Store.grows_addObject _ object, rfl, rfl, rfl⟩, held.2⟩
  call _ _ _ _ allowed := nomatch allowed
  construct _ _ _ _ allowed := nomatch allowed

/-- Evaluating a plain expression without calls is not seen. -/
theorem unseen_evaluate
    {expression : Expression} (plain : expression.isPlain none false = true)
    {fuel : Nat} {scope : Scope} {machine after : Machine} {result : Value}
    (outcome : evaluate fuel scope expression machine = .ok result after) :
    Unseen code machine after ∧ after.store.frames = machine.store.frames :=
  (calmOfUnseen code machine).upholds_evaluate fuel scope expression plain machine result after
    ⟨.refl machine, rfl⟩ outcome

/-! ## Guards -/

/-- A plain guard that lets the run go on is not seen. -/
theorem unseen_guard
    {guard : Statement} (plain : IsPlainGuard false guard)
    {fuel : Nat} {scope : Scope} {label : Option String} {machine after : Machine}
    {completion : Completion}
    (outcome : execute fuel scope label guard machine = .ok completion after) :
    completion = .finished ∧
      Unseen code machine after ∧ after.store.frames = machine.store.frames := by
  obtain ⟨test, message, rfl, testPlain, _⟩ := plain
  obtain ⟨finished, less, value, evaluated, _⟩ := execute_guardClause outcome
  exact ⟨finished, unseen_evaluate testPlain evaluated⟩

/-- Plain guards before other statements let these begin, and are not seen. -/
theorem unseen_guards
    {rest : List Statement} {fuel : Nat} {scope : Scope} {after : Machine}
    {completion : Completion} {guards : List Statement}
    (plain : ∀ guard ∈ guards, IsPlainGuard false guard) {machine : Machine}
    (outcome : inTurn (execute fuel scope none) (guards ++ rest) machine =
      .ok completion after) :
    ∃ between,
      Unseen code machine between ∧ between.store.frames = machine.store.frames ∧
        inTurn (execute fuel scope none) rest between = .ok completion after := by
  induction guards generalizing machine with
  | nil => exact ⟨machine, .refl machine, rfl, outcome⟩
  | cons guard more inductionHypothesis =>
      rw [List.cons_append, inTurn] at outcome
      obtain ⟨first, between, guarded, outcome⟩ := Action.bind_eq_ok.mp outcome
      obtain ⟨rfl, unseen, frames⟩ := unseen_guard (plain guard List.mem_cons_self) guarded
      obtain ⟨final, others, framesFinally, reached⟩ := inductionHypothesis
        (fun other member => plain other (List.mem_cons_of_mem _ member)) outcome
      exact ⟨final, unseen.trans others, framesFinally.trans frames, reached⟩

/-! ## Checkers -/

/-- A call that begins and one that ends are not seen. -/
theorem unseen_beginCall (machine : Machine) (frame : Frame) {final : Machine}
    (unseen : Unseen code (machine.beginCall frame) final) :
    Unseen code machine final.endCall where
  store := (Store.grows_addFrame machine.store frame).trans unseen.store
  output := unseen.output
  depth := by
    change final.depth - 1 = machine.depth
    rw [unseen.depth]
    exact Nat.add_sub_cancel machine.depth 1
  depthLimit := unseen.depthLimit

/-- Guards declare no functions. -/
theorem noDeclarations_of_guards
    {guards : List Statement} {calls : Bool}
    (plain : ∀ guard ∈ guards, IsPlainGuard calls guard) (argument : Option Expression)
    (function : Function) : Statement.declare function ∉ guards ++ [.giveBack argument] := by
  intro member
  rcases List.mem_append.mp member with among | last
  · obtain ⟨test, message, equal, _⟩ := plain _ among
    cases equal
  · cases List.mem_singleton.mp last

theorem frame_of_sameFrames
    {before after : Store} (same : after.frames = before.frames) (address : FrameAddress) :
    after.frame address = before.frame address := by
  rw [Store.frame, Store.frame, same]

/-- A call of a function that is known to be transparent gives its argument back, unseen. -/
theorem unseen_call
    {callee : Value} {machine : Machine} (transparent : machine.store.Transparent callee)
    {fuel : Nat} {receiver result : Value} {arguments : List Value} {after : Machine}
    (outcome : call fuel callee receiver arguments machine = .ok result after) :
    result = arguments.headD .undefined ∧ Unseen code machine after := by
  obtain ⟨address, closure, checker, parameter, rfl, found, same, plain⟩ := transparent
  cases fuel with
  | zero => cases outcome
  | succ fuel =>
      rw [call_closure_of_some found, enterClosure_eq_ok] at outcome
      obtain ⟨_, _, final, ran, rfl⟩ := outcome
      rw [same, callFrame_checker] at ran
      simp only [Checker.function, runBody] at ran
      obtain ⟨completion, between, executed, finished⟩ := Action.bind_eq_ok.mp ran
      cases finished
      cases fuel with
      | zero => cases executed
      | succ fuel =>
          have bare := noDeclarations_of_guards plain (some (.identifier parameter))
          rw [executeAll, Action.bind_of_ok (hoist_of_noDeclarations bare)] at executed
          obtain ⟨checked, unseen, frames, returned⟩ :=
            @unseen_guards code _ _ _ _ _ _ plain _ executed
          rw [inTurn] at returned
          obtain ⟨given, last, read, returned⟩ := Action.bind_eq_ok.mp returned
          cases fuel with
          | zero => cases read
          | succ fuel =>
              rw [execute] at read
              obtain ⟨value, same, looked, given⟩ := Action.bind_eq_ok.mp read
              cases fuel with
              | zero => cases looked
              | succ fuel =>
                  have bound : checked.store.lookup?
                      (⟨machine.store.frames.size⟩ :: closure.scope) parameter =
                      some (arguments.headD .undefined) := by
                    rw [Store.lookup?, Store.nearest?, frame_of_sameFrames frames, beginCall,
                      Store.frame_addFrame]
                    simp
                  rw [evaluate, Action.check, Store.read, bound] at looked
                  cases looked
                  cases given
                  cases returned
                  exact ⟨rfl, unseen_beginCall machine _ unseen⟩

/-- A call of a checker by its name. -/
theorem evaluate_checkerCall
    {checker : Checker} {argument : Option Expression} {fuel : Nat} {scope : Scope}
    {machine after : Machine} {result : Value}
    (outcome : evaluate fuel scope (checker.call argument) machine = .ok result after) :
    ∃ less callee values between,
      less < fuel ∧ machine.store.lookup? scope checker.name = some callee ∧
        argument.toList.mapM (evaluate less scope) machine = .ok values between ∧
          call less callee .undefined values between = .ok result after := by
  cases fuel with
  | zero => cases outcome
  | succ fuel =>
      rw [Checker.call, evaluate] at outcome
      obtain ⟨⟨callee, receiver⟩, middle, denoted, followed⟩ := Action.bind_eq_ok.mp outcome
      obtain ⟨values, between, arguments, called⟩ := Action.bind_eq_ok.mp followed
      obtain ⟨function, same, read, paired⟩ := Action.bind_eq_ok.mp denoted
      cases paired
      cases fuel with
      | zero => cases read
      | succ fuel =>
          rw [evaluate, Action.check, Store.read] at read
          cases found : machine.store.lookup? scope checker.name with
          | none =>
              rw [found] at read
              cases read
          | some value =>
              rw [found] at read
              cases read
              cases callable : callee.isCallable with
              | true =>
                  simp only [callable, if_true] at called
                  exact ⟨fuel + 1, callee, values, between, Nat.lt_succ_self _, rfl, arguments,
                    called⟩
              | false =>
                  simp only [callable, Bool.false_eq_true, if_false] at called
                  cases called

/-- Making the function of a checker is not seen, and the function is transparent. -/
theorem unseen_lambda
    {checker : Checker} (plain : ∀ guard ∈ checker.guards, IsPlainGuard false guard)
    {parameter : String} {fuel : Nat} {scope : Scope} {machine after : Machine} {result : Value}
    (outcome : evaluate fuel scope (.lambda (checker.function parameter)) machine =
      .ok result after) :
    Unseen code machine after ∧ after.store.Transparent result := by
  cases fuel with
  | zero => cases outcome
  | succ fuel =>
      rw [evaluate] at outcome
      cases outcome
      refine ⟨⟨Store.grows_addClosure _ _, rfl, rfl, rfl⟩, ?_⟩
      exact ⟨_, _, checker, parameter, rfl, Store.closure?_addClosure _ _, rfl, plain⟩

/-- Evaluation keeps the closures that there are. -/
theorem keepsClosures_evaluate
    {fuel : Nat} {scope : Scope} {expression : Expression} {machine after : Machine}
    {result : Value} (outcome : evaluate fuel scope expression machine = .ok result after) :
    machine.store.KeepsClosures after.store :=
  ((preserves (steadiness (fun _ => False) machine.store) fuel).evaluate scope expression machine
    result after (.refl _) trivial outcome).1.closures

/-! ## Silent statements -/

/-- Declaring a name that only the first program knows is not seen. -/
theorem unseen_declare
    {name : String} (hidden : ¬ code.visible name) {binding : Binding} {machine after : Machine}
    (fits : code.checker name → machine.store.Transparent binding.value) {scope : Scope}
    (outcome : declare scope name binding machine = .ok () after) :
    Unseen code machine after := by
  cases outcome
  refine ⟨?_, rfl, rfl, rfl⟩
  cases scope with
  | nil => exact .refl _
  | cons address outer => exact Store.grows_putBinding _ hidden fits

/-- A declaration of one constant evaluates its value and binds it. -/
theorem execute_constant
    {name : String} {init : Expression} {fuel : Nat} {scope : Scope} {label : Option String}
    {machine after : Machine} {completion : Completion}
    (outcome : execute fuel scope label (.bindings .constant [⟨name, some init⟩]) machine =
      .ok completion after) :
    completion = .finished ∧
      ∃ less value between,
        evaluate less scope init machine = .ok value between ∧
          declare scope name ⟨value, false⟩ between = .ok () after := by
  cases fuel with
  | zero => cases outcome
  | succ fuel =>
      rw [execute, declareVariables, List.forM, List.forM] at outcome
      obtain ⟨_, final, declared, finished⟩ := Action.bind_eq_ok.mp outcome
      obtain ⟨_, last, bound, done⟩ := Action.bind_eq_ok.mp declared
      obtain ⟨value, between, evaluated, bound⟩ := Action.bind_eq_ok.mp bound
      cases finished
      cases done
      exact ⟨rfl, fuel, value, between, evaluated, bound⟩

section

variable {pairing : Pairing} {left right : Machine}
  (corresponds : Corresponds code pairing left right)
  {scope corresponding : Scope} (scopes : pairing.RelatesScope scope corresponding)

include corresponds scopes

/-- The name of a checker means a function that gives its argument back. -/
theorem transparent_of_lookup?
    {name : String} (checker : code.checker name) {value : Value}
    (found : left.store.lookup? scope name = some value) : left.store.Transparent value := by
  rw [Store.lookup?, Option.map_eq_some_iff] at found
  obtain ⟨⟨address, binding⟩, nearest, rfl⟩ := found
  obtain ⟨among, bound⟩ := Store.nearest?_eq_some nearest
  obtain ⟨other, paired⟩ : ∃ other, (address, other) ∈ pairing.frames := by
    clear nearest
    induction scopes with
    | nil => cases among
    | @cons first second _ _ paired _ inductionHypothesis =>
        rcases List.mem_cons.mp among with rfl | later
        · exact ⟨second, paired⟩
        · exact inductionHypothesis later
  exact corresponds.store.checkers _ paired name binding checker bound

/-- A bare call of a checker is not seen. -/
theorem unseen_check
    {checker : Checker} (named : code.checker checker.name) {fuel : Nat}
    {label : Option String} {after : Machine} {completion : Completion}
    (outcome : execute fuel scope label checker.check left = .ok completion after) :
    completion = .finished ∧ Unseen code left after := by
  cases fuel with
  | zero => cases outcome
  | succ fuel =>
      rw [Checker.check, execute] at outcome
      obtain ⟨_, final, discarded, finished⟩ := Action.bind_eq_ok.mp outcome
      obtain ⟨value, last, evaluated, dropped⟩ := Action.bind_eq_ok.mp discarded
      cases dropped
      cases finished
      obtain ⟨less, callee, values, between, _, found, arguments, called⟩ :=
        evaluate_checkerCall evaluated
      cases arguments
      exact ⟨rfl, (unseen_call (transparent_of_lookup? corresponds scopes named found) called).2⟩

/-- A call of a checker gives the value of its argument back, unseen. -/
theorem unseen_evaluate_checkerCall
    {checker : Checker} (named : code.checker checker.name) {argument : Expression}
    {fuel : Nat} {after : Machine} {result : Value}
    (outcome : evaluate fuel scope (checker.call (some argument)) left = .ok result after) :
    ∃ less between,
      less < fuel ∧ evaluate less scope argument left = .ok result between ∧
        Unseen code between after := by
  obtain ⟨less, callee, values, between, smaller, found, arguments, called⟩ :=
    evaluate_checkerCall outcome
  rw [Option.toList_some, List.mapM_cons, List.mapM_nil] at arguments
  obtain ⟨value, final, evaluated, listed⟩ := Action.bind_eq_ok.mp arguments
  cases listed
  have transparent := (transparent_of_lookup? corresponds scopes named found).mono
    (keepsClosures_evaluate evaluated)
  obtain ⟨rfl, unseen⟩ := @unseen_call code _ _ transparent _ _ _ _ _ called
  exact ⟨less, between, smaller, evaluated, unseen⟩

/-- A silent statement that lets the run go on is not seen. -/
theorem unseen_silent
    {statement : Statement} (silent : Woven.Silent code statement) {fuel : Nat}
    {label : Option String} {after : Machine} {completion : Completion}
    (outcome : execute fuel scope label statement left = .ok completion after) :
    completion = .finished ∧ Unseen code left after := by
  cases silent with
  | guard plain =>
      obtain ⟨finished, unseen, _⟩ := unseen_guard plain outcome
      exact ⟨finished, unseen⟩
  | check named => exact unseen_check corresponds scopes named outcome
  | declaration parameter named guards =>
      obtain ⟨finished, less, value, between, evaluated, bound⟩ := execute_constant outcome
      obtain ⟨unseen, transparent⟩ := unseen_lambda guards evaluated
      exact ⟨finished, unseen.trans (unseen_declare (code.apart named) (fun _ => transparent) bound)⟩
  | constant hidden apart plain =>
      obtain ⟨finished, less, value, between, evaluated, bound⟩ := execute_constant outcome
      have unseen := (@unseen_evaluate code _ plain _ _ _ _ _ evaluated).1
      exact ⟨finished, unseen.trans (unseen_declare hidden (fun checker => (apart checker).elim) bound)⟩

end

end Covenant.Machine
