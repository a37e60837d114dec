import Covenant.Proofs.Discipline
import Covenant.Proofs.Performance

/-!
# How a task goes on

A task performs its parts, one after the other, and changes the store itself
in between: it makes closures, declares names, assigns to names that are bound,
or writes to cells that are no frames.  A trace lists the parts in the order
in which they are performed, whichever way each of them ends, and every task
has one.  What holds of a run can therefore be shown by going along its traces,
without another look at how expressions and statements are evaluated.
-/

namespace Covenant

/-- The name under which the body of a function expression sees the function itself. -/
def Function.selfName? (function : Function) : Option String :=
  if function.isArrow then none else function.name

end Covenant

namespace Covenant.Machine

/-! ## Where an action ends -/

namespace Action

variable {α β : Type} {first : Action α} {next : α → Action β} {machine after : Machine}

/-- The machine that an action leaves behind, whichever way it ends. -/
def leaves (action : Action α) (machine : Machine) : Machine :=
  match action machine with
  | .ok _ after | .error _ after => after

theorem leaves_of_ok {result : α} (outcome : first machine = .ok result after) :
    first.leaves machine = after := by
  rw [leaves, outcome]

theorem leaves_of_error {stop : Stop} (outcome : first machine = .error stop after) :
    first.leaves machine = after := by
  rw [leaves, outcome]

theorem leaves_congr {second : Action α} (same : first machine = second machine) :
    first.leaves machine = second.leaves machine := by
  rw [leaves, leaves, same]

theorem leaves_bind_of_ok {result : α} (outcome : first machine = .ok result after) :
    (first >>= next).leaves machine = (next result).leaves after := by
  rw [leaves, bind_of_ok outcome, leaves]

theorem leaves_bind_of_error {stop : Stop} (outcome : first machine = .error stop after) :
    (first >>= next).leaves machine = after :=
  leaves_of_error (bind_of_error outcome)

/-- A nested action that is performed at all leaves what its body leaves. -/
theorem leaves_nested {body : Action α} (shallow : machine.depth < machine.depthLimit) :
    (nested body).leaves machine =
      (body.leaves { machine with depth := machine.depth + 1 }).endCall := by
  unfold leaves nested
  rw [if_neg (Nat.not_le.mpr shallow)]
  cases body { machine with depth := machine.depth + 1 } <;> rfl

/-- At the limit a nested action is not performed. -/
theorem leaves_nested_of_deep {body : Action α} (deep : ¬ machine.depth < machine.depthLimit) :
    (nested body).leaves machine = machine := by
  unfold leaves nested
  rw [if_pos (Nat.not_lt.mp deep)]

end Action

/-! ## What a task changes itself -/

/-- The closures that a task makes itself, where it starts with a number of frames. -/
inductive Task.Makes (count : Nat) : Task → Scope → Function → Prop where
  /-- A function expression without a name of its own. -/
  | lambda {scope : Scope} {function : Function} :
      function.selfName? = none → Makes count (.evaluate scope (.lambda function)) scope function
  /-- A function expression that sees itself, in a frame of its own. -/
  | named {scope : Scope} {function : Function} {name : String} :
      function.selfName? = some name →
        Makes count (.evaluate scope (.lambda function)) (⟨count⟩ :: scope) function
  /-- A function that is declared among statements. -/
  | hoisted {scope : Scope} {statements : List Statement} {function : Function} :
      .declare function ∈ statements → Makes count (.executeAll scope statements) scope function

/-- The names that a task declares itself, each in the innermost frame of a scope. -/
inductive Task.Declares (count : Nat) : Task → Scope → String → Prop where
  /-- The name of a function expression. -/
  | named {scope : Scope} {function : Function} {name : String} :
      function.selfName? = some name →
        Declares count (.evaluate scope (.lambda function)) (⟨count⟩ :: scope) name
  /-- The name of a function that is declared among statements. -/
  | hoisted {scope : Scope} {statements : List Statement} {function : Function} {name : String} :
      .declare function ∈ statements → function.name = some name →
        Declares count (.executeAll scope statements) scope name
  /-- A variable. -/
  | variable {scope : Scope} {label : Option String} {kind : DeclarationKind}
      {declarators : List Declarator} {name : String} :
      name ∈ namesOfDeclarators declarators →
        Declares count (.execute scope label (.bindings kind declarators)) scope name
  /-- A variable of a loop, in a frame of the loop. -/
  | loopVariable {scope : Scope} {label : Option String} {kind : DeclarationKind}
      {declarators : List Declarator} {test step : Option Expression} {body : Statement}
      {name : String} :
      name ∈ namesOfDeclarators declarators →
        Declares count
          (.execute scope label (.forLoop (some (.bindings kind declarators)) test step body))
          (⟨count⟩ :: scope) name

/-- A change that a task makes itself. -/
inductive Change (task : Task) (count : Nat) : Store → Store → Prop where
  /-- Neither frames nor closures are touched. -/
  | cells {store other : Store} :
      other.frames = store.frames → other.closures = store.closures →
        Change task count store other
  | makes {store : Store} {scope : Scope} {function : Function} :
      task.Makes count scope function →
        Change task count store (store.addClosure ⟨function, scope⟩).2
  | declares {store : Store} {scope : Scope} {name : String} (binding : Binding) :
      task.Declares count scope name → Change task count store (store.declare scope name binding)
  | assigns {store other : Store} {scope : Scope} {name : String} {value : Value} :
      store.assign scope name value = .ok other → Change task count store other

/--
The machine in which a task begins with its parts: where it has a frame of its
own, it has entered the frame.
-/
def Task.entry (task : Task) (machine : Machine) : Machine :=
  match task with
  | .evaluate _ (.lambda function) =>
    if function.selfName?.isSome then machine.enterFrame else machine
  | .execute _ _ (.block _) | .execute _ _ (.forLoop _ _ _ _) => machine.enterFrame
  | .call (.closure address) receiver arguments =>
    match machine.store.closure? address with
    | some closure =>
      if unsupportedKind? closure.function = none ∧ machine.depth < machine.depthLimit then
        machine.beginCall (callFrame closure.function receiver arguments)
      else
        machine
    | none => machine
  | _ => machine

/-! ## Traces -/

/--
The parts that a task performs from a machine on, each with the machine in
which it starts, and the machine that is left in the end.
-/
inductive Trace (fuel : Nat) (task : Task) (count : Nat) :
    Machine → List (Task × Machine) → Machine → Prop where
  | done {machine : Machine} : Trace fuel task count machine [] machine
  | change {machine changed final : Machine} {steps : List (Task × Machine)} :
      Change task count machine.store changed.store → Trace fuel task count changed steps final →
        Trace fuel task count machine steps final
  | part {machine final : Machine} {next : Task} {steps : List (Task × Machine)} :
      Trace fuel task count ((next.perform fuel).leaves machine) steps final →
        Trace fuel task count machine ((next, machine) :: steps) final

theorem Trace.append {fuel count : Nat} {task : Task} {machine between final : Machine}
    {steps others : List (Task × Machine)} (first : Trace fuel task count machine steps between)
    (second : Trace fuel task count between others final) :
    Trace fuel task count machine (steps ++ others) final := by
  induction first with
  | done => exact second
  | change changed _ induction => exact .change changed (induction second)
  | part _ induction => exact .part (induction second)

/-- The end of a call changes no cell. -/
theorem Trace.endCall {fuel count : Nat} {task : Task} {machine final : Machine}
    {steps : List (Task × Machine)} (trace : Trace fuel task count machine steps final) :
    Trace fuel task count machine steps final.endCall := by
  rw [← List.append_nil steps]
  refine trace.append (.change ?_ .done)
  exact .cells rfl rfl

/-- An action is part of how a task goes on, and some tasks are the parts that it performs. -/
def Proceeds (fuel : Nat) (task : Task) (count : Nat) {α : Type} (action : Action α)
    (machine : Machine) (parts : Task → Machine → Prop) : Prop :=
  ∃ steps, Trace fuel task count machine steps (action.leaves machine) ∧
    ∀ next start, (next, start) ∈ steps ↔ parts next start

namespace Proceeds

variable {fuel count : Nat} {task : Task} {α β : Type} {action : Action α} {machine : Machine}
  {parts others : Task → Machine → Prop}

theorem congr (proceeds : Proceeds fuel task count action machine parts)
    (same : ∀ next start, parts next start ↔ others next start) :
    Proceeds fuel task count action machine others := by
  rcases proceeds with ⟨steps, trace, exact⟩
  exact ⟨steps, trace, fun next start => (exact next start).trans (same next start)⟩

/-- A change of the task's own is no part of it. -/
theorem own (change : Change task count machine.store (action.leaves machine).store) :
    Proceeds fuel task count action machine fun _ _ => False :=
  ⟨[], .change change .done, fun _ _ => List.mem_nil_iff _⟩

/-- What touches neither frames nor closures is no part of a task. -/
theorem quiet (frames : (action.leaves machine).store.frames = machine.store.frames)
    (closures : (action.leaves machine).store.closures = machine.store.closures) :
    Proceeds fuel task count action machine fun _ _ => False :=
  own (.cells frames closures)

theorem pure (result : α) :
    Proceeds fuel task count (Pure.pure result : Action α) machine fun _ _ => False :=
  quiet rfl rfl

theorem throw (stop : Stop) :
    Proceeds fuel task count (MonadExcept.throw stop : Action α) machine fun _ _ => False :=
  quiet rfl rfl

theorem query (look : Store → α) :
    Proceeds fuel task count (Action.query look) machine fun _ _ => False :=
  quiet rfl rfl

theorem check (look : Store → Except Fault α) :
    Proceeds fuel task count (Action.check look) machine fun _ _ => False := by
  have same : (Action.check look).leaves machine = machine := by
    unfold Action.leaves Action.check
    cases look machine.store <;> rfl
  exact quiet (by rw [same]) (by rw [same])

theorem writeLine (line : String) :
    Proceeds fuel task count (Action.writeLine line) machine fun _ _ => False :=
  quiet rfl rfl

theorem allocate_cells {add : Store → α × Store}
    (frames : ∀ store, (add store).2.frames = store.frames)
    (closures : ∀ store, (add store).2.closures = store.closures) :
    Proceeds fuel task count (Action.allocate add) machine fun _ _ => False :=
  quiet (frames machine.store) (closures machine.store)

/-- A task that is performed is the one part that there is. -/
theorem performed (next : Task) :
    Proceeds fuel task count (next.perform fuel) machine fun part start =>
      part = next ∧ start = machine :=
  ⟨[(next, machine)], .part .done, fun part start => by simp⟩

theorem bind {next : α → Action β} {rest : α → Machine → Task → Machine → Prop}
    (first : Proceeds fuel task count action machine parts)
    (second : ∀ value between, action machine = .ok value between →
      Proceeds fuel task count (next value) between (rest value between)) :
    Proceeds fuel task count (action >>= next) machine fun part start =>
      parts part start ∨
        ∃ value between, action machine = .ok value between ∧ rest value between part start := by
  rcases first with ⟨steps, trace, exactly⟩
  cases outcome : action machine with
  | ok value between =>
      rcases second value between outcome with ⟨further, goesOn, exactlyThen⟩
      rw [Action.leaves_of_ok outcome] at trace
      refine ⟨steps ++ further, ?_, fun part start => ?_⟩
      · rw [Action.leaves_bind_of_ok outcome]
        exact trace.append goesOn
      · rw [List.mem_append, exactly, exactlyThen]
        constructor
        · rintro (here | later)
          · exact .inl here
          · exact .inr ⟨value, between, rfl, later⟩
        · rintro (here | ⟨_, _, same, later⟩)
          · exact .inl here
          · cases same
            exact .inr later
  | error stop after =>
      rw [Action.leaves_of_error outcome] at trace
      refine ⟨steps, ?_, fun part start => ?_⟩
      · rw [Action.leaves_bind_of_error outcome]
        exact trace
      · simp [exactly]

/-- What follows without parts of its own adds none. -/
theorem bind_quiet {next : α → Action β}
    (first : Proceeds fuel task count action machine parts)
    (second : ∀ value between, action machine = .ok value between →
      Proceeds fuel task count (next value) between fun _ _ => False) :
    Proceeds fuel task count (action >>= next) machine parts :=
  (first.bind second).congr fun _ _ => by simp

/-- What only looks at the machine comes before the parts. -/
theorem look_bind {next : α → Action β} {value : α}
    (outcome : action machine = .ok value machine)
    (second : Proceeds fuel task count (next value) machine parts) :
    Proceeds fuel task count (action >>= next) machine parts := by
  rcases second with ⟨steps, trace, exactly⟩
  refine ⟨steps, ?_, exactly⟩
  rw [Action.leaves_bind_of_ok outcome]
  exact trace

theorem forM_quiet {action : α → Action Unit} :
    (values : List α) →
      (∀ value ∈ values, ∀ machine,
        Proceeds fuel task count (action value) machine fun _ _ => False) →
        ∀ machine, Proceeds fuel task count (values.forM action) machine fun _ _ => False
  | [], _, _ => .pure _
  | value :: rest, quiet, machine => by
      rw [List.forM]
      refine (quiet value List.mem_cons_self machine).bind_quiet fun _ between _ => ?_
      exact forM_quiet rest (fun other member => quiet other (List.mem_cons_of_mem _ member)) _

end Proceeds

/-! ## Expressions in order -/

/-- The evaluation of expressions, each after those before it. -/
def Evaluates (fuel : Nat) (scope : Scope) (expressions : List Expression) (machine : Machine)
    (part : Task) (start : Machine) : Prop :=
  ∃ expression, part = .evaluate scope expression ∧
    EvaluatedInOrder fuel scope expressions machine expression start

section

variable {fuel count : Nat} {task part : Task} {scope : Scope} {machine start : Machine}

theorem not_evaluates_nil : ¬ Evaluates fuel scope [] machine part start := by
  rintro ⟨_, _, inOrder⟩
  cases inOrder

theorem evaluates_cons {expression : Expression} {rest : List Expression} :
    Evaluates fuel scope (expression :: rest) machine part start ↔
      (part = .evaluate scope expression ∧ start = machine) ∨
        ∃ value between, evaluate fuel scope expression machine = .ok value between ∧
          Evaluates fuel scope rest between part start := by
  constructor
  · rintro ⟨other, rfl, inOrder⟩
    cases inOrder with
    | head => exact .inl ⟨rfl, rfl⟩
    | tail evaluated inOrder => exact .inr ⟨_, _, evaluated, _, rfl, inOrder⟩
  · rintro (⟨rfl, rfl⟩ | ⟨_, _, evaluated, _, rfl, inOrder⟩)
    · exact ⟨_, rfl, .head⟩
    · exact ⟨_, rfl, .tail evaluated inOrder⟩

theorem evaluates_singleton {expression : Expression} :
    Evaluates fuel scope [expression] machine part start ↔
      part = .evaluate scope expression ∧ start = machine := by
  rw [evaluates_cons]
  constructor
  · rintro (here | ⟨_, _, _, none⟩)
    · exact here
    · exact absurd none not_evaluates_nil
  · exact .inl

namespace Proceeds

theorem evaluated (expression : Expression) :
    Proceeds fuel task count (evaluate fuel scope expression) machine
      (Evaluates fuel scope [expression] machine) :=
  (performed (.evaluate scope expression)).congr fun _ _ => evaluates_singleton.symm

/-- What is evaluated behind an expression comes after it. -/
theorem evaluated_bind {β : Type} {expression : Expression} {rest : List Expression}
    {next : Value → Action β}
    (second : ∀ value between, evaluate fuel scope expression machine = .ok value between →
      Proceeds fuel task count (next value) between (Evaluates fuel scope rest between)) :
    Proceeds fuel task count (evaluate fuel scope expression >>= next) machine
      (Evaluates fuel scope (expression :: rest) machine) := by
  refine ((performed (.evaluate scope expression)).bind second).congr fun _ _ => ?_
  exact evaluates_cons.symm

theorem mapM : (expressions : List Expression) → ∀ machine,
    Proceeds fuel task count (expressions.mapM (evaluate fuel scope)) machine
      (Evaluates fuel scope expressions machine)
  | [], _ => (pure _).congr fun _ _ => (iff_false_intro not_evaluates_nil).symm
  | expression :: rest, _ => by
      rw [List.mapM_cons]
      exact evaluated_bind fun _ between _ => (mapM rest between).bind_quiet fun _ _ _ => pure _

theorem lastValue : (expressions : List Expression) → ∀ last machine,
    Proceeds fuel task count (Machine.lastValue (evaluate fuel scope) last expressions) machine
      (Evaluates fuel scope expressions machine)
  | [], _, _ => (pure _).congr fun _ _ => (iff_false_intro not_evaluates_nil).symm
  | _ :: rest, _, _ => evaluated_bind fun value between _ => lastValue rest value between

theorem evaluateProperties (properties : List Property) :
    Proceeds fuel task count (Machine.evaluateProperties (evaluate fuel scope) properties) machine
      (Evaluates fuel scope (properties.map (·.value)) machine) := by
  refine bind_quiet ?_ fun _ _ _ => pure _
  induction properties generalizing machine with
  | nil => exact (pure _).congr fun _ _ => (iff_false_intro not_evaluates_nil).symm
  | cons property rest induction =>
      rw [List.mapM_cons, bind_assoc]
      refine evaluated_bind fun value between _ => ?_
      rw [pure_bind]
      exact induction.bind_quiet fun _ _ _ => pure _

/-- The search for a property evaluates what denotes it. -/
theorem propertyOf? {target : Expression} {found : Action (Value × String)}
    (denotes : Machine.propertyOf? (evaluate fuel scope) target = some found) :
    Proceeds fuel task count found machine
      (Evaluates fuel scope (propertyParts target) machine) := by
  cases target with
  | member object name =>
      cases denotes
      exact (evaluated object).bind_quiet fun _ _ _ => pure _
  | index object key =>
      cases denotes
      refine evaluated_bind fun _ between _ => (evaluated key).bind_quiet fun _ _ _ => ?_
      exact (query _).bind_quiet fun _ _ _ => pure _
  | _ => cases denotes

theorem placeOf (target : Expression) :
    Proceeds fuel task count (Machine.placeOf (evaluate fuel scope) target) machine
      (Evaluates fuel scope (propertyParts target) machine) := by
  cases named : Machine.propertyOf? (evaluate fuel scope) target with
  | some found =>
      cases target with
      | member | index =>
          simp only [Machine.placeOf, named]
          exact (propertyOf? named).bind_quiet fun _ _ _ => pure _
      | _ => cases named
  | none =>
      cases target with
      | member | index => cases named
      | identifier name => exact (pure _).congr fun _ _ => (iff_false_intro not_evaluates_nil).symm
      | _ => exact (throw _).congr fun _ _ => (iff_false_intro not_evaluates_nil).symm

theorem calleeOf (callee : Expression) :
    Proceeds fuel task count (Machine.calleeOf (evaluate fuel scope) callee) machine
      (Evaluates fuel scope (calleeParts callee) machine) := by
  cases named : Machine.propertyOf? (evaluate fuel scope) callee with
  | some found =>
      simp only [Machine.calleeOf, named]
      cases callee with
      | member | index =>
          refine (propertyOf? named).bind_quiet fun _ _ _ => ?_
          exact (check _).bind_quiet fun _ _ _ => pure _
      | _ => cases named
  | none =>
      simp only [Machine.calleeOf, named]
      cases callee with
      | member | index => cases named
      | _ => exact (evaluated _).bind_quiet fun _ _ _ => pure _

theorem readPlace (place : Place) :
    Proceeds fuel task count (Machine.readPlace scope place) machine fun _ _ => False := by
  cases place with
  | binding name =>
      rw [Machine.readPlace]
      exact check _
  | property base key =>
      rw [Machine.readPlace]
      exact check _

/-- A place that is written is bound already, or no binding. -/
theorem writePlace (place : Place) (value : Value) :
    Proceeds fuel task count (Machine.writePlace scope place value) machine fun _ _ => False := by
  cases place with
  | binding name =>
      apply own
      unfold Action.leaves
      simp only [Machine.writePlace, Action.tryUpdate]
      cases assigned : machine.store.assign scope name value with
      | ok store => exact .assigns assigned
      | error fault => exact .cells rfl rfl
  | property base key =>
      apply own
      unfold Action.leaves
      simp only [Machine.writePlace, Action.tryUpdate]
      cases written : machine.store.setProperty base key value with
      | ok store =>
          exact .cells (Store.setProperty_cells written).1 (Store.setProperty_cells written).2
      | error stop => exact .cells rfl rfl

end Proceeds

end

/-! ## Declarations and statements in order -/

/-- The evaluation of the initial values of variables. -/
def EvaluatesInitials (fuel : Nat) (scope : Scope) (kind : DeclarationKind)
    (declarators : List Declarator) (machine : Machine) (part : Task) (start : Machine) : Prop :=
  ∃ expression, part = .evaluate scope expression ∧
    Initializes fuel scope kind declarators machine expression start

/-- The execution of statements, each after those before it have finished. -/
def ExecutesInTurn (fuel : Nat) (scope : Scope) (statements : List Statement) (machine : Machine)
    (part : Task) (start : Machine) : Prop :=
  ∃ before statement rest,
    statements = before ++ statement :: rest ∧ part = .execute scope none statement ∧
      inTurn (execute fuel scope none) before machine = .ok .finished start

section

variable {fuel count : Nat} {task part : Task} {scope : Scope} {machine start : Machine}

theorem evaluatesInitials_cons {kind : DeclarationKind} {declarator : Declarator}
    {rest : List Declarator} :
    EvaluatesInitials fuel scope kind (declarator :: rest) machine part start ↔
      (∃ init, declarator.init = some init ∧ part = .evaluate scope init ∧ start = machine) ∨
        ∃ between,
          declareVariables (evaluate fuel scope) scope kind [declarator] machine =
              .ok () between ∧
            EvaluatesInitials fuel scope kind rest between part start := by
  constructor
  · rintro ⟨init, rfl, before, name, others, equal, declared⟩
    cases before with
    | nil =>
        cases equal
        cases declared
        exact .inl ⟨init, rfl, rfl, rfl⟩
    | cons first before =>
        cases equal
        obtain ⟨_, between, done, declared⟩ := Action.bind_eq_ok.mp declared
        refine .inr ⟨between, ?_, init, rfl, before, name, others, rfl, declared⟩
        exact Action.bind_eq_ok.mpr ⟨_, between, done, rfl⟩
  · rintro (⟨init, given, rfl, rfl⟩ | ⟨between, done, init, rfl, before, name, others, rfl, declared⟩)
    · obtain ⟨name, _⟩ := declarator
      cases given
      exact ⟨init, rfl, [], name, rest, rfl, rfl⟩
    · obtain ⟨_, _, done, ended⟩ := Action.bind_eq_ok.mp done
      cases ended
      refine ⟨init, rfl, declarator :: before, name, others, rfl, ?_⟩
      exact Action.bind_eq_ok.mpr ⟨_, between, done, declared⟩

theorem executesInTurn_cons {statement : Statement} {rest : List Statement} :
    ExecutesInTurn fuel scope (statement :: rest) machine part start ↔
      (part = .execute scope none statement ∧ start = machine) ∨
        ∃ between, execute fuel scope none statement machine = .ok .finished between ∧
          ExecutesInTurn fuel scope rest between part start := by
  constructor
  · rintro ⟨before, other, others, equal, rfl, ended⟩
    cases before with
    | nil =>
        cases equal
        cases ended
        exact .inl ⟨rfl, rfl⟩
    | cons first before =>
        cases equal
        obtain ⟨completion, between, done, ended⟩ := Action.bind_eq_ok.mp ended
        cases completion with
        | finished => exact .inr ⟨between, done, before, other, others, rfl, rfl, ended⟩
        | _ => cases ended
  · rintro (⟨rfl, rfl⟩ | ⟨between, done, before, other, others, rfl, rfl, ended⟩)
    · exact ⟨[], statement, rest, rfl, rfl, rfl⟩
    · refine ⟨statement :: before, other, others, rfl, rfl, ?_⟩
      exact Action.bind_eq_ok.mpr ⟨_, between, done, ended⟩

namespace Proceeds

theorem declare {name : String} (declares : task.Declares count scope name) (binding : Binding) :
    Proceeds fuel task count (Machine.declare scope name binding) machine fun _ _ => False :=
  own (.declares binding declares)

theorem makeClosure {function : Function} (makes : task.Makes count scope function) :
    Proceeds fuel task count (Machine.makeClosure scope function) machine fun _ _ => False :=
  own (.makes makes)

theorem declareVariables {kind : DeclarationKind} : (declarators : List Declarator) →
    (∀ name ∈ namesOfDeclarators declarators, task.Declares count scope name) → ∀ machine,
      Proceeds fuel task count
        (Machine.declareVariables (evaluate fuel scope) scope kind declarators) machine
        (EvaluatesInitials fuel scope kind declarators machine)
  | [], _, _ => (pure _).congr fun _ _ => by simp [EvaluatesInitials, Initializes]
  | declarator :: rest, declares, machine => by
      have declare (value : Value) (between : Machine) : Proceeds fuel task count
          (Machine.declare scope declarator.name ⟨value, kind != .constant⟩) between
            fun _ _ => False :=
        Proceeds.declare (declares _ List.mem_cons_self) _
      have first : Proceeds fuel task count
          (Machine.declareVariables (evaluate fuel scope) scope kind [declarator]) machine
          fun part start => ∃ init, declarator.init = some init ∧
            part = .evaluate scope init ∧ start = machine := by
        obtain ⟨name, init⟩ := declarator
        refine bind_quiet ?_ fun _ _ _ => pure _
        cases init with
        | none =>
            exact ((pure _).bind_quiet fun _ _ _ => declare _ _).congr fun _ _ => by simp
        | some init =>
            refine ((performed (.evaluate scope init)).bind_quiet fun _ _ _ => declare _ _).congr
              fun _ _ => by simp
      have split : Machine.declareVariables (evaluate fuel scope) scope kind (declarator :: rest) =
          Machine.declareVariables (evaluate fuel scope) scope kind [declarator] >>= fun _ =>
            Machine.declareVariables (evaluate fuel scope) scope kind rest := by
        simp [Machine.declareVariables]
      rw [split]
      refine (first.bind fun _ between _ => declareVariables rest
        (fun name member => declares name (List.mem_cons_of_mem _ member)) between).congr
          fun _ _ => ?_
      rw [evaluatesInitials_cons]
      refine or_congr_right ⟨?_, ?_⟩
      · rintro ⟨_, between, given⟩
        exact ⟨between, given⟩
      · rintro ⟨between, given⟩
        exact ⟨(), between, given⟩

/-- The functions that are hoisted are made and declared before anything is executed. -/
theorem hoist (statements : List Statement) :
    Proceeds fuel (.executeAll scope statements) count (Machine.hoist scope statements) machine
      fun _ _ => False := by
  refine forM_quiet statements (fun statement member machine => ?_) machine
  split
  case h_1 function =>
    split
    case h_1 name named =>
      refine (makeClosure (.hoisted member)).bind_quiet fun _ _ _ => ?_
      exact declare (.hoisted member named) _
    case h_2 => exact pure _
  case h_2 => exact pure _

theorem inTurn : (statements : List Statement) → ∀ machine,
    Proceeds fuel task count (Machine.inTurn (execute fuel scope none) statements) machine
      (ExecutesInTurn fuel scope statements machine)
  | [], _ => (pure _).congr fun _ _ => by simp [ExecutesInTurn]
  | statement :: rest, machine => by
      rw [Machine.inTurn]
      let further (completion : Completion) (between : Machine) (part : Task) (start : Machine) :=
        completion = .finished ∧ ExecutesInTurn fuel scope rest between part start
      refine (@bind _ _ _ _ _ _ machine _ _ further (performed (.execute scope none statement))
        fun completion between _ => ?_).congr fun _ _ => ?_
      · cases completion with
        | finished => exact (inTurn rest between).congr fun _ _ => by simp [further]
        | _ => exact (pure _).congr fun _ _ => by simp [further]
      · rw [executesInTurn_cons]
        constructor
        · rintro (here | ⟨_, between, ended, rfl, later⟩)
          · exact .inl here
          · exact .inr ⟨between, ended, later⟩
        · rintro (here | ⟨between, ended, later⟩)
          · exact .inl here
          · exact .inr ⟨_, between, ended, rfl, later⟩

end Proceeds

end

end Covenant.Machine
