import Covenant.Proofs.Evaluation
import Covenant.Proofs.Functions

/-!
# What every run of disciplined code preserves

A discipline is a property of stores together with the code that may run: the
scopes that it runs in, the names that it may declare there, and the functions
that it consists of.  If every primitive change of a store by such code stays
within a discipline, then so does every run of the code: this is shown once, by
induction on fuel, and each invariant of runs is then a discipline of its own.
-/

namespace Covenant.Machine

/-- Code that declares names of a kind only. -/
def declaring (may : String → Prop) : Parts where
  expression _ := True
  function function := ∀ name ∈ function.name, may name
  declared declarators := ∀ name ∈ namesOfDeclarators declarators, may name

/-- A property of stores that all primitive changes by some code preserve. -/
structure Discipline where
  holds : Store → Prop
  /-- Which scopes code may run in, given the number of frames. -/
  scope : Nat → Scope → Prop
  /-- Which names may be declared in the innermost frame of a scope. -/
  may : Scope → String → Prop
  /-- Which functions code may consist of. -/
  code : Function → Prop
  scope_mono {count more : Nat} {scope' : Scope} :
    count ≤ more → scope count scope' → scope more scope'
  scope_enter {store : Store} {scope' : Scope} :
    holds store → scope store.frames.size scope' →
      scope (store.frames.size + 1) (⟨store.frames.size⟩ :: scope')
  may_enter {store : Store} {scope' : Scope} {name : String} :
    holds store → may scope' name → may (⟨store.frames.size⟩ :: scope') name
  may_own {store : Store} {scope' : Scope} {function : Function} {name : String} :
    holds store → code function → function.name = some name →
      may (⟨store.frames.size⟩ :: scope') name
  block {store : Store} {scope' : Scope} {function : Function} {statements : List Statement} :
    holds store → code function → function.body = .block statements →
      ((declaring (may (⟨store.frames.size⟩ :: scope'))).both (.all code)).OnStatements statements
  result {function : Function} {expression : Expression} :
    code function → function.body = .result expression →
      AllFunctions code (expression.nodes false)
  closure {store : Store} {address : ClosureAddress} {closure' : Closure} :
    holds store → store.closure? address = some closure' →
      scope store.frames.size closure'.scope ∧ code closure'.function
  cells {store other : Store} :
    holds store → other.frames = store.frames → other.closures = store.closures → holds other
  enterBlock {store : Store} : holds store → holds (store.addFrame []).2
  enterCall {store : Store} {function : Function} (receiver : Value) (arguments : List Value) :
    holds store → code function →
      holds (store.addFrame (callFrame function receiver arguments)).2
  addClosure {store : Store} {closure' : Closure} :
    holds store → scope store.frames.size closure'.scope → code closure'.function →
      holds (store.addClosure closure').2
  declare {store : Store} {scope' : Scope} {name : String} (binding : Binding) :
    holds store → scope store.frames.size scope' → may scope' name →
      holds (store.declare scope' name binding)
  assign {store other : Store} {scope' : Scope} {name : String} {value : Value} :
    holds store → scope store.frames.size scope' →
      store.assign scope' name value = .ok other → holds other

/-! ## How changes count frames -/

namespace Store

theorem size_putBinding (store : Store) (address : FrameAddress) (name : String) (binding : Binding) :
    (store.putBinding address name binding).frames.size = store.frames.size := by
  simp [putBinding]

theorem size_declare (store : Store) (scope : Scope) (name : String) (binding : Binding) :
    (store.declare scope name binding).frames.size = store.frames.size := by
  cases scope with
  | nil => rfl
  | cons address outer => exact size_putBinding store address name binding

/-- An assignment that succeeds writes to the nearest binding, which it may change. -/
theorem assign_eq_ok
    {store other : Store} {scope : Scope} {name : String} {value : Value} :
    store.assign scope name value = .ok other ↔
      ∃ address binding,
        store.nearest? name scope = some (address, binding) ∧ binding.assignable = true ∧
          other = store.putBinding address name ⟨value, true⟩ := by
  unfold assign
  cases nearest : store.nearest? name scope with
  | none => simp
  | some found =>
      obtain ⟨address, binding⟩ := found
      simp only [Option.some.injEq, Prod.mk.injEq]
      constructor
      · intro outcome
        split at outcome
        case isTrue assignable =>
          cases outcome
          exact ⟨address, binding, ⟨rfl, rfl⟩, assignable, rfl⟩
        case isFalse => cases outcome
      · rintro ⟨_, _, ⟨rfl, rfl⟩, assignable, rfl⟩
        rw [if_pos assignable]

theorem size_assign
    {store other : Store} {scope : Scope} {name : String} {value : Value}
    (outcome : store.assign scope name value = .ok other) :
    other.frames.size = store.frames.size := by
  obtain ⟨address, _, _, _, rfl⟩ := assign_eq_ok.mp outcome
  exact size_putBinding store address name _

/-- Writing a property changes neither frames nor closures. -/
theorem setProperty_cells
    {store other : Store} {base value : Value} {key : String}
    (outcome : store.setProperty base key value = .ok other) :
    other.frames = store.frames ∧ other.closures = store.closures := by
  unfold setProperty at outcome
  split at outcome
  case h_1 write _ =>
    cases outcome
    cases write <;> exact ⟨rfl, rfl⟩
  case h_2 => cases outcome

end Store

namespace Discipline

variable {discipline : Discipline} {α β : Type}

/-- An action that stays within a discipline wherever it is performed. -/
def Kept (discipline : Discipline) (action : Action α) : Prop :=
  ∀ machine result after, discipline.holds machine.store → action machine = .ok result after →
    discipline.holds after.store ∧ machine.store.frames.size ≤ after.store.frames.size

/-- An action that stays within a discipline if code may run in a scope. -/
def Keeps (discipline : Discipline) (scope : Scope) (action : Action α) : Prop :=
  ∀ machine result after, discipline.holds machine.store →
    discipline.scope machine.store.frames.size scope → action machine = .ok result after →
      discipline.holds after.store ∧ machine.store.frames.size ≤ after.store.frames.size

theorem Kept.keeps {action : Action α} (kept : discipline.Kept action) (scope : Scope) :
    discipline.Keeps scope action :=
  fun machine result after holds _ outcome => kept machine result after holds outcome

theorem Kept.bind {first : Action α} {next : α → Action β}
    (kept : discipline.Kept first) (rest : ∀ value, discipline.Kept (next value)) :
    discipline.Kept (first >>= next) := by
  intro machine result after holds outcome
  obtain ⟨value, between, firstOutcome, restOutcome⟩ := Action.bind_eq_ok.mp outcome
  obtain ⟨held, more⟩ := kept machine value between holds firstOutcome
  obtain ⟨final, most⟩ := rest value between result after held restOutcome
  exact ⟨final, Nat.le_trans more most⟩

theorem Keeps.bind {scope : Scope} {first : Action α} {next : α → Action β}
    (keeps : discipline.Keeps scope first) (rest : ∀ value, discipline.Keeps scope (next value)) :
    discipline.Keeps scope (first >>= next) := by
  intro machine result after holds usable outcome
  obtain ⟨value, between, firstOutcome, restOutcome⟩ := Action.bind_eq_ok.mp outcome
  obtain ⟨held, more⟩ := keeps machine value between holds usable firstOutcome
  obtain ⟨final, most⟩ :=
    rest value between result after held (discipline.scope_mono more usable) restOutcome
  exact ⟨final, Nat.le_trans more most⟩

theorem kept_pure (value : α) : discipline.Kept (pure value) := by
  intro machine result after holds outcome
  cases outcome
  exact ⟨holds, Nat.le_refl _⟩

theorem kept_throw (stop : Stop) : discipline.Kept (throw stop : Action α) := by
  intro machine result after holds outcome
  cases outcome

theorem kept_query (look : Store → α) : discipline.Kept (Action.query look) := by
  intro machine result after holds outcome
  cases outcome
  exact ⟨holds, Nat.le_refl _⟩

theorem kept_check (look : Store → Except Fault α) : discipline.Kept (Action.check look) := by
  intro machine result after holds outcome
  unfold Action.check at outcome
  split at outcome
  · cases outcome
    exact ⟨holds, Nat.le_refl _⟩
  · cases outcome

theorem kept_writeLine (line : String) : discipline.Kept (Action.writeLine line) := by
  intro machine result after holds outcome
  cases outcome
  exact ⟨holds, Nat.le_refl _⟩

theorem kept_allocate_cells {add : Store → α × Store}
    (frames : ∀ store, (add store).2.frames = store.frames)
    (closures : ∀ store, (add store).2.closures = store.closures) :
    discipline.Kept (Action.allocate add) := by
  intro machine result after holds outcome
  cases outcome
  exact ⟨discipline.cells holds (frames _) (closures _), Nat.le_of_eq (by rw [frames])⟩

theorem Keeps.nested {scope : Scope} {action : Action α} (keeps : discipline.Keeps scope action) :
    discipline.Keeps scope (Action.nested action) := by
  intro machine result after holds usable outcome
  obtain ⟨_, final, ran, rfl⟩ := Action.nested_eq_ok.mp outcome
  exact keeps { machine with depth := machine.depth + 1 } result final holds usable ran

theorem Keeps.forM {scope : Scope} {action : α → Action Unit} :
    (values : List α) → (∀ value ∈ values, discipline.Keeps scope (action value)) →
      discipline.Keeps scope (values.forM action)
  | [], _ => (kept_pure _).keeps scope
  | value :: rest, keeps => by
      rw [List.forM]
      refine (keeps value List.mem_cons_self).bind fun _ => ?_
      exact forM rest fun other member => keeps other (List.mem_cons_of_mem _ member)

/-! ## Frames and closures -/

/-- What is required of statements that run in a scope. -/
abbrev permits (discipline : Discipline) (scope : Scope) : Parts :=
  (declaring (discipline.may scope)).both (.all discipline.code)

/-- What is permitted in a scope is permitted in a new frame. -/
theorem permits_enter {store : Store} (holds : discipline.holds store) (scope : Scope) :
    (discipline.permits scope).Implies
      (discipline.permits (⟨store.frames.size⟩ :: scope)) where
  expression := id
  function := fun given =>
    ⟨fun name named => discipline.may_enter holds (given.1 name named), given.2⟩
  declared := fun given =>
    ⟨fun name member => discipline.may_enter holds (given.1 name member), given.2⟩

theorem keeps_declare
    {scope : Scope} {name : String} (may : discipline.may scope name) (binding : Binding) :
    discipline.Keeps scope (Machine.declare scope name binding) := by
  intro machine result after holds usable outcome
  cases outcome
  exact ⟨discipline.declare binding holds usable may, Nat.le_of_eq (by rw [Store.size_declare])⟩

theorem keeps_makeClosure {function : Function} (code : discipline.code function)
    (scope : Scope) : discipline.Keeps scope (makeClosure scope function) := by
  intro machine result after holds usable outcome
  cases outcome
  exact ⟨discipline.addClosure holds usable code, Nat.le_refl _⟩

/-- What runs in a new frame runs in a scope that starts with that frame. -/
theorem keeps_enter
    {scope : Scope} {frame : Frame} {next : Scope → Action α}
    (added : ∀ {store : Store}, discipline.holds store →
      discipline.holds (store.addFrame frame).2)
    (rest : ∀ {store : Store}, discipline.holds store →
      discipline.Keeps (⟨store.frames.size⟩ :: scope) (next (⟨store.frames.size⟩ :: scope))) :
    discipline.Keeps scope ((Action.allocate fun store => store.enter frame scope) >>= next) := by
  intro machine result after holds usable outcome
  obtain ⟨inner, between, entered, outcome⟩ := Action.bind_eq_ok.mp outcome
  cases entered
  have size : (machine.store.addFrame frame).2.frames.size = machine.store.frames.size + 1 := by
    simp [Store.addFrame]
  have inside : discipline.scope (machine.store.addFrame frame).2.frames.size
      (⟨machine.store.frames.size⟩ :: scope) := by
    rw [size]
    exact discipline.scope_enter holds usable
  obtain ⟨final, more⟩ := rest holds _ result after (added holds) inside outcome
  refine ⟨final, Nat.le_trans ?_ more⟩
  change machine.store.frames.size ≤ (machine.store.addFrame frame).2.frames.size
  omega

theorem keeps_makeLambda {function : Function} (code : discipline.code function)
    (scope : Scope) : discipline.Keeps scope (makeLambda scope function) := by
  unfold makeLambda
  split
  case h_1 name _ named _ =>
    refine keeps_enter discipline.enterBlock fun holds => ?_
    refine (keeps_makeClosure code _).bind fun _ => ?_
    refine (keeps_declare (discipline.may_own holds code named) _).bind fun _ => ?_
    exact (kept_pure _).keeps _
  case h_2 => exact keeps_makeClosure code scope

theorem keeps_hoist
    {scope : Scope} {statements : List Statement}
    (permitted : (discipline.permits scope).OnStatements statements) :
    discipline.Keeps scope (hoist scope statements) := by
  refine Keeps.forM statements fun statement member => ?_
  have given := Parts.onStatements_iff.mp permitted statement member
  split
  case h_1 function =>
    rw [Parts.OnStatement] at given
    split
    case h_1 name named =>
      refine (keeps_makeClosure given.2 scope).bind fun _ => ?_
      exact keeps_declare (given.1 name named) _
    case h_2 => exact (kept_pure _).keeps scope
  case h_2 => exact (kept_pure _).keeps scope

/-! ## Parts of expressions -/

section

variable {scope : Scope} {evaluate : Expression → Action Value}
  (keeps : ∀ expression, AllFunctions discipline.code (expression.nodes false) →
    discipline.Keeps scope (evaluate expression))

include keeps

theorem keeps_mapM : {expressions : List Expression} →
    AllFunctions discipline.code (nodesOfExpressions false expressions) →
      discipline.Keeps scope (expressions.mapM evaluate)
  | [], _ => (kept_pure _).keeps scope
  | expression :: rest, code => by
      rw [nodesOfExpressions, AllFunctions.append] at code
      rw [List.mapM_cons]
      refine (keeps expression code.1).bind fun _ => ?_
      exact (keeps_mapM code.2).bind fun _ => (kept_pure _).keeps scope

theorem keeps_lastValue : {expressions : List Expression} →
    AllFunctions discipline.code (nodesOfExpressions false expressions) →
      ∀ last, discipline.Keeps scope (lastValue evaluate last expressions)
  | [], _, last => (kept_pure last).keeps scope
  | expression :: rest, code, _ => by
      rw [nodesOfExpressions, AllFunctions.append] at code
      exact (keeps expression code.1).bind fun value => keeps_lastValue code.2 value

theorem keeps_evaluateProperties {properties : List Property}
    (code : AllFunctions discipline.code (nodesOfProperties false properties)) :
    discipline.Keeps scope (evaluateProperties evaluate properties) := by
  refine Keeps.bind ?_ fun _ => (kept_pure _).keeps scope
  induction properties with
  | nil => exact (kept_pure _).keeps scope
  | cons property rest induction =>
      obtain ⟨key, initial⟩ := property
      rw [nodesOfProperties, AllFunctions.append] at code
      rw [List.mapM_cons]
      refine Keeps.bind ?_ fun _ => (induction code.2).bind fun _ => (kept_pure _).keeps scope
      exact (keeps initial code.1).bind fun _ => (kept_pure _).keeps scope

theorem keeps_declareVariables {kind : DeclarationKind} {declarators : List Declarator}
    (permitted : (discipline.permits scope).declared declarators) :
    discipline.Keeps scope (declareVariables evaluate scope kind declarators) := by
  obtain ⟨may, code⟩ := permitted
  have code : AllFunctions discipline.code (nodesOfDeclarators false declarators) := code
  induction declarators with
  | nil => exact (kept_pure _).keeps scope
  | cons declarator rest induction =>
      obtain ⟨own, init⟩ := declarator
      rw [nodesOfDeclarators, AllFunctions.append] at code
      have others := induction (fun other member => may other (List.mem_cons_of_mem _ member))
        code.2 code.2
      have declares := fun value => @keeps_declare discipline scope own
        (may own List.mem_cons_self) ⟨value, kind != .constant⟩
      cases init with
      | none => exact Keeps.bind (((kept_pure _).keeps scope).bind declares) fun _ => others
      | some init => exact Keeps.bind ((keeps init code.1).bind declares) fun _ => others

theorem keeps_propertyOf? {expression : Expression} {found : Action (Value × String)}
    (code : AllFunctions discipline.code (expression.nodes false))
    (denotes : propertyOf? evaluate expression = some found) : discipline.Keeps scope found := by
  cases expression with
  | member object name =>
      rw [Expression.nodes, AllFunctions.cons_expression] at code
      cases denotes
      exact (keeps object code).bind fun _ => (kept_pure _).keeps scope
  | index object key =>
      rw [Expression.nodes, AllFunctions.cons_expression, AllFunctions.append] at code
      cases denotes
      refine (keeps object code.1).bind fun _ => (keeps key code.2).bind fun _ => ?_
      exact ((kept_query _).keeps scope).bind fun _ => (kept_pure _).keeps scope
  | _ => cases denotes

theorem keeps_placeOf {target : Expression}
    (code : AllFunctions discipline.code (target.nodes false)) :
    discipline.Keeps scope (placeOf evaluate target) := by
  unfold placeOf
  split
  · exact (kept_pure _).keeps scope
  · split
    case h_1 found denotes =>
      exact (keeps_propertyOf? keeps code denotes).bind fun _ => (kept_pure _).keeps scope
    case h_2 => exact (kept_throw _).keeps scope

theorem keeps_calleeOf {callee : Expression}
    (code : AllFunctions discipline.code (callee.nodes false)) :
    discipline.Keeps scope (calleeOf evaluate callee) := by
  unfold calleeOf
  split
  case h_1 found denotes =>
    refine (keeps_propertyOf? keeps code denotes).bind fun _ => ?_
    exact ((kept_check _).keeps scope).bind fun _ => (kept_pure _).keeps scope
  case h_2 => exact (keeps callee code).bind fun _ => (kept_pure _).keeps scope

theorem keeps_startLoop
    {init : Option LoopInit} (permitted : (discipline.permits scope).OnLoopInit init) :
    discipline.Keeps scope (startLoop evaluate scope init) := by
  unfold startLoop
  split
  · exact (kept_pure _).keeps scope
  · exact keeps_declareVariables keeps permitted
  · exact (keeps _ permitted.2).bind fun _ => (kept_pure _).keeps scope

theorem keeps_testRound
    {test : Option Expression} (permitted : (discipline.permits scope).OnOptional test) :
    discipline.Keeps scope (testRound evaluate test) := by
  cases test with
  | none => exact (kept_pure _).keeps scope
  | some test =>
      exact (keeps test (permitted test rfl).2).bind fun _ => (kept_pure _).keeps scope

theorem keeps_stepRound
    {step : Option Expression} (permitted : (discipline.permits scope).OnOptional step) :
    discipline.Keeps scope (stepRound evaluate step) := by
  cases step with
  | none => exact (kept_pure _).keeps scope
  | some step =>
      exact (keeps step (permitted step rfl).2).bind fun _ => (kept_pure _).keeps scope

end

theorem kept_readPlace (scope : Scope) (place : Place) : discipline.Kept (readPlace scope place) := by
  cases place with
  | binding name =>
      rw [readPlace]
      exact kept_check _
  | property base key =>
      rw [readPlace]
      exact kept_check _

theorem keeps_writePlace (scope : Scope) (place : Place) (value : Value) :
    discipline.Keeps scope (writePlace scope place value) := by
  intro machine result after holds usable outcome
  cases place with
  | binding name =>
      simp only [writePlace, Action.tryUpdate] at outcome
      cases assigned : machine.store.assign scope name value with
      | error fault =>
          rw [assigned] at outcome
          cases outcome
      | ok store =>
          rw [assigned] at outcome
          cases outcome
          exact ⟨discipline.assign holds usable assigned, Nat.le_of_eq (Store.size_assign assigned).symm⟩
  | property base key =>
      simp only [writePlace, Action.tryUpdate] at outcome
      cases written : machine.store.setProperty base key value with
      | error stop =>
          rw [written] at outcome
          cases outcome
      | ok store =>
          rw [written] at outcome
          cases outcome
          obtain ⟨frames, closures⟩ := Store.setProperty_cells written
          exact ⟨discipline.cells holds frames closures, Nat.le_of_eq (by rw [frames])⟩

theorem keeps_inTurn {scope : Scope} {execute : Statement → Action Completion} :
    (statements : List Statement) →
      (∀ statement ∈ statements, discipline.Keeps scope (execute statement)) →
        discipline.Keeps scope (inTurn execute statements)
  | [], _ => (kept_pure _).keeps scope
  | statement :: rest, keeps => by
      rw [inTurn]
      refine (keeps statement List.mem_cons_self).bind fun completion => ?_
      cases completion with
      | finished =>
          exact keeps_inTurn rest fun other member => keeps other (List.mem_cons_of_mem _ member)
      | _ => exact (kept_pure _).keeps scope

/-! ## Every run -/

/-- Everything that takes fuel stays within a discipline. -/
structure Observed (discipline : Discipline) (fuel : Nat) : Prop where
  evaluate (scope : Scope) {expression : Expression} :
    AllFunctions discipline.code (expression.nodes false) →
      discipline.Keeps scope (evaluate fuel scope expression)
  construct (constructor : Value) (arguments : List Value) (source : Expression) :
    discipline.Kept (construct fuel constructor arguments source)
  call (callee receiver : Value) (arguments : List Value) :
    discipline.Kept (call fuel callee receiver arguments)
  execute (scope : Scope) (label : Option String) {statement : Statement} :
    (discipline.permits scope).OnStatement statement →
      discipline.Keeps scope (execute fuel scope label statement)
  executeAll (scope : Scope) {statements : List Statement} :
    (discipline.permits scope).OnStatements statements →
      discipline.Keeps scope (executeAll fuel scope statements)
  rounds (scope : Scope) (label : Option String) {test step : Option Expression}
    {body : Statement} :
    (discipline.permits scope).OnOptional test → (discipline.permits scope).OnOptional step →
      (discipline.permits scope).OnStatement body →
        discipline.Keeps scope (rounds fuel scope label test step body)

namespace Observed

theorem zero (discipline : Discipline) : discipline.Observed 0 where
  evaluate scope _ _ := by
    rw [Machine.evaluate]
    exact (kept_throw _).keeps scope
  construct _ _ _ := by
    rw [Machine.construct]
    exact kept_throw _
  call _ _ _ := by
    rw [Machine.call]
    exact kept_throw _
  execute scope _ _ _ := by
    rw [Machine.execute]
    exact (kept_throw _).keeps scope
  executeAll scope _ _ := by
    rw [Machine.executeAll]
    exact (kept_throw _).keeps scope
  rounds scope _ _ _ _ _ _ _ := by
    rw [Machine.rounds]
    exact (kept_throw _).keeps scope

variable {fuel : Nat} (observed : discipline.Observed fuel)

include observed

theorem inner (scope : Scope) (expression : Expression)
    (code : AllFunctions discipline.code (expression.nodes false)) :
    discipline.Keeps scope (Machine.evaluate fuel scope expression) :=
  observed.evaluate scope code

theorem evaluate_succ (scope : Scope) {expression : Expression}
    (code : AllFunctions discipline.code (expression.nodes false)) :
    discipline.Keeps scope (Machine.evaluate (fuel + 1) scope expression) := by
  have inner := observed.inner scope
  cases expression with
  | literal literal =>
      rw [Machine.evaluate]
      exact (kept_pure _).keeps scope
  | identifier name =>
      rw [Machine.evaluate]
      exact (kept_check _).keeps scope
  | receiver =>
      rw [Machine.evaluate]
      exact (kept_query _).keeps scope
  | lambda function =>
      rw [Expression.nodes, AllFunctions.cons_expression, AllFunctions.of_lambda] at code
      rw [Machine.evaluate]
      exact keeps_makeLambda code scope
  | yield argument delegate | await argument =>
      rw [Machine.evaluate]
      exact (kept_throw _).keeps scope
  | array elements =>
      rw [Expression.nodes, AllFunctions.cons_expression] at code
      rw [Machine.evaluate]
      refine (keeps_mapM inner code).bind fun _ => Kept.keeps ?_ scope
      exact kept_allocate_cells (fun _ => rfl) (fun _ => rfl)
  | record properties =>
      rw [Expression.nodes, AllFunctions.cons_expression] at code
      rw [Machine.evaluate]
      refine (keeps_evaluateProperties inner code).bind fun _ => Kept.keeps ?_ scope
      exact kept_allocate_cells (fun _ => rfl) (fun _ => rfl)
  | unary operator argument =>
      rw [Expression.nodes, AllFunctions.cons_expression] at code
      rw [Machine.evaluate]
      refine Keeps.bind (Kept.keeps ?_ scope) fun isUnbound => ?_
      · cases argument with
        | identifier name =>
            rw [isUnboundName]
            exact kept_query _
        | _ => exact kept_pure _
      · split
        · exact (kept_pure _).keeps scope
        · exact (inner argument code).bind fun _ => (kept_query _).keeps scope
  | update operator leading argument =>
      rw [Expression.nodes, AllFunctions.cons_expression] at code
      rw [Machine.evaluate]
      refine (keeps_placeOf inner code).bind fun place => ?_
      refine ((kept_readPlace scope place).keeps scope).bind fun _ => ?_
      refine ((kept_query _).keeps scope).bind fun _ => ?_
      exact (keeps_writePlace scope place _).bind fun _ => (kept_pure _).keeps scope
  | binary operator left right =>
      rw [Expression.nodes, AllFunctions.cons_expression, AllFunctions.append] at code
      rw [Machine.evaluate]
      refine (inner left code.1).bind fun _ => (inner right code.2).bind fun _ => ?_
      exact (kept_check _).keeps scope
  | logical operator left right =>
      rw [Expression.nodes, AllFunctions.cons_expression, AllFunctions.append] at code
      rw [Machine.evaluate]
      refine (inner left code.1).bind fun _ => ?_
      split
      · exact (kept_pure _).keeps scope
      · exact inner right code.2
  | assign operator target value =>
      rw [Expression.nodes, AllFunctions.cons_expression, AllFunctions.append] at code
      rw [Machine.evaluate]
      refine (keeps_placeOf inner code.1).bind fun place => ?_
      have write := fun value => (@keeps_writePlace discipline scope place value).bind
        fun _ => (kept_pure value).keeps scope
      cases operator.binary? with
      | none => exact (inner value code.2).bind write
      | some operator =>
          refine ((kept_readPlace scope place).keeps scope).bind fun _ => ?_
          exact (inner value code.2).bind fun _ => ((kept_check _).keeps scope).bind write
  | conditional test consequent alternate =>
      rw [Expression.nodes, AllFunctions.cons_expression, AllFunctions.append,
        AllFunctions.append] at code
      rw [Machine.evaluate]
      refine (inner test code.1.1).bind fun _ => ?_
      split
      · exact inner consequent code.1.2
      · exact inner alternate code.2
  | call callee arguments =>
      rw [Expression.nodes, AllFunctions.cons_expression, AllFunctions.append] at code
      rw [Machine.evaluate]
      refine (keeps_calleeOf inner code.1).bind fun found => ?_
      refine (keeps_mapM inner code.2).bind fun values => ?_
      split
      · exact (observed.call found.1 found.2 values).keeps scope
      · exact (kept_throw _).keeps scope
  | construct callee arguments =>
      rw [Expression.nodes, AllFunctions.cons_expression, AllFunctions.append] at code
      rw [Machine.evaluate]
      refine (inner callee code.1).bind fun constructor => ?_
      refine (keeps_mapM inner code.2).bind fun values => ?_
      exact (observed.construct constructor values callee).keeps scope
  | member object name =>
      rw [Expression.nodes, AllFunctions.cons_expression] at code
      rw [Machine.evaluate]
      exact (inner object code).bind fun _ => (kept_check _).keeps scope
  | index object key =>
      rw [Expression.nodes, AllFunctions.cons_expression, AllFunctions.append] at code
      rw [Machine.evaluate]
      refine (inner object code.1).bind fun _ => (inner key code.2).bind fun _ => ?_
      exact (kept_check _).keeps scope
  | sequence expressions =>
      rw [Expression.nodes, AllFunctions.cons_expression] at code
      rw [Machine.evaluate]
      exact keeps_lastValue inner code _

theorem construct_succ (constructor : Value) (arguments : List Value) (source : Expression) :
    discipline.Kept (Machine.construct (fuel + 1) constructor arguments source) := by
  cases constructor with
  | closure address =>
      rw [Machine.construct]
      refine (kept_query _).bind fun closure? => ?_
      split
      · refine (kept_allocate_cells (fun _ => rfl) (fun _ => rfl)).bind fun created => ?_
        refine (observed.call _ _ _).bind fun result => ?_
        split <;> exact kept_pure _
      · exact kept_throw _
  | builtin function =>
      cases function with
      | makeError =>
          rw [Machine.construct]
          exact kept_allocate_cells (fun _ => rfl) (fun _ => rfl)
      | writeLine =>
          rw [Machine.construct]
          · exact kept_throw _
          all_goals simp
  | _ =>
      rw [Machine.construct]
      · exact kept_throw _
      all_goals simp

/-- A closure of the store runs in a scope that the discipline allows. -/
theorem enterClosure {closure : Closure} (code : discipline.code closure.function)
    (receiver : Value) (arguments : List Value) :
    discipline.Keeps closure.scope
      (Machine.enterClosure fuel closure receiver arguments) := by
  unfold Machine.enterClosure
  split
  · exact (kept_throw _).keeps _
  · have entered {store : Store} (holds : discipline.holds store) :=
      discipline.enterCall receiver arguments holds code
    refine (keeps_enter entered fun holds => ?_).nested
    cases shape : closure.function.body with
    | block statements =>
        refine (observed.executeAll _ (discipline.block holds code shape)).bind fun _ => ?_
        exact (kept_pure _).keeps _
    | result expression => exact observed.evaluate _ (discipline.result code shape)

theorem call_succ (callee receiver : Value) (arguments : List Value) :
    discipline.Kept (Machine.call (fuel + 1) callee receiver arguments) := by
  cases callee with
  | closure address =>
      intro machine result after holds outcome
      rw [call_closure, Action.bind_of_ok (Action.query_apply _ machine)] at outcome
      cases found : machine.store.closure? address with
      | none =>
          rw [found] at outcome
          exact kept_pure Value.undefined machine result after holds outcome
      | some closure =>
          rw [found] at outcome
          obtain ⟨usable, code⟩ := discipline.closure holds found
          exact observed.enterClosure code receiver arguments machine result after holds usable
            outcome
  | builtin function =>
      cases function with
      | makeError =>
          rw [Machine.call]
          exact kept_allocate_cells (fun _ => rfl) (fun _ => rfl)
      | writeLine =>
          rw [Machine.call]
          exact (kept_query _).bind fun _ => (kept_writeLine _).bind fun _ => kept_pure _
  | _ =>
      rw [Machine.call]
      · exact (kept_query _).bind fun _ => kept_throw _
      all_goals simp

theorem execute_succ
    (scope : Scope) (label : Option String) {statement : Statement}
    (permitted : (discipline.permits scope).OnStatement statement) :
    discipline.Keeps scope (Machine.execute (fuel + 1) scope label statement) := by
  have inner := observed.inner
  cases statement with
  | evaluate expression =>
      rw [Parts.OnStatement] at permitted
      rw [Machine.execute]
      refine Keeps.bind ?_ fun _ => (kept_pure _).keeps scope
      exact (inner scope expression permitted.2).bind fun _ => (kept_pure _).keeps scope
  | block statements =>
      rw [Parts.OnStatement] at permitted
      rw [Machine.execute]
      exact keeps_enter discipline.enterBlock fun holds =>
        observed.executeAll _ (.imp (permits_enter holds scope) statements permitted)
  | labeled label body =>
      rw [Parts.OnStatement] at permitted
      rw [Machine.execute]
      exact (observed.execute scope (some label) permitted).bind fun _ =>
        (kept_pure _).keeps scope
  | giveBack argument =>
      rw [Parts.OnStatement] at permitted
      cases argument with
      | none =>
          rw [Machine.execute]
          exact (kept_pure _).keeps scope
      | some argument =>
          rw [Machine.execute]
          exact (inner scope argument (permitted argument rfl).2).bind fun _ =>
            (kept_pure _).keeps scope
  | branch test consequent alternate =>
      rw [Parts.OnStatement] at permitted
      rw [execute_branch]
      refine (inner scope test permitted.1.2).bind fun _ => ?_
      split
      · exact observed.execute scope none permitted.2.1
      · cases alternate with
        | none => exact (kept_pure _).keeps scope
        | some alternate => exact observed.execute scope none permitted.2.2
  | whileLoop test body =>
      rw [Parts.OnStatement] at permitted
      rw [Machine.execute]
      exact observed.rounds scope label (Parts.onOptional_some permitted.1) Parts.onOptional_none
        permitted.2
  | doWhileLoop body test =>
      rw [Parts.OnStatement] at permitted
      rw [Machine.execute]
      refine (observed.execute scope none permitted.2).bind fun completion => ?_
      split
      · exact (kept_pure _).keeps scope
      · exact observed.rounds scope label (Parts.onOptional_some permitted.1)
          Parts.onOptional_none permitted.2
  | forLoop init test step body =>
      rw [execute_forLoop]
      refine keeps_enter discipline.enterBlock fun holds => ?_
      have inside := Parts.OnStatement.imp (permits_enter holds scope) _ permitted
      rw [Parts.OnStatement] at inside
      refine (keeps_startLoop (inner _) inside.1).bind fun _ => ?_
      exact observed.rounds _ label inside.2.1 inside.2.2.1 inside.2.2.2
  | bindings kind declarators =>
      rw [Parts.OnStatement] at permitted
      rw [Machine.execute]
      exact (keeps_declareVariables (inner scope) permitted).bind fun _ =>
        (kept_pure _).keeps scope
  | raise argument =>
      rw [Parts.OnStatement] at permitted
      rw [Machine.execute]
      exact (inner scope argument permitted.2).bind fun _ => (kept_throw _).keeps scope
  | declare function | breakOut label | continueLoop label | empty =>
      rw [Machine.execute]
      exact (kept_pure _).keeps scope

theorem executeAll_succ (scope : Scope) {statements : List Statement}
    (permitted : (discipline.permits scope).OnStatements statements) :
    discipline.Keeps scope (Machine.executeAll (fuel + 1) scope statements) := by
  rw [Machine.executeAll]
  refine (keeps_hoist permitted).bind fun _ => ?_
  refine keeps_inTurn statements fun statement member => ?_
  exact observed.execute scope none (Parts.onStatements_iff.mp permitted statement member)

theorem rounds_succ
    (scope : Scope) (label : Option String) {test step : Option Expression} {body : Statement}
    (tests : (discipline.permits scope).OnOptional test)
    (steps : (discipline.permits scope).OnOptional step)
    (permitted : (discipline.permits scope).OnStatement body) :
    discipline.Keeps scope (Machine.rounds (fuel + 1) scope label test step body) := by
  rw [Machine.rounds_succ]
  refine (keeps_testRound (observed.inner scope) tests).bind fun goesOn => ?_
  split
  · refine (observed.execute scope none permitted).bind fun completion => ?_
    split
    · exact (kept_pure _).keeps scope
    · exact (keeps_stepRound (observed.inner scope) steps).bind fun _ =>
        observed.rounds scope label tests steps permitted
  · exact (kept_pure _).keeps scope

/-- One more step of fuel observes what all fuel so far observes. -/
theorem succ : discipline.Observed (fuel + 1) :=
  ⟨observed.evaluate_succ, observed.construct_succ, observed.call_succ,
    observed.execute_succ, observed.executeAll_succ, observed.rounds_succ⟩

end Observed

/-- Every run of disciplined code stays within its discipline. -/
theorem observed (discipline : Discipline) : (fuel : Nat) → discipline.Observed fuel
  | 0 => .zero discipline
  | fuel + 1 => (observed discipline fuel).succ

end Discipline

end Covenant.Machine
