import Covenant.Proofs.Calm
import Covenant.Proofs.Performance
import Covenant.Proofs.Session
import Covenant.Proofs.Sparing

/-!
# Constants that nothing shadows

A constant of the global frame is found under its name from everywhere, as long
as no other frame binds the name and all closures see the global frame.  Code
that spares the name keeps it so: this is shown once for everything that takes
fuel, by induction on fuel, and from it for every part of a run.
-/

namespace Covenant.Machine

/-- The frame of a call binds the receiver and the parameters. -/
theorem lookup_callFrame {name : String} {function : Function} (receiver : Value)
    (arguments : List Value) (apart : name ≠ "this") (free : name ∉ function.parameters) :
    (callFrame function receiver arguments).lookup name = none := by
  have fold (entries : List (String × Value)) (frame : Frame)
      (absent : frame.lookup name = none) (others : ∀ entry ∈ entries, entry.1 ≠ name) :
      (entries.foldl (fun frame parameter =>
        Entries.put parameter.1 (⟨parameter.2, true⟩ : Binding) frame) frame).lookup name =
          none := by
    induction entries generalizing frame with
    | nil => exact absent
    | cons entry rest induction =>
        rw [List.foldl_cons]
        refine induction _ ?_ fun other member => others other (List.mem_cons_of_mem _ member)
        rw [Entries.lookup_put, if_neg (others entry List.mem_cons_self).symm]
        exact absent
  unfold callFrame
  refine fold _ _ ?_ ?_
  · cases function.isArrow with
    | true => rfl
    | false => simp [List.lookup_cons, beq_eq_false_iff_ne.mpr apart]
  · intro entry member equal
    exact free (equal ▸ (List.of_mem_zip member).1)

end Covenant.Machine

namespace Covenant.Contract

open Machine
open Covenant.Machine.Action (Upholds)

/-- A constant of the global frame is found from everywhere, and closures keep it so. -/
structure Unshadowed (name : String) (value : Value) (store : Store) : Prop where
  constant : (store.frame ⟨0⟩).lookup name = some ⟨value, false⟩
  absent (address : FrameAddress) : address ≠ ⟨0⟩ → (store.frame address).lookup name = none
  closures (address : ClosureAddress) (closure : Closure) :
    store.closure? address = some closure →
      ⟨0⟩ ∈ closure.scope ∧ Deeply (SparesName name) closure.function

/-- No function among some nodes binds a name, at any depth. -/
def Free (name : String) (nodes : List Node) : Prop :=
  AllFunctions (Deeply (SparesName name)) nodes

variable {name : String} {value : Value}

theorem free_append {first second : List Node} :
    Free name (first ++ second) ↔ Free name first ∧ Free name second :=
  AllFunctions.append

theorem free_cons_expression {expression : Expression} {nodes : List Node} :
    Free name (.expression expression :: nodes) ↔ Free name nodes :=
  AllFunctions.cons_expression

namespace Unshadowed

variable {store other : Store}

/-- The constant is what its name means wherever the global frame is seen. -/
theorem lookup? (unshadowed : Unshadowed name value store) :
    {scope : Scope} → ⟨0⟩ ∈ scope → store.lookup? scope name = some value
  | address :: outer, sees => by
      by_cases here : address = ⟨0⟩
      · subst here
        simp [Store.lookup?, Store.nearest?, unshadowed.constant]
      · have further := lookup? unshadowed ((List.mem_cons.mp sees).resolve_left (Ne.symm here))
        simpa [Store.lookup?, Store.nearest?, unshadowed.absent address here] using further

theorem present (unshadowed : Unshadowed name value store) : 0 < store.frames.size := by
  by_contra missing
  have empty : store.frames = #[] := by
    simpa using Nat.eq_zero_of_not_pos missing
  have constant := unshadowed.constant
  simp [Store.frame, empty] at constant

/-- What holds of a store holds of every store with the same frames and closures. -/
theorem cells (unshadowed : Unshadowed name value store) (frames : other.frames = store.frames)
    (closures : other.closures = store.closures) : Unshadowed name value other where
  constant := by
    rw [Store.frame, frames]
    exact unshadowed.constant
  absent address apart := by
    rw [Store.frame, frames]
    exact unshadowed.absent address apart
  closures address closure found := by
    rw [Store.closure?, closures] at found
    exact unshadowed.closures address closure found

theorem putBinding (unshadowed : Unshadowed name value store) (written : FrameAddress)
    {key : String} (apart : key ≠ name) (binding : Binding) :
    Unshadowed name value (store.putBinding written key binding) where
  constant := by
    rw [Store.lookup_putBinding_of_ne store _ _ apart]
    exact unshadowed.constant
  absent address other := by
    rw [Store.lookup_putBinding_of_ne store _ _ apart]
    exact unshadowed.absent address other
  closures := unshadowed.closures

theorem declare (unshadowed : Unshadowed name value store) (scope : Scope)
    {key : String} (apart : key ≠ name) (binding : Binding) :
    Unshadowed name value (store.declare scope key binding) := by
  cases scope with
  | nil => exact unshadowed
  | cons address outer => exact unshadowed.putBinding address apart binding

/-- An assignment writes another name, for a constant is not assigned. -/
theorem assign (unshadowed : Unshadowed name value store) {scope : Scope} {key : String}
    {given : Value} (assigned : store.assign scope key given = .ok other) :
    Unshadowed name value other := by
  obtain ⟨address, binding, found, assignable, rfl⟩ := Store.assign_eq_ok.mp assigned
  refine unshadowed.putBinding address (fun same => ?_) _
  subst same
  have bound := (Store.nearest?_eq_some found).2
  by_cases global : address = ⟨0⟩
  · subst global
    rw [unshadowed.constant] at bound
    cases bound
    cases assignable
  · rw [unshadowed.absent address global] at bound
    cases bound

theorem addFrame (unshadowed : Unshadowed name value store) {frame : Frame}
    (free : frame.lookup name = none) : Unshadowed name value (store.addFrame frame).2 where
  constant := by
    rw [Store.frame_addFrame_of_lt store unshadowed.present]
    exact unshadowed.constant
  absent address apart := by
    by_cases before : address.index < store.frames.size
    · rw [Store.frame_addFrame_of_lt store before]
      exact unshadowed.absent address apart
    · by_cases last : address.index = store.frames.size
      · have same : address = ⟨store.frames.size⟩ := by
          cases address
          cases last
          rfl
        rw [same, Store.frame_addFrame]
        exact free
      · simp [Store.frame, Store.addFrame, Array.getD_eq_getD_getElem?, Array.getElem?_push, last,
          Nat.le_of_not_lt before]
  closures := unshadowed.closures

theorem addClosure (unshadowed : Unshadowed name value store) {closure : Closure}
    (sees : ⟨0⟩ ∈ closure.scope) (spares : Deeply (SparesName name) closure.function) :
    Unshadowed name value (store.addClosure closure).2 where
  constant := unshadowed.constant
  absent := unshadowed.absent
  closures address found outcome := by
    rcases Store.closure?_addClosure_eq_some outcome with old | rfl
    · exact unshadowed.closures address found old
    · exact ⟨sees, spares⟩

end Unshadowed

/-! ## Steps of a run -/

/-- What keeps a constant unshadowed. -/
abbrev Keeping (name : String) (value : Value) {α : Type} (action : Action α) : Prop :=
  action.Upholds fun machine => Unshadowed name value machine.store

section

variable {α : Type}

theorem keeping_nested {action : Action α} (keeping : Keeping name value action) :
    Keeping name value (Action.nested action) := by
  intro machine result after unshadowed outcome
  obtain ⟨_, final, ran, rfl⟩ := Action.nested_eq_ok.mp outcome
  exact keeping { machine with depth := machine.depth + 1 } result final unshadowed ran

theorem keeping_forM {β : Type} {action : β → Action Unit} : (values : List β) →
    (∀ value' ∈ values, Keeping name value (action value')) →
      Keeping name value (values.forM action)
  | [], _ => .pure _
  | head :: rest, keeping => by
      rw [List.forM]
      refine (keeping head List.mem_cons_self).bind fun _ => ?_
      exact keeping_forM rest fun other member => keeping other (List.mem_cons_of_mem _ member)

theorem keeping_allocate_cells {add : Store → α × Store}
    (frames : ∀ store, (add store).2.frames = store.frames)
    (closures : ∀ store, (add store).2.closures = store.closures) :
    Keeping name value (Action.allocate add) := by
  intro machine result after unshadowed outcome
  cases outcome
  exact unshadowed.cells (frames _) (closures _)

theorem keeping_declare (scope : Scope) {key : String} (apart : key ≠ name) (binding : Binding) :
    Keeping name value (Machine.declare scope key binding) := by
  intro machine result after unshadowed outcome
  cases outcome
  exact unshadowed.declare scope apart binding

theorem keeping_makeClosure {scope : Scope} {function : Function} (sees : ⟨0⟩ ∈ scope)
    (spares : Deeply (SparesName name) function) :
    Keeping name value (makeClosure scope function) := by
  intro machine result after unshadowed outcome
  cases outcome
  exact unshadowed.addClosure sees spares

/-- What runs in a new frame that does not bind the name, and sees the global frame. -/
theorem keeping_enter {frame : Frame} (free : frame.lookup name = none) {scope : Scope}
    {next : Scope → Action α}
    (rest : ∀ address, Keeping name value (next (address :: scope))) :
    Keeping name value ((Action.allocate fun store => store.enter frame scope) >>= next) := by
  intro machine result after unshadowed outcome
  obtain ⟨inner, between, entered, outcome⟩ := Action.bind_eq_ok.mp outcome
  cases entered
  exact rest _ _ result after (unshadowed.addFrame free) outcome

theorem keeping_makeLambda {scope : Scope} {function : Function} (sees : ⟨0⟩ ∈ scope)
    (spares : Deeply (SparesName name) function) :
    Keeping name value (makeLambda scope function) := by
  unfold makeLambda
  split
  case h_1 own _ named _ =>
    refine keeping_enter rfl fun address => ?_
    refine (keeping_makeClosure (List.mem_cons_of_mem _ sees) spares).bind fun _ => ?_
    refine (keeping_declare _ (fun equal => ?_) _).bind fun _ => .pure _
    exact (deeply_iff.mp spares).1.own (by rw [named, equal])
  case h_2 => exact keeping_makeClosure sees spares

theorem keeping_hoist {scope : Scope} {statements : List Statement} (sees : ⟨0⟩ ∈ scope)
    (spares : (sparing name).OnStatements statements) :
    Keeping name value (hoist scope statements) := by
  refine keeping_forM statements fun statement member => ?_
  have given := Parts.onStatements_iff.mp spares statement member
  split
  case h_1 function =>
    rw [Parts.OnStatement] at given
    split
    case h_1 own named =>
      refine (keeping_makeClosure sees given.2).bind fun _ => ?_
      exact keeping_declare _ (given.1 own named) _
    case h_2 => exact .pure _
  case h_2 => exact .pure _

end

/-! ## Parts of expressions -/

section

variable {evaluate : Expression → Action Value}
  (inner : ∀ expression, Free name (expression.nodes false) →
    Keeping name value (evaluate expression))

include inner

theorem keeping_mapM : {expressions : List Expression} →
    Free name (nodesOfExpressions false expressions) →
      Keeping name value (expressions.mapM evaluate)
  | [], _ => .pure _
  | expression :: rest, free => by
      rw [nodesOfExpressions, free_append] at free
      rw [List.mapM_cons]
      exact (inner expression free.1).bind fun _ => (keeping_mapM free.2).bind fun _ => .pure _

theorem keeping_lastValue : {expressions : List Expression} →
    Free name (nodesOfExpressions false expressions) →
      ∀ last, Keeping name value (lastValue evaluate last expressions)
  | [], _, last => .pure last
  | expression :: rest, free, _ => by
      rw [nodesOfExpressions, free_append] at free
      exact (inner expression free.1).bind fun found => keeping_lastValue free.2 found

theorem keeping_evaluateProperties {properties : List Property}
    (free : Free name (nodesOfProperties false properties)) :
    Keeping name value (evaluateProperties evaluate properties) := by
  refine Upholds.bind ?_ fun _ => .pure _
  induction properties with
  | nil => exact .pure _
  | cons property rest induction =>
      obtain ⟨key, initial⟩ := property
      rw [nodesOfProperties, free_append] at free
      rw [List.mapM_cons]
      refine Upholds.bind ((inner initial free.1).bind fun _ => .pure _) fun _ => ?_
      exact (induction free.2).bind fun _ => .pure _

theorem keeping_declareVariables {scope : Scope} {kind : DeclarationKind}
    {declarators : List Declarator} (spares : (sparing name).declared declarators) :
    Keeping name value (declareVariables evaluate scope kind declarators) := by
  obtain ⟨apart, free⟩ := spares
  have free : Free name (nodesOfDeclarators false declarators) := free
  induction declarators with
  | nil => exact .pure _
  | cons declarator rest induction =>
      obtain ⟨own, init⟩ := declarator
      rw [nodesOfDeclarators, free_append] at free
      have others := induction (fun other member => apart other (List.mem_cons_of_mem _ member))
        free.2 free.2
      have declares := fun found => @keeping_declare name value scope own
        (apart own List.mem_cons_self) ⟨found, kind != .constant⟩
      cases init with
      | none => exact Upholds.bind ((Upholds.pure _).bind declares) fun _ => others
      | some init => exact Upholds.bind ((inner init free.1).bind declares) fun _ => others

theorem keeping_propertyOf? {expression : Expression} {found : Action (Value × String)}
    (free : Free name (expression.nodes false))
    (denotes : propertyOf? evaluate expression = some found) : Keeping name value found := by
  cases expression with
  | member object key =>
      rw [Expression.nodes, free_cons_expression] at free
      cases denotes
      exact (inner object free).bind fun _ => .pure _
  | index object key =>
      rw [Expression.nodes, free_cons_expression, free_append] at free
      cases denotes
      exact (inner object free.1).bind fun _ => (inner key free.2).bind fun _ =>
        (Upholds.query _).bind fun _ => .pure _
  | _ => cases denotes

theorem keeping_placeOf {target : Expression} (free : Free name (target.nodes false)) :
    Keeping name value (placeOf evaluate target) := by
  unfold placeOf
  split
  · exact .pure _
  · split
    case h_1 found denotes => exact (keeping_propertyOf? inner free denotes).bind fun _ => .pure _
    case h_2 => exact .throw _

theorem keeping_calleeOf {callee : Expression} (free : Free name (callee.nodes false)) :
    Keeping name value (calleeOf evaluate callee) := by
  unfold calleeOf
  split
  case h_1 found denotes =>
    refine (keeping_propertyOf? inner free denotes).bind fun _ => ?_
    exact (Upholds.check _).bind fun _ => .pure _
  case h_2 => exact (inner callee free).bind fun _ => .pure _

theorem keeping_startLoop {scope : Scope} {init : Option LoopInit}
    (spares : (sparing name).OnLoopInit init) :
    Keeping name value (startLoop evaluate scope init) := by
  unfold startLoop
  split
  · exact .pure _
  · exact keeping_declareVariables inner spares
  · exact (inner _ spares.2).bind fun _ => .pure _

theorem keeping_testRound {test : Option Expression} (spares : (sparing name).OnOptional test) :
    Keeping name value (testRound evaluate test) := by
  cases test with
  | none => exact .pure _
  | some test => exact (inner test (spares test rfl).2).bind fun _ => .pure _

theorem keeping_stepRound {step : Option Expression} (spares : (sparing name).OnOptional step) :
    Keeping name value (stepRound evaluate step) := by
  cases step with
  | none => exact .pure _
  | some step => exact (inner step (spares step rfl).2).bind fun _ => .pure _

end

theorem keeping_readPlace (scope : Scope) (place : Machine.Place) :
    Keeping name value (readPlace scope place) := by
  cases place with
  | binding key =>
      rw [readPlace]
      exact .check _
  | property base key =>
      rw [readPlace]
      exact .check _

theorem keeping_writePlace (scope : Scope) (place : Machine.Place) (given : Value) :
    Keeping name value (writePlace scope place given) := by
  intro machine result after unshadowed outcome
  cases place with
  | binding key =>
      simp only [writePlace, Action.tryUpdate] at outcome
      cases assigned : machine.store.assign scope key given with
      | error fault =>
          rw [assigned] at outcome
          cases outcome
      | ok store =>
          rw [assigned] at outcome
          cases outcome
          exact unshadowed.assign assigned
  | property base key =>
      simp only [writePlace, Action.tryUpdate] at outcome
      cases written : machine.store.setProperty base key given with
      | error stop =>
          rw [written] at outcome
          cases outcome
      | ok store =>
          rw [written] at outcome
          cases outcome
          obtain ⟨frames, closures⟩ := Store.setProperty_cells written
          exact unshadowed.cells frames closures

theorem keeping_inTurn {execute : Statement → Action Completion} : (statements : List Statement) →
    (∀ statement ∈ statements, Keeping name value (execute statement)) →
      Keeping name value (inTurn execute statements)
  | [], _ => .pure _
  | statement :: rest, keeping => by
      rw [inTurn]
      refine (keeping statement List.mem_cons_self).bind fun completion => ?_
      cases completion with
      | finished =>
          exact keeping_inTurn rest fun other member =>
            keeping other (List.mem_cons_of_mem _ member)
      | _ => exact .pure _

/-! ## Every task -/

/-- The code of a task sees the global frame and spares a name. -/
def Fits (name : String) : Task → Prop
  | .evaluate scope expression => ⟨0⟩ ∈ scope ∧ (sparing name).expression expression
  | .construct _ _ _ | .call _ _ _ => True
  | .execute scope _ statement => ⟨0⟩ ∈ scope ∧ (sparing name).OnStatement statement
  | .executeAll scope statements => ⟨0⟩ ∈ scope ∧ (sparing name).OnStatements statements
  | .rounds scope _ test step body =>
    ⟨0⟩ ∈ scope ∧ (sparing name).OnOptional test ∧ (sparing name).OnOptional step ∧
      (sparing name).OnStatement body

/-- Everything that takes fuel keeps a constant unshadowed if its code spares the name. -/
def KeepsAll (name : String) (value : Value) (fuel : Nat) : Prop :=
  ∀ task, Fits name task → Keeping name value (task.perform fuel)

namespace KeepsAll

theorem zero (name : String) (value : Value) : KeepsAll name value 0
  | .evaluate scope expression, _ => by
      show Keeping name value (evaluate 0 scope expression)
      rw [evaluate]
      exact .throw _
  | .construct constructor arguments source, _ => by
      show Keeping name value (construct 0 constructor arguments source)
      rw [construct]
      exact .throw _
  | .call callee receiver arguments, _ => by
      show Keeping name value (call 0 callee receiver arguments)
      rw [call]
      exact .throw _
  | .execute scope label statement, _ => by
      show Keeping name value (execute 0 scope label statement)
      rw [execute]
      exact .throw _
  | .executeAll scope statements, _ => by
      show Keeping name value (executeAll 0 scope statements)
      rw [executeAll]
      exact .throw _
  | .rounds scope label test step body, _ => by
      show Keeping name value (rounds 0 scope label test step body)
      rw [rounds]
      exact .throw _

variable {fuel : Nat} (keeps : KeepsAll name value fuel)

include keeps

/-- Expressions that spare a name keep a constant of that name unshadowed. -/
theorem inner {scope : Scope} (sees : ⟨0⟩ ∈ scope) (expression : Expression)
    (free : Free name (expression.nodes false)) :
    Keeping name value (evaluate fuel scope expression) :=
  keeps (.evaluate scope expression) ⟨sees, trivial, free⟩

theorem call (callee receiver : Value) (arguments : List Value) :
    Keeping name value (Machine.call fuel callee receiver arguments) :=
  keeps (.call callee receiver arguments) trivial

theorem execute {scope : Scope} (sees : ⟨0⟩ ∈ scope) (label : Option String)
    {statement : Statement} (spares : (sparing name).OnStatement statement) :
    Keeping name value (Machine.execute fuel scope label statement) :=
  keeps (.execute scope label statement) ⟨sees, spares⟩

theorem rounds {scope : Scope} (sees : ⟨0⟩ ∈ scope) (label : Option String)
    {test step : Option Expression} {body : Statement}
    (tests : (sparing name).OnOptional test) (steps : (sparing name).OnOptional step)
    (spares : (sparing name).OnStatement body) :
    Keeping name value (Machine.rounds fuel scope label test step body) :=
  keeps (.rounds scope label test step body) ⟨sees, tests, steps, spares⟩

theorem evaluate_succ {scope : Scope} (sees : ⟨0⟩ ∈ scope) (expression : Expression)
    (free : Free name (expression.nodes false)) :
    Keeping name value (evaluate (fuel + 1) scope expression) := by
  have inner := keeps.inner sees
  cases expression with
  | literal literal =>
      rw [evaluate]
      exact .pure _
  | identifier key =>
      rw [evaluate]
      exact .check _
  | receiver =>
      rw [evaluate]
      exact .query _
  | lambda function =>
      rw [Expression.nodes, free_cons_expression] at free
      rw [evaluate]
      exact keeping_makeLambda sees (AllFunctions.of_lambda.mp free)
  | yield argument delegate | await argument =>
      rw [evaluate]
      exact .throw _
  | array elements =>
      rw [Expression.nodes, free_cons_expression] at free
      rw [evaluate]
      exact (keeping_mapM inner free).bind fun _ =>
        keeping_allocate_cells (fun _ => rfl) (fun _ => rfl)
  | record properties =>
      rw [Expression.nodes, free_cons_expression] at free
      rw [evaluate]
      exact (keeping_evaluateProperties inner free).bind fun _ =>
        keeping_allocate_cells (fun _ => rfl) (fun _ => rfl)
  | unary operator argument =>
      rw [Expression.nodes, free_cons_expression] at free
      rw [evaluate]
      refine Upholds.bind ?_ fun isUnbound => ?_
      · cases argument with
        | identifier key =>
            rw [isUnboundName]
            exact .query _
        | _ => exact .pure _
      · split
        · exact .pure _
        · exact (inner argument free).bind fun _ => .query _
  | update operator leading argument =>
      rw [Expression.nodes, free_cons_expression] at free
      rw [evaluate]
      refine (keeping_placeOf inner free).bind fun place => ?_
      refine (keeping_readPlace scope place).bind fun _ => (Upholds.query _).bind fun _ => ?_
      exact (keeping_writePlace scope place _).bind fun _ => .pure _
  | binary operator left right =>
      rw [Expression.nodes, free_cons_expression, free_append] at free
      rw [evaluate]
      exact (inner left free.1).bind fun _ => (inner right free.2).bind fun _ => .check _
  | logical operator left right =>
      rw [Expression.nodes, free_cons_expression, free_append] at free
      rw [evaluate]
      refine (inner left free.1).bind fun _ => ?_
      split
      · exact .pure _
      · exact inner right free.2
  | assign operator target given =>
      rw [Expression.nodes, free_cons_expression, free_append] at free
      rw [evaluate]
      refine (keeping_placeOf inner free.1).bind fun place => ?_
      have write := fun found => (@keeping_writePlace name value scope place found).bind
        fun _ => .pure found
      cases operator.binary? with
      | none => exact (inner given free.2).bind write
      | some operator =>
          refine (keeping_readPlace scope place).bind fun _ => ?_
          exact (inner given free.2).bind fun _ => (Upholds.check _).bind write
  | conditional test consequent alternate =>
      rw [Expression.nodes, free_cons_expression, free_append, free_append] at free
      rw [evaluate]
      refine (inner test free.1.1).bind fun _ => ?_
      split
      · exact inner consequent free.1.2
      · exact inner alternate free.2
  | call callee arguments =>
      rw [Expression.nodes, free_cons_expression, free_append] at free
      rw [evaluate]
      refine (keeping_calleeOf inner free.1).bind fun found => ?_
      refine (keeping_mapM inner free.2).bind fun values => ?_
      split
      · exact keeps.call found.1 found.2 values
      · exact .throw _
  | construct callee arguments =>
      rw [Expression.nodes, free_cons_expression, free_append] at free
      rw [evaluate]
      refine (inner callee free.1).bind fun constructor => ?_
      refine (keeping_mapM inner free.2).bind fun values => ?_
      exact keeps (.construct constructor values callee) trivial
  | member object key =>
      rw [Expression.nodes, free_cons_expression] at free
      rw [evaluate]
      exact (inner object free).bind fun _ => .check _
  | index object key =>
      rw [Expression.nodes, free_cons_expression, free_append] at free
      rw [evaluate]
      exact (inner object free.1).bind fun _ => (inner key free.2).bind fun _ => .check _
  | sequence expressions =>
      rw [Expression.nodes, free_cons_expression] at free
      rw [evaluate]
      exact keeping_lastValue inner free _

theorem construct_succ (constructor : Value) (arguments : List Value) (source : Expression) :
    Keeping name value (construct (fuel + 1) constructor arguments source) := by
  cases constructor with
  | closure address =>
      rw [construct]
      refine (Upholds.query _).bind fun closure? => ?_
      split
      · refine (keeping_allocate_cells (fun _ => rfl) (fun _ => rfl)).bind fun created => ?_
        refine (keeps.call _ _ _).bind fun result => ?_
        split <;> exact .pure _
      · exact .throw _
  | builtin function =>
      cases function with
      | makeError =>
          rw [construct]
          exact keeping_allocate_cells (fun _ => rfl) (fun _ => rfl)
      | writeLine =>
          rw [construct]
          · exact .throw _
          all_goals simp
  | _ =>
      rw [construct]
      · exact .throw _
      all_goals simp

theorem runBody {scope : Scope} (sees : ⟨0⟩ ∈ scope) {function : Function}
    (spares : Deeply (SparesName name) function) :
    Keeping name value (Machine.runBody fuel scope function.body) := by
  cases shape : function.body with
  | block statements =>
      exact Upholds.bind (keeps (.executeAll scope statements)
        ⟨sees, sparing_of_block spares shape⟩) fun _ => .pure _
  | result expression => exact keeps.inner sees expression (sparing_of_result spares shape).2

/-- The closures of a store in which the constant is unshadowed keep it so. -/
theorem enterClosure (apart : name ≠ "this") {closure : Closure} (sees : ⟨0⟩ ∈ closure.scope)
    (spares : Deeply (SparesName name) closure.function)
    (receiver : Value) (arguments : List Value) :
    Keeping name value (Machine.enterClosure fuel closure receiver arguments) := by
  unfold Machine.enterClosure
  split
  · exact .throw _
  · refine keeping_nested (keeping_enter ?_ fun address => ?_)
    · exact lookup_callFrame receiver arguments apart (deeply_iff.mp spares).1.parameters
    · exact keeps.runBody (List.mem_cons_of_mem _ sees) spares

theorem call_succ (apart : name ≠ "this") (callee receiver : Value) (arguments : List Value) :
    Keeping name value (Machine.call (fuel + 1) callee receiver arguments) := by
  cases callee with
  | closure address =>
      intro machine result after unshadowed outcome
      rw [call_closure, Action.bind_of_ok (Action.query_apply _ machine)] at outcome
      cases found : machine.store.closure? address with
      | none =>
          rw [found] at outcome
          cases outcome
          exact unshadowed
      | some closure =>
          rw [found] at outcome
          obtain ⟨sees, spares⟩ := unshadowed.closures address closure found
          exact keeps.enterClosure apart sees spares receiver arguments machine result after
            unshadowed outcome
  | builtin function =>
      cases function with
      | makeError =>
          rw [Machine.call]
          exact keeping_allocate_cells (fun _ => rfl) (fun _ => rfl)
      | writeLine =>
          rw [Machine.call]
          refine (Upholds.query _).bind fun line => Upholds.bind ?_ fun _ => .pure _
          intro machine result after unshadowed outcome
          cases outcome
          exact unshadowed
  | _ =>
      rw [Machine.call]
      · exact (Upholds.query _).bind fun _ => .throw _
      all_goals simp

theorem execute_succ {scope : Scope} (sees : ⟨0⟩ ∈ scope) (label : Option String)
    {statement : Statement} (spares : (sparing name).OnStatement statement) :
    Keeping name value (Machine.execute (fuel + 1) scope label statement) := by
  have inner := keeps.inner sees
  cases statement with
  | evaluate expression =>
      rw [Parts.OnStatement] at spares
      rw [Machine.execute]
      exact Upholds.bind ((inner expression spares.2).bind fun _ => .pure _) fun _ => .pure _
  | block statements =>
      rw [Parts.OnStatement] at spares
      rw [Machine.execute]
      exact keeping_enter rfl fun address =>
        keeps (.executeAll (address :: scope) statements) ⟨List.mem_cons_of_mem _ sees, spares⟩
  | labeled label body =>
      rw [Parts.OnStatement] at spares
      rw [Machine.execute]
      exact (keeps.execute sees (some label) spares).bind fun _ => .pure _
  | giveBack argument =>
      rw [Parts.OnStatement] at spares
      cases argument with
      | none =>
          rw [Machine.execute]
          exact .pure _
      | some argument =>
          rw [Machine.execute]
          exact (inner argument (spares argument rfl).2).bind fun _ => .pure _
  | branch test consequent alternate =>
      rw [Parts.OnStatement] at spares
      rw [execute_branch]
      refine (inner test spares.1.2).bind fun _ => ?_
      split
      · exact keeps.execute sees none spares.2.1
      · cases alternate with
        | none => exact .pure _
        | some alternate => exact keeps.execute sees none spares.2.2
  | whileLoop test body =>
      rw [Parts.OnStatement] at spares
      rw [Machine.execute]
      exact keeps.rounds sees label (Parts.onOptional_some spares.1) Parts.onOptional_none spares.2
  | doWhileLoop body test =>
      rw [Parts.OnStatement] at spares
      rw [Machine.execute]
      refine (keeps.execute sees none spares.2).bind fun completion => ?_
      split
      · exact .pure _
      · exact keeps.rounds sees label (Parts.onOptional_some spares.1) Parts.onOptional_none
          spares.2
  | forLoop init test step body =>
      rw [Parts.OnStatement] at spares
      rw [execute_forLoop]
      refine keeping_enter rfl fun address => ?_
      have further : ⟨0⟩ ∈ address :: scope := List.mem_cons_of_mem _ sees
      exact (keeping_startLoop (keeps.inner further) spares.1).bind fun _ =>
        keeps.rounds further label spares.2.1 spares.2.2.1 spares.2.2.2
  | bindings kind declarators =>
      rw [Parts.OnStatement] at spares
      rw [Machine.execute]
      exact (keeping_declareVariables inner spares).bind fun _ => .pure _
  | raise argument =>
      rw [Parts.OnStatement] at spares
      rw [Machine.execute]
      exact (inner argument spares.2).bind fun _ => .throw _
  | declare function | breakOut label | continueLoop label | empty =>
      rw [Machine.execute]
      exact .pure _

theorem executeAll_succ {scope : Scope} (sees : ⟨0⟩ ∈ scope) {statements : List Statement}
    (spares : (sparing name).OnStatements statements) :
    Keeping name value (Machine.executeAll (fuel + 1) scope statements) := by
  rw [Machine.executeAll]
  refine (keeping_hoist sees spares).bind fun _ => ?_
  refine keeping_inTurn statements fun statement member => ?_
  exact keeps.execute sees none (Parts.onStatements_iff.mp spares statement member)

theorem rounds_succ {scope : Scope} (sees : ⟨0⟩ ∈ scope) (label : Option String)
    {test step : Option Expression} {body : Statement}
    (tests : (sparing name).OnOptional test) (steps : (sparing name).OnOptional step)
    (spares : (sparing name).OnStatement body) :
    Keeping name value (Machine.rounds (fuel + 1) scope label test step body) := by
  rw [Machine.rounds_succ]
  refine (keeping_testRound (keeps.inner sees) tests).bind fun goesOn => ?_
  split
  · refine (keeps.execute sees none spares).bind fun completion => ?_
    split
    · exact .pure _
    · exact (keeping_stepRound (keeps.inner sees) steps).bind fun _ =>
        keeps.rounds sees label tests steps spares
  · exact .pure _

/-- One more step of fuel keeps what all fuel so far keeps. -/
theorem succ (apart : name ≠ "this") : KeepsAll name value (fuel + 1)
  | .evaluate _ expression, ⟨sees, spares⟩ => keeps.evaluate_succ sees expression spares.2
  | .construct constructor arguments source, _ => keeps.construct_succ constructor arguments source
  | .call callee receiver arguments, _ => keeps.call_succ apart callee receiver arguments
  | .execute _ label _, ⟨sees, spares⟩ => keeps.execute_succ sees label spares
  | .executeAll _ _, ⟨sees, spares⟩ => keeps.executeAll_succ sees spares
  | .rounds _ label _ _ _, ⟨sees, tests, steps, spares⟩ =>
    keeps.rounds_succ sees label tests steps spares

end KeepsAll

/-- Every task whose code spares a name keeps a constant of that name unshadowed. -/
theorem keepsAll (apart : name ≠ "this") : (fuel : Nat) → KeepsAll name value fuel
  | 0 => .zero name value
  | fuel + 1 => (keepsAll apart fuel).succ apart

end Covenant.Contract
