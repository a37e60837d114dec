import Covenant.Proofs.Lexical
import Covenant.Proofs.Unfolding
import Covenant.Proofs.Unshadowed

/-!
# What the frames of a run are for

A chart says of every frame of a store for which code it was opened: for the
top level of a program, for a block or a call of some function, or for the name
of a function expression.  A chart covers a store if each frame holds nothing
but names that are bound where that code stands, and if each closure sees only
frames of the functions that its own function is nested in.

As a run goes on a chart grows, and never changes: what a chart says of a task
it says of it in every longer chart.
-/

namespace Covenant.Machine

/-- What a frame was opened for. -/
inductive Origin where
  /-- For code of the innermost function, or of the top level. -/
  | code (nesting : Nesting)
  /-- For the name of a function expression that stands there. -/
  | self (function : Function) (nesting : Nesting)

namespace Origin

/-- Where the code stands that a frame was opened for. -/
def nesting : Origin → Nesting
  | code nesting | self _ nesting => nesting

/-- The names that a frame may hold. -/
def Allows (program : Program) : Origin → String → Prop
  | code nesting, name => program.Binds nesting name
  | self function _, name => function.selfName? = some name

end Origin

/--
A task opens a frame, seen from the innermost frame around it: what the frame
is for depends on where the code of that one stands.
-/
inductive Opens (machine : Machine) : Task → FrameAddress → (Nesting → Origin) → Prop where
  /-- A block. -/
  | block {around : FrameAddress} {scope : Scope} {label : Option String}
      {statements : List Statement} :
      Opens machine (.execute (around :: scope) label (.block statements)) around .code
  /-- A loop with variables of its own. -/
  | loop {around : FrameAddress} {scope : Scope} {label : Option String} {init : Option LoopInit}
      {test step : Option Expression} {body : Statement} :
      Opens machine (.execute (around :: scope) label (.forLoop init test step body)) around .code
  /-- A function expression that sees itself. -/
  | self {around : FrameAddress} {scope : Scope} {function : Function} {name : String} :
      function.selfName? = some name →
        Opens machine (.evaluate (around :: scope) (.lambda function)) around (.self function)
  /-- A call, for code that stands in the function that is called. -/
  | call {around : FrameAddress} {scope : Scope} {address : ClosureAddress} {function : Function}
      {receiver : Value} {arguments : List Value} :
      machine.store.closure? address = some ⟨function, around :: scope⟩ →
        unsupportedKind? function = none → machine.depth < machine.depthLimit →
          Opens machine (.call (.closure address) receiver arguments) around
            fun nesting => .code (function :: nesting)

/-- The origins of the frames of a store, in the order in which they were opened. -/
abbrev Chart := List Origin

namespace Chart

variable {program : Program} {chart more : Chart} {nesting : Nesting} {scope : Scope}
  {store other : Store} {machine start : Machine} {task next : Task}

/-- Code that stands somewhere may run in a scope: all names there are bound where it stands. -/
def Sees (program : Program) (chart : Chart) (nesting : Nesting) (scope : Scope) : Prop :=
  ∀ address ∈ scope, ∃ origin, chart[address.index]? = some origin ∧
    ∀ name, origin.Allows program name → program.Binds nesting name

/-- The code that runs in a scope stands somewhere in the program. -/
structure Runs (program : Program) (chart : Chart) (nesting : Nesting) (scope : Scope) : Prop where
  head : ∃ address outer, scope = address :: outer ∧
    chart[address.index]? = some (.code nesting)
  nests : program.Nests nesting
  sees : chart.Sees program nesting scope

/-- The function of a closure stands where its scope is for, and sees what is bound in it. -/
def Captures (program : Program) (chart : Chart) (closure : Closure) : Prop :=
  ∃ address outer origin, closure.scope = address :: outer ∧
    chart[address.index]? = some origin ∧
      program.Nests (closure.function :: origin.nesting) ∧
        chart.Sees program (closure.function :: origin.nesting) closure.scope

/-- The frames of a store hold names that their origins allow, and its closures respect them. -/
structure Covers (program : Program) (chart : Chart) (store : Store) : Prop where
  names {address : FrameAddress} {name : String} {binding : Binding} :
    (store.frame address).lookup name = some binding →
      ∃ origin, chart[address.index]? = some origin ∧ origin.Allows program name
  closures {address : ClosureAddress} {closure : Closure} :
    store.closure? address = some closure → chart.Captures program closure

/-- A task may start: its code stands where its scope is for. -/
structure Ready (program : Program) (chart : Chart) (task : Task) (machine : Machine) : Prop where
  covers : chart.Covers program machine.store
  runs {scope : Scope} : task.scope? = some scope →
    ∃ nesting, chart.Runs program nesting scope ∧ task.nodes ⊆ program.codeOf nesting

/-- A chart knows the frame that a task opens. -/
def Knows (chart : Chart) (task : Task) (machine : Machine) : Prop :=
  ∀ around origin, Opens machine task around origin →
    ∃ found, chart[around.index]? = some found ∧
      chart[machine.store.frames.size]? = some (origin found.nesting)

/-- A task starts as a chart says. -/
structure Fits (program : Program) (chart : Chart) (task : Task) (machine : Machine) : Prop where
  ready : chart.Ready program task machine
  knows : chart.Knows task machine

/-! ## Longer charts -/

theorem getElem?_mono {index : Nat} {origin : Origin} (longer : chart <+: more)
    (found : chart[index]? = some origin) : more[index]? = some origin := by
  obtain ⟨rest, rfl⟩ := longer
  obtain ⟨present, _⟩ := List.getElem?_eq_some_iff.mp found
  rw [List.getElem?_append_left present]
  exact found

theorem Sees.mono (sees : chart.Sees program nesting scope) (longer : chart <+: more) :
    more.Sees program nesting scope := by
  intro address member
  obtain ⟨origin, found, allowed⟩ := sees address member
  exact ⟨origin, getElem?_mono longer found, allowed⟩

theorem Runs.mono (runs : chart.Runs program nesting scope) (longer : chart <+: more) :
    more.Runs program nesting scope where
  head := by
    obtain ⟨address, outer, rfl, found⟩ := runs.head
    exact ⟨address, outer, rfl, getElem?_mono longer found⟩
  nests := runs.nests
  sees := runs.sees.mono longer

theorem Captures.mono {closure : Closure} (captures : chart.Captures program closure)
    (longer : chart <+: more) : more.Captures program closure := by
  obtain ⟨address, outer, origin, shape, found, nests, sees⟩ := captures
  exact ⟨address, outer, origin, shape, getElem?_mono longer found, nests, sees.mono longer⟩

theorem Covers.mono (covers : chart.Covers program store) (longer : chart <+: more) :
    more.Covers program store where
  names bound := by
    obtain ⟨origin, found, allows⟩ := covers.names bound
    exact ⟨origin, getElem?_mono longer found, allows⟩
  closures found := (covers.closures found).mono longer

theorem Ready.mono (ready : chart.Ready program task machine) (longer : chart <+: more) :
    more.Ready program task machine where
  covers := ready.covers.mono longer
  runs given := by
    obtain ⟨nesting, runs, stands⟩ := ready.runs given
    exact ⟨nesting, runs.mono longer, stands⟩

theorem Knows.mono (knows : chart.Knows task machine) (longer : chart <+: more) :
    more.Knows task machine := by
  intro around origin opens
  obtain ⟨found, here, opened⟩ := knows around origin opens
  exact ⟨found, getElem?_mono longer here, getElem?_mono longer opened⟩

theorem Fits.mono (fits : chart.Fits program task machine) (longer : chart <+: more) :
    more.Fits program task machine :=
  ⟨fits.ready.mono longer, fits.knows.mono longer⟩

/-! ## Changes of a store -/

namespace Covers

theorem cells (covers : chart.Covers program store) (frames : other.frames = store.frames)
    (closures : other.closures = store.closures) : chart.Covers program other where
  names bound := by
    rw [Store.frame, frames] at bound
    exact covers.names bound
  closures found := by
    rw [Store.closure?, closures] at found
    exact covers.closures found

theorem addClosure {closure : Closure} (covers : chart.Covers program store)
    (captures : chart.Captures program closure) :
    chart.Covers program (store.addClosure closure).2 where
  names := covers.names
  closures found := by
    rcases Store.closure?_addClosure_eq_some found with old | rfl
    · exact covers.closures old
    · exact captures

theorem putBinding {address : FrameAddress} {name : String} {origin : Origin}
    (covers : chart.Covers program store) (charted : chart[address.index]? = some origin)
    (allows : origin.Allows program name) (binding : Binding) :
    chart.Covers program (store.putBinding address name binding) where
  names {holder key _} bound := by
    by_cases written : holder = address ∧ name = key
    · obtain ⟨rfl, rfl⟩ := written
      exact ⟨origin, charted, allows⟩
    · have kept : ((store.putBinding address name binding).frame holder).lookup key =
          (store.frame holder).lookup key := by
        by_cases same : name = key
        · rw [Store.frame_putBinding_of_ne store fun equal => written ⟨equal, same⟩]
        · exact Store.lookup_putBinding_of_ne store holder address same binding
      rw [kept] at bound
      exact covers.names bound
  closures := covers.closures

theorem declare {name : String} {address : FrameAddress} {outer : Scope} {origin : Origin}
    (covers : chart.Covers program store) (found : chart[address.index]? = some origin)
    (allows : origin.Allows program name) (binding : Binding) :
    chart.Covers program (store.declare (address :: outer) name binding) :=
  covers.putBinding found allows binding

/-- An assignment writes a name that is bound already. -/
theorem assign {name : String} {value : Value} (covers : chart.Covers program store)
    (assigned : store.assign scope name value = .ok other) : chart.Covers program other := by
  obtain ⟨address, binding, nearest, _, rfl⟩ := Store.assign_eq_ok.mp assigned
  obtain ⟨origin, found, allows⟩ := covers.names (Store.nearest?_eq_some nearest).2
  exact covers.putBinding found allows _

/-- A frame that is opened is charted last. -/
theorem addFrame {frame : Frame} {origin : Origin} (covers : chart.Covers program store)
    (counts : chart.length = store.frames.size)
    (allows : ∀ name binding, frame.lookup name = some binding → origin.Allows program name) :
    Covers program (chart ++ [origin]) (store.addFrame frame).2 where
  names {address name binding} bound := by
    have longer : chart <+: chart ++ [origin] := ⟨[origin], rfl⟩
    by_cases before : address.index < store.frames.size
    · rw [Store.frame_addFrame_of_lt store before] at bound
      obtain ⟨found, here, allowed⟩ := covers.names bound
      exact ⟨found, getElem?_mono longer here, allowed⟩
    · by_cases last : address.index = store.frames.size
      · have same : address = ⟨store.frames.size⟩ := by
          cases address
          cases last
          rfl
        subst same
        rw [Store.frame_addFrame] at bound
        refine ⟨origin, ?_, allows name binding bound⟩
        simp [← counts]
      · have empty : (store.addFrame frame).2.frame address = [] := by
          simp [Store.frame, Store.addFrame, Array.getD_eq_getD_getElem?, Array.getElem?_push,
            last, Nat.le_of_not_lt before]
        rw [empty] at bound
        cases bound
  closures found := (covers.closures found).mono ⟨[origin], rfl⟩

end Covers

/-! ## Steps of tasks -/

theorem selfName?_eq_some {function : Function} {name : String}
    (seen : function.selfName? = some name) : function.name = some name := by
  unfold Function.selfName? at seen
  split at seen
  · cases seen
  · exact seen

/-- Code that sees what is bound where it stands sees what is bound in a function there. -/
theorem Sees.inside {function : Function} (sees : chart.Sees program nesting scope) :
    chart.Sees program (function :: nesting) scope := by
  intro address member
  obtain ⟨origin, found, allowed⟩ := sees address member
  exact ⟨origin, found, fun name allows => (allowed name allows).inside⟩

theorem Sees.cons {address : FrameAddress} {origin : Origin}
    (found : chart[address.index]? = some origin)
    (allowed : ∀ name, origin.Allows program name → program.Binds nesting name)
    (sees : chart.Sees program nesting scope) :
    chart.Sees program nesting (address :: scope) := by
  intro other member
  rcases List.mem_cons.mp member with rfl | outer
  · exact ⟨origin, found, allowed⟩
  · exact sees other outer

/-- A closure that is made where code runs sees what is bound in its function. -/
theorem Runs.captures {function : Function} (runs : chart.Runs program nesting scope)
    (stands : .function function ∈ program.codeOf nesting) :
    chart.Captures program ⟨function, scope⟩ := by
  obtain ⟨address, outer, rfl, found⟩ := runs.head
  exact ⟨address, outer, _, rfl, found, .inside runs.nests stands, runs.sees.inside⟩

namespace Fits

variable {function : Function} {name : String}

/-- The frame of a function expression that sees itself. -/
theorem self (fits : chart.Fits program (.evaluate scope (.lambda function)) machine)
    (seen : function.selfName? = some name) (runs : chart.Runs program nesting scope) :
    chart[machine.store.frames.size]? = some (.self function nesting) := by
  obtain ⟨address, outer, rfl, here⟩ := runs.head
  obtain ⟨found, here', opened⟩ := fits.knows _ _ (.self seen)
  cases here.symm.trans here'
  exact opened

/-- The closures that a task makes respect what the chart says. -/
theorem captures (fits : chart.Fits program task machine)
    (makes : task.Makes machine.store.frames.size scope function) :
    chart.Captures program ⟨function, scope⟩ := by
  cases makes with
  | lambda unseen =>
      obtain ⟨nesting, runs, stands⟩ := fits.ready.runs rfl
      refine runs.captures (stands ?_)
      simp [Task.nodes, Expression.nodes, Function.nodes_false]
  | named seen =>
      obtain ⟨nesting, runs, stands⟩ := fits.ready.runs rfl
      have opened := fits.self seen runs
      refine ⟨_, _, _, rfl, opened, .inside runs.nests (stands ?_), ?_⟩
      · simp [Task.nodes, Expression.nodes, Function.nodes_false]
      · refine .cons opened (fun name allows => ?_) runs.sees.inside
        exact Program.binds_own (selfName?_eq_some allows)
  | hoisted member =>
      obtain ⟨nesting, runs, stands⟩ := fits.ready.runs rfl
      refine runs.captures (stands (nodes_subset_of_mem_statements member ?_))
      simp [Statement.nodes, Function.nodes_false]

/-- The names that a task declares are allowed in the frame that they are declared in. -/
theorem allows (fits : chart.Fits program task machine)
    (declares : task.Declares machine.store.frames.size scope name) :
    ∃ address outer origin, scope = address :: outer ∧ chart[address.index]? = some origin ∧
      origin.Allows program name := by
  cases declares with
  | named seen =>
      obtain ⟨nesting, runs, stands⟩ := fits.ready.runs rfl
      exact ⟨_, _, _, rfl, fits.self seen runs, seen⟩
  | @hoisted _ statements function _ member named =>
      obtain ⟨nesting, runs, stands⟩ := fits.ready.runs rfl
      obtain ⟨address, outer, rfl, here⟩ := runs.head
      refine ⟨address, outer, _, rfl, here, ?_⟩
      have among : .statement (.declare function) ∈ nodesOfStatements false statements :=
        nodes_subset_of_mem_statements member List.mem_cons_self
      exact Program.binds_declared (stands among) (by simp [Statement.ownNames, named])
  | «variable» member =>
      obtain ⟨nesting, runs, stands⟩ := fits.ready.runs rfl
      obtain ⟨address, outer, rfl, here⟩ := runs.head
      exact ⟨address, outer, _, rfl, here, Program.binds_declared (stands List.mem_cons_self) member⟩
  | loopVariable member =>
      obtain ⟨nesting, runs, stands⟩ := fits.ready.runs rfl
      obtain ⟨address, outer, rfl, here⟩ := runs.head
      obtain ⟨found, here', opened⟩ := fits.knows _ _ .loop
      cases here.symm.trans here'
      exact ⟨_, _, _, rfl, opened, Program.binds_declared (stands List.mem_cons_self) member⟩

/-- What a task changes itself leaves the store covered. -/
theorem change {other : Store} (fits : chart.Fits program task machine)
    (change : Change task machine.store.frames.size store other)
    (covers : chart.Covers program store) :
    chart.Covers program other ∧ other.frames.size = store.frames.size := by
  cases change with
  | cells frames closures => exact ⟨covers.cells frames closures, by rw [frames]⟩
  | makes makes => exact ⟨covers.addClosure (fits.captures makes), rfl⟩
  | declares binding declares =>
      obtain ⟨address, outer, origin, rfl, here, allows⟩ := fits.allows declares
      exact ⟨covers.declare here allows binding, Store.size_declare _ _ _ _⟩
  | assigns assigned => exact ⟨covers.assign assigned, Store.size_assign assigned⟩

/-- Where a task runs code in a frame of its own, the code runs there as it does around it. -/
theorem block {around : Scope} (fits : chart.Fits program task machine)
    (blocks : task.isBlock = true) (located : task.scope? = some around)
    (runs : chart.Runs program nesting around) :
    chart.Runs program nesting (⟨machine.store.frames.size⟩ :: around) := by
  obtain ⟨address, outer, rfl, here⟩ := runs.head
  have opened : chart[machine.store.frames.size]? = some (.code nesting) := by
    unfold Task.isBlock at blocks
    split at blocks
    case h_1 =>
      cases located
      obtain ⟨found, here', opened⟩ := fits.knows _ _ .block
      cases here.symm.trans here'
      exact opened
    case h_2 =>
      cases located
      obtain ⟨found, here', opened⟩ := fits.knows _ _ .loop
      cases here.symm.trans here'
      exact opened
    case h_3 => cases blocks
  exact ⟨⟨_, _, rfl, opened⟩, runs.nests, .cons opened (fun _ => id) runs.sees⟩

/-- The code of a function that is called runs where the function stands. -/
theorem enters {address : ClosureAddress} {closure : Closure} {receiver : Value}
    {arguments : List Value}
    (fits : chart.Fits program (.call (.closure address) receiver arguments) machine)
    (found : machine.store.closure? address = some closure)
    (supported : unsupportedKind? closure.function = none)
    (shallow : machine.depth < machine.depthLimit) :
    ∃ outer, chart.Runs program (closure.function :: outer)
      (⟨machine.store.frames.size⟩ :: closure.scope) := by
  obtain ⟨around, rest, origin, shape, here, nests, sees⟩ := fits.ready.covers.closures found
  obtain ⟨function, scope⟩ := closure
  cases shape
  obtain ⟨found', here', opened⟩ := fits.knows _ _ (.call found supported shallow)
  cases here.symm.trans here'
  exact ⟨origin.nesting, ⟨_, _, rfl, opened⟩, nests, .cons opened (fun _ => id) sees⟩

/-- The parts of a task that starts as a chart says are ready to start, once it is their turn. -/
theorem part {fuel : Nat} (fits : chart.Fits program task machine)
    (part : Part fuel task machine next start) (covers : chart.Covers program start.store) :
    chart.Ready program next start where
  covers := covers
  runs {inner} goesOn := by
    cases located : task.scope? with
    | some around =>
        obtain ⟨nesting, runs, stands⟩ := fits.ready.runs located
        have within := List.Subset.trans (part.nodes located) stands
        rcases part.runsIn located goesOn with rfl | ⟨blocks, rfl⟩
        · exact ⟨nesting, runs, within⟩
        · exact ⟨nesting, fits.block blocks located runs, within⟩
    | none =>
        cases part with
        | initialized => cases goesOn
        | entered found supported shallow body =>
            cases goesOn
            obtain ⟨outer, runs⟩ := fits.enters found supported shallow
            refine ⟨_, runs, ?_⟩
            rw [Program.codeOf_inside, body, FunctionBody.nodes]
            exact List.Subset.refl _
        | answered found supported shallow body =>
            cases goesOn
            obtain ⟨outer, runs⟩ := fits.enters found supported shallow
            refine ⟨_, runs, ?_⟩
            rw [Program.codeOf_inside, body, FunctionBody.nodes]
            exact List.Subset.refl _
        | _ => cases located

end Fits

end Chart

end Covenant.Machine
