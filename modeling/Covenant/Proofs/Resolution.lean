import Covenant.Proofs.Chart
import Covenant.Proofs.Session

/-!
# Names that code resolves

Every run has one chart.  The code of a task then belongs to one place of the
program, and finds under a name only what is bound around that place: a scope
stack that has no binding of a name for a function is right that no code of the
function, wherever it is run, resolves the name.
-/

namespace Covenant.Machine

/--
A frame belongs to the code that it was opened for: the first one to the top
level, and each frame that a task opens to the code that the task opens it for.
-/
inductive Belongs (performed : Task → Machine → Prop) : FrameAddress → Nesting → Prop where
  | topLevel : Belongs performed ⟨0⟩ []
  | opened {task : Task} {start : Machine} {around : FrameAddress} {origin : Nesting → Origin}
      {nesting : Nesting} :
      performed task start → Opens start task around origin → Belongs performed around nesting →
        Belongs performed ⟨start.store.frames.size⟩ (origin nesting).nesting

namespace Chart

variable {program : Program} {performed : Task → Machine → Prop} {chart more : Chart}
  {nesting : Nesting} {scope : Scope} {store other : Store} {machine start : Machine}
  {task next : Task} {fuel less : Nat}

/-- A chart of a store, as far as a run has come. -/
structure Tracks (program : Program) (performed : Task → Machine → Prop) (chart : Chart)
    (store : Store) : Prop where
  covers : chart.Covers program store
  counts : chart.length = store.frames.size
  belongs {index : Nat} {origin : Origin} :
    chart[index]? = some origin → Belongs performed ⟨index⟩ origin.nesting

theorem Opens.unique {around around' : FrameAddress} {origin origin' : Nesting → Origin}
    (opens : Opens machine task around origin) (opens' : Opens machine task around' origin') :
    around = around' ∧ origin = origin' := by
  cases opens with
  | block | loop | self =>
      cases opens'
      exact ⟨rfl, rfl⟩
  | call found =>
      cases opens' with
      | call found' =>
          cases found.symm.trans found'
          exact ⟨rfl, rfl⟩

/-- The frame of a call holds the receiver and what the function binds. -/
theorem binds_callFrame {function : Function} {receiver : Value} {arguments : List Value}
    {name : String} {binding : Binding}
    (bound : (callFrame function receiver arguments).lookup name = some binding) :
    program.Binds (function :: nesting) name := by
  by_cases special : name = "this"
  · exact .inl special
  · refine Program.binds_parameter ?_
    by_contra free
    rw [lookup_callFrame receiver arguments special free] at bound
    cases bound

/-- The chart of a store with a frame that a task opens. -/
theorem Tracks.opened {around : FrameAddress} {origin : Nesting → Origin} {site : Origin}
    {frame : Frame} (tracks : chart.Tracks program performed machine.store)
    (ready : chart.Ready program task machine) (here : performed task machine)
    (opens : Opens machine task around origin) (found : chart[around.index]? = some site)
    (entry : (task.entry machine).store = (machine.store.addFrame frame).2)
    (allows : ∀ name binding, frame.lookup name = some binding →
      (origin site.nesting).Allows program name) :
    ∃ more : Chart, chart <+: more ∧ more.Fits program task machine ∧
      more.Tracks program performed (task.entry machine).store := by
  have longer : chart <+: chart ++ [origin site.nesting] := ⟨_, rfl⟩
  have last : (chart ++ [origin site.nesting])[machine.store.frames.size]? =
      some (origin site.nesting) := by
    simp [← tracks.counts]
  refine ⟨_, longer, ⟨ready.mono longer, ?_⟩, ?_, ?_, ?_⟩
  · intro around' origin' opens'
    obtain ⟨rfl, rfl⟩ := Opens.unique opens opens'
    exact ⟨site, getElem?_mono longer found, last⟩
  · rw [entry]
    exact tracks.covers.addFrame tracks.counts allows
  · rw [entry, Store.size_addFrame, ← tracks.counts, List.length_append]
    rfl
  · intro index origin' charted
    by_cases before : index < chart.length
    · rw [List.getElem?_append_left before] at charted
      exact tracks.belongs charted
    · obtain ⟨present, _⟩ := List.getElem?_eq_some_iff.mp charted
      have same : index = machine.store.frames.size := by
        rw [List.length_append, List.length_singleton] at present
        have counts := tracks.counts
        omega
      subst same
      cases last.symm.trans charted
      exact .opened here opens (tracks.belongs found)

theorem Tracks.unopened (tracks : chart.Tracks program performed machine.store)
    (ready : chart.Ready program task machine)
    (closed : ∀ around origin, ¬ Opens machine task around origin)
    (entry : task.entry machine = machine) :
    ∃ more : Chart, chart <+: more ∧ more.Fits program task machine ∧
      more.Tracks program performed (task.entry machine).store := by
  rw [entry]
  exact ⟨chart, ⟨[], List.append_nil _⟩, ⟨ready, fun _ _ opens => absurd opens (closed _ _)⟩, tracks⟩

/-- A task that is ready begins with its parts as a chart says that knows the frame it opens. -/
theorem Tracks.enter (tracks : chart.Tracks program performed machine.store)
    (ready : chart.Ready program task machine) (here : performed task machine) :
    ∃ more : Chart, chart <+: more ∧ more.Fits program task machine ∧
      more.Tracks program performed (task.entry machine).store := by
  cases task with
  | evaluate scope expression =>
      cases expression with
      | lambda function =>
          obtain ⟨nesting, runs, stands⟩ := ready.runs rfl
          obtain ⟨around, outer, rfl, found⟩ := runs.head
          cases seen : function.selfName? with
          | none =>
              refine tracks.unopened ready ?_ (by simp [Task.entry, seen])
              intro around origin opens
              cases opens with
              | self seen' => cases seen.symm.trans seen'
          | some name =>
              have entry : ((Task.evaluate (around :: outer) (.lambda function)).entry
                  machine).store = (machine.store.addFrame []).2 := by
                simp [Task.entry, seen, enterFrame]
              exact tracks.opened ready here (.self seen) found entry (by simp)
      | _ => exact tracks.unopened ready (fun _ _ opens => by cases opens) rfl
  | execute scope label statement =>
      obtain ⟨nesting, runs, stands⟩ := ready.runs rfl
      obtain ⟨around, outer, rfl, found⟩ := runs.head
      cases statement with
      | block statements => exact tracks.opened ready here .block found rfl (by simp)
      | forLoop init test step body =>
          exact tracks.opened ready here .loop found rfl (by simp)
      | _ => exact tracks.unopened ready (fun _ _ opens => by cases opens) rfl
  | call callee receiver arguments =>
      cases callee with
      | closure address =>
          by_cases begins : ∃ closure, machine.store.closure? address = some closure ∧
              unsupportedKind? closure.function = none ∧ machine.depth < machine.depthLimit
          · obtain ⟨⟨function, scope⟩, found, supported, shallow⟩ := begins
            obtain ⟨around, outer, origin, rfl, site, nests, sees⟩ := ready.covers.closures found
            have entry : ((Task.call (.closure address) receiver arguments).entry machine).store =
                (machine.store.addFrame (callFrame function receiver arguments)).2 := by
              simp [Task.entry, found, supported, shallow, beginCall]
            refine tracks.opened ready here (.call found supported shallow) site entry ?_
            exact fun name binding bound => binds_callFrame bound
          · refine tracks.unopened ready ?_ ?_
            · intro around origin opens
              cases opens with
              | call found supported shallow => exact begins ⟨_, found, supported, shallow⟩
            · cases found : machine.store.closure? address with
              | none => simp [Task.entry, found]
              | some closure =>
                  have closed : ¬ (unsupportedKind? closure.function = none ∧
                      machine.depth < machine.depthLimit) :=
                    fun given => begins ⟨closure, found, given⟩
                  simp [Task.entry, found, closed]
      | _ => exact tracks.unopened ready (fun _ _ opens => by cases opens) rfl
  | construct | executeAll | rounds => exact tracks.unopened ready (fun _ _ opens => by cases opens) rfl

/-! ## Charts of whole runs -/

/-- What a chart says of a task that is performed; one without fuel opens no frame. -/
def Tells (program : Program) (chart : Chart) (less : Nat) (task : Task) (machine : Machine) :
    Prop :=
  chart.Ready program task machine ∧ (less ≠ 0 → chart.Knows task machine)

theorem Tells.mono (tells : chart.Tells program less task machine) (longer : chart <+: more) :
    more.Tells program less task machine :=
  ⟨tells.1.mono longer, fun some => (tells.2 some).mono longer⟩

/-- A chart that tracks a task tells of all that is performed in the course of it. -/
def Charted (program : Program) (performed : Task → Machine → Prop) (fuel : Nat) (task : Task)
    (machine : Machine) : Prop :=
  (∀ less inner start, Performs (less + 1) inner start fuel task machine → performed inner start) →
    ∀ chart : Chart, chart.Tracks program performed machine.store →
      chart.Ready program task machine →
        ∃ more : Chart, chart <+: more ∧
          more.Tracks program performed ((task.perform fuel).leaves machine).store ∧
            ∀ less inner start, Performs less inner start fuel task machine →
              more.Tells program less inner start

/-- Without fuel nothing is opened. -/
theorem charted_zero (task : Task) : Charted program performed 0 task machine := by
  intro _ chart tracks ready
  have same : ((task.perform 0).leaves machine) = machine := by
    cases task <;> rfl
  refine ⟨chart, ⟨[], List.append_nil _⟩, ?_, ?_⟩
  · rw [same]
    exact tracks
  · intro less inner start performs
    cases performs
    exact ⟨ready, fun some => absurd rfl some⟩

/-- Along a trace of a task that starts as a chart says, the chart grows with the parts. -/
theorem Tracks.trace {steps : List (Task × Machine)} {from' final : Machine}
    (parts : ∀ next start, Charted program performed fuel next start)
    (trace : Trace fuel task machine.store.frames.size from' steps final)
    (all : ∀ next start, (next, start) ∈ steps → Part fuel task machine next start ∧
      ∀ less inner begun, Performs (less + 1) inner begun fuel next start → performed inner begun) :
    ∀ chart : Chart, chart.Tracks program performed from'.store → chart.Fits program task machine →
      ∃ more : Chart, chart <+: more ∧ more.Tracks program performed final.store ∧
        ∀ next start, (next, start) ∈ steps → ∀ less inner begun,
          Performs less inner begun fuel next start → more.Tells program less inner begun := by
  induction trace with
  | done =>
      intro chart tracks _
      exact ⟨chart, ⟨[], List.append_nil _⟩, tracks, nofun⟩
  | change changed _ induction =>
      intro chart tracks fits
      obtain ⟨covers, size⟩ := fits.change changed tracks.covers
      exact induction all chart ⟨covers, tracks.counts.trans size.symm, tracks.belongs⟩ fits
  | @part from' final next steps _ induction =>
      intro chart tracks fits
      obtain ⟨part, performs⟩ := all next from' List.mem_cons_self
      obtain ⟨between, longer, reached, tells⟩ :=
        parts next from' performs chart tracks (fits.part part tracks.covers)
      obtain ⟨more, longest, ended, tellsMore⟩ := induction
        (fun other start member => all other start (List.mem_cons_of_mem _ member)) between reached
        (fits.mono longer)
      refine ⟨more, longer.trans longest, ended, ?_⟩
      intro other start member less inner begun performs
      rcases List.mem_cons.mp member with same | later
      · cases same
        exact (tells less inner begun performs).mono longest
      · exact tellsMore other start later less inner begun performs

theorem charted_succ (parts : ∀ next start, Charted program performed fuel next start)
    (task : Task) (machine : Machine) : Charted program performed (fuel + 1) task machine := by
  intro performs chart tracks ready
  obtain ⟨begun, longer, fits, entered⟩ := tracks.enter ready (performs fuel task machine .itself)
  obtain ⟨steps, trace, exactly⟩ := task.unfolds fuel machine
  obtain ⟨more, longest, ended, tells⟩ := Tracks.trace parts trace
    (fun next start member =>
      ⟨(exactly next start).mp member, fun less inner begun within =>
        performs less inner begun (.part ((exactly next start).mp member) within)⟩)
    begun entered fits
  refine ⟨more, longer.trans longest, ended, ?_⟩
  intro less inner start within
  cases within with
  | itself => exact ⟨fits.ready.mono longest, fun _ => fits.knows.mono longest⟩
  | part part within =>
      exact tells _ _ ((exactly _ _).mpr part) less inner start within

/-- Every task that is ready to start has a chart of all that is performed for it. -/
theorem charted : (fuel : Nat) → ∀ task machine, Charted program performed fuel task machine
  | 0, task, _ => charted_zero task
  | fuel + 1, task, machine => charted_succ (charted fuel) task machine

/-- A chart that knows all frames that are opened says where each of them belongs. -/
theorem of_belongs {address : FrameAddress} (first : chart[0]? = some (.code []))
    (knows : ∀ task start, performed task start → chart.Knows task start)
    (belongs : Belongs performed address nesting) :
    ∃ origin, chart[address.index]? = some origin ∧ origin.nesting = nesting := by
  induction belongs with
  | topLevel => exact ⟨_, first, rfl⟩
  | opened here opens _ induction =>
      obtain ⟨site, charted, rfl⟩ := induction
      obtain ⟨site', charted', opened⟩ := knows _ _ here _ _ opens
      cases charted.symm.trans charted'
      exact ⟨_, opened, rfl⟩

/-- Code that a store is charted for finds only names that are bound where it stands. -/
theorem Covers.lookup? {name : String} (covers : chart.Covers program store)
    (sees : chart.Sees program nesting scope) (unbound : ¬ program.Binds nesting name) :
    store.lookup? scope name = none := by
  cases nearest : store.nearest? name scope with
  | none => rw [Store.lookup?, nearest, Option.map_none]
  | some found =>
      obtain ⟨member, bound⟩ := Store.nearest?_eq_some nearest
      obtain ⟨origin, charted, allowed⟩ := sees _ member
      obtain ⟨origin', charted', allows⟩ := covers.names bound
      cases charted.symm.trans charted'
      exact absurd (allowed name allows) unbound

end Chart

/-! ## Runs of programs -/

section

variable {program : Program} {fuel less depthLimit : Nat} {called : String}
  {arguments : List Json} {task : Task} {start : Machine} {scope : Scope}

/-- A task that is performed, with fuel left, when a program is run from a fresh machine on. -/
def Performed (program : Program) (fuel depthLimit : Nat) (called : String)
    (arguments : List Json) (task : Task) (start : Machine) : Prop :=
  ∃ less, PerformsInRun (less + 1) task start fuel program called arguments (fresh depthLimit)

/-- Code that runs in a scope is code of the place that the innermost frame belongs to. -/
def RunsAt (program : Program) (fuel depthLimit : Nat) (called : String) (arguments : List Json)
    (scope : Scope) (nesting : Nesting) : Prop :=
  ∃ address outer, scope = address :: outer ∧
    Belongs (Performed program fuel depthLimit called arguments) address nesting

/-- The names of the global frame are bound in every program. -/
theorem mem_builtinNames {console : Value} {name : String} {binding : Binding}
    (bound : (globalFrame console).lookup name = some binding) : name ∈ builtinNames := by
  by_contra other
  simp only [builtinNames, List.mem_cons, List.not_mem_nil, or_false, not_or] at other
  simp [globalFrame, List.lookup_cons, beq_eq_false_iff_ne.mpr, other] at bound

/-- The chart of a machine that has run nothing yet. -/
theorem tracks_fresh {performed : Task → Machine → Prop} :
    Chart.Tracks program performed [.code []] (fresh depthLimit).store where
  covers :=
    { names := by
        rintro ⟨index⟩ name binding bound
        cases index with
        | zero => exact ⟨_, rfl, .inr (.inl (mem_builtinNames bound))⟩
        | succ index => cases bound
      closures := nofun }
  counts := rfl
  belongs {index origin} charted := by
    cases index with
    | zero =>
        cases charted
        exact .topLevel
    | succ index => cases charted

/-- The top level of a program is ready to start in a fresh machine. -/
theorem ready_fresh :
    Chart.Ready program [.code []] (.executeAll globalScope program.statements)
      (fresh depthLimit) where
  covers := (@tracks_fresh program depthLimit fun _ _ => False).covers
  runs given := by
    cases given
    refine ⟨[], ⟨⟨_, _, rfl, rfl⟩, .topLevel, ?_⟩, List.Subset.refl _⟩
    intro address member
    rw [List.mem_singleton.mp member]
    exact ⟨_, rfl, fun _ => id⟩

/-- Receiving arguments opens no frame and makes no closure. -/
theorem Chart.Tracks.receive {performed : Task → Machine → Prop} {chart : Chart}
    {loaded received : Machine} {values : List Value}
    (tracks : chart.Tracks program performed loaded.store)
    (given : receive arguments loaded = .ok values received) :
    chart.Tracks program performed received.store := by
  cases given
  obtain ⟨frames, closures⟩ := Value.growsCells_ofElements loaded.store arguments
  exact ⟨tracks.covers.cells frames closures, by rw [tracks.counts, frames], tracks.belongs⟩

/-- Loading a program leaves what its top level leaves. -/
theorem leaves_of_load {machine loaded : Machine} (ended : load fuel program machine = .ok () loaded) :
    (executeAll fuel globalScope program.statements).leaves machine = loaded := by
  obtain ⟨completion, between, executed, passed⟩ := Action.bind_eq_ok.mp ended
  rw [Action.leaves_of_ok executed]
  cases completion with
  | finished | returned =>
      cases passed
      rfl
  | broken | continued => cases passed

/-- Every run of a program has a chart that tells of all that is performed in it. -/
theorem exists_chart (program : Program) (fuel depthLimit : Nat) (called : String)
    (arguments : List Json) :
    ∃ chart : Chart, chart[0]? = some (.code []) ∧
      (∀ index origin, chart[index]? = some origin →
        Belongs (Performed program fuel depthLimit called arguments) ⟨index⟩ origin.nesting) ∧
      ∀ less task start,
        PerformsInRun less task start fuel program called arguments (fresh depthLimit) →
          chart.Tells program less task start := by
  obtain ⟨chart, longer, tracks, loading⟩ :=
    Chart.charted fuel (.executeAll globalScope program.statements) (fresh depthLimit)
      (fun less _ _ performs => ⟨less, .loading performs⟩) [.code []]
      (@tracks_fresh program depthLimit (Performed program fuel depthLimit called arguments))
      ready_fresh
  by_cases calls : ∃ loaded values received callee,
      load fuel program (fresh depthLimit) = .ok () loaded ∧
        receive arguments loaded = .ok values received ∧
          received.store.lookup? globalScope called = some callee ∧ callee.isCallable = true
  · obtain ⟨loaded, values, received, callee, ended, given, found, callable⟩ := calls
    have left : ((Task.executeAll globalScope program.statements).perform fuel).leaves
        (fresh depthLimit) = loaded := leaves_of_load ended
    rw [left] at tracks
    have ready : chart.Ready program (.call callee .undefined values) received :=
      ⟨(tracks.receive given).covers, nofun⟩
    obtain ⟨more, longest, tracks, calling⟩ :=
      Chart.charted fuel (.call callee .undefined values) received
        (fun less _ _ performs => ⟨less, .calling ended given found callable performs⟩) chart
        (tracks.receive given) ready
    refine ⟨more, Chart.getElem?_mono (longer.trans longest) rfl, fun _ _ => tracks.belongs, ?_⟩
    intro less task start performs
    cases performs with
    | loading performs => exact (loading less task start performs).mono longest
    | calling ended' given' found' callable' performs =>
        cases ended.symm.trans ended'
        cases given.symm.trans given'
        cases found.symm.trans found'
        exact calling less task start performs
  · refine ⟨chart, Chart.getElem?_mono longer rfl, fun _ _ => tracks.belongs, ?_⟩
    intro less task start performs
    cases performs with
    | loading performs => exact loading less task start performs
    | calling ended given found callable _ =>
        exact (calls ⟨_, _, _, _, ended, given, found, callable⟩).elim

/--
What is performed in a run of a program is code of one place: of the innermost
function of a nesting, or of the top level.  It is written there, outside the
functions nested in it, and it resolves no name but the receiver, those of the
global frame, and those that the scope stack of that place binds.
-/
theorem resolves_only_bound
    (performs : PerformsInRun less task start fuel program called arguments (fresh depthLimit))
    (runs : task.scope? = some scope) :
    ∃ nesting,
      (∀ other, RunsAt program fuel depthLimit called arguments scope other ↔ other = nesting) ∧
      program.Nests nesting ∧ task.nodes ⊆ program.codeOf nesting ∧
        ∀ name, name ≠ "this" → name ∉ builtinNames →
          (program.scopesAt nesting).isBound name = false →
            start.store.lookup? scope name = none := by
  obtain ⟨chart, first, belongs, tells⟩ :=
    exists_chart program fuel depthLimit called arguments
  obtain ⟨ready, _⟩ := tells less task start performs
  obtain ⟨nesting, located, stands⟩ := ready.runs runs
  obtain ⟨address, outer, rfl, charted⟩ := located.head
  refine ⟨nesting, ?_, located.nests, stands, ?_⟩
  · intro other
    constructor
    · rintro ⟨_, _, same, belongs'⟩
      cases same
      have knows : ∀ task start, Performed program fuel depthLimit called arguments task start →
          chart.Knows task start :=
        fun task start ⟨less, performs⟩ => (tells _ _ _ performs).2 (Nat.succ_ne_zero less)
      obtain ⟨origin, charted', rfl⟩ := Chart.of_belongs first knows belongs'
      cases charted.symm.trans charted'
      rfl
    · rintro rfl
      exact ⟨address, outer, rfl, belongs _ _ charted⟩
  · intro name receiver builtin unbound
    refine ready.covers.lookup? located.sees ?_
    rintro (special | global | bound)
    · exact receiver special
    · exact builtin global
    · rw [unbound] at bound
      cases bound

end

/-- A function that gives back what it is given. -/
def identity : Function :=
  ⟨none, ["y"], .result (.identifier "y"), true, false, false⟩

/-- A function that calls one that is nested in it. -/
def caller : Function :=
  ⟨some "f", ["x"], .block [.giveBack (some (.call (.lambda identity) [.identifier "x"]))], false,
    false, false⟩

/-- The machine in which the outer function has been called. -/
def inCaller : Machine :=
  ((load 10 ⟨[.declare caller]⟩).leaves (fresh 64)).beginCall (callFrame caller .undefined [])

/-- The machine in which the inner function is called. -/
def atIdentity : Machine :=
  (evaluate 6 [⟨1⟩, ⟨0⟩] (.lambda identity)).leaves inCaller

/-- The machine in which the inner function has been called. -/
def inIdentity : Machine :=
  atIdentity.beginCall (callFrame identity .undefined [.undefined])

/-- What is performed for the inner function is performed in a run of the program. -/
theorem performs_identity {less : Nat} {inner : Task} {start : Machine}
    (performs : Performs less inner start 6 (.call (.closure ⟨1⟩) .undefined [.undefined])
      atIdentity) :
    PerformsInRun less inner start 10 ⟨[.declare caller]⟩ "f" [] (fresh 64) := by
  have loads : load 10 ⟨[.declare caller]⟩ (fresh 64) =
      .ok () ((load 10 ⟨[.declare caller]⟩).leaves (fresh 64)) := rfl
  refine .calling loads rfl rfl rfl (.part (.entered rfl rfl (Nat.zero_lt_succ 63) rfl) ?_)
  refine .part (@Part.statement _ _ [] _ _ _ _ _ rfl rfl) (.part (.subject rfl) (.part ?_ performs))
  exact .called rfl rfl rfl

/-- The frame of the call of the inner function belongs to the inner function. -/
theorem belongs_identity :
    Belongs (Performed ⟨[.declare caller]⟩ 10 64 "f" []) ⟨2⟩ [identity, caller] := by
  have loads : load 10 ⟨[.declare caller]⟩ (fresh 64) =
      .ok () ((load 10 ⟨[.declare caller]⟩).leaves (fresh 64)) := rfl
  have callsCaller : Performed ⟨[.declare caller]⟩ 10 64 "f" [] (.call (.closure ⟨0⟩) .undefined [])
      ((load 10 ⟨[.declare caller]⟩).leaves (fresh 64)) :=
    ⟨9, .calling loads rfl rfl rfl .itself⟩
  have callsIdentity : Performed ⟨[.declare caller]⟩ 10 64 "f" []
      (.call (.closure ⟨1⟩) .undefined [.undefined]) atIdentity :=
    ⟨5, performs_identity .itself⟩
  have outer : Belongs (Performed ⟨[.declare caller]⟩ 10 64 "f" []) ⟨1⟩ [caller] :=
    .opened callsCaller (.call rfl rfl (Nat.zero_lt_succ 63)) .topLevel
  exact .opened callsIdentity (.call rfl rfl (Nat.lt_of_sub_pos (Nat.zero_lt_succ 62))) outer

theorem resolves_only_bound_identity :
    PerformsInRun 5 (.evaluate [⟨2⟩, ⟨1⟩, ⟨0⟩] (.identifier "y")) inIdentity 10
        ⟨[.declare caller]⟩ "f" [] (fresh 64) ∧
      RunsAt ⟨[.declare caller]⟩ 10 64 "f" [] [⟨2⟩, ⟨1⟩, ⟨0⟩] [identity, caller] ∧
        inIdentity.store.lookup? [⟨2⟩, ⟨1⟩, ⟨0⟩] "z" = none := by
  have performs : PerformsInRun 5 (.evaluate [⟨2⟩, ⟨1⟩, ⟨0⟩] (.identifier "y")) inIdentity 10
      ⟨[.declare caller]⟩ "f" [] (fresh 64) :=
    performs_identity (.part (.answered rfl rfl (by decide) rfl) .itself)
  have located : RunsAt ⟨[.declare caller]⟩ 10 64 "f" [] [⟨2⟩, ⟨1⟩, ⟨0⟩] [identity, caller] :=
    ⟨_, _, rfl, belongs_identity⟩
  obtain ⟨nesting, only, _, _, unbound⟩ := resolves_only_bound performs rfl
  cases (only _).mp located
  exact ⟨performs, located, unbound "z" (by decide) (by decide) (by decide)⟩

end Covenant.Machine
