import Covenant.Proofs.Departure
import Covenant.Proofs.Watched

/-!
# Watched statements at run time

A list of statements that brings helpers is run under their watch.  The
conditions of each helper are checked in front of everything else in the list.
They are checked once more, and nothing is executed after that, where the list
is left at its end and where it is left by a return, from whatever depth.
-/

namespace Covenant.Contract

open Machine

/-! ## Checks in several scopes -/

/-- Conditions that are to be checked in a scope. -/
structure Watch where
  home : Scope
  tests : List Expression

/-- Checks of conditions one after the other, all of the same value. -/
inductive ChecksThrough (parameter : String) (value : Value) :
    List Watch → Machine → Machine → Prop where
  | done (machine : Machine) : ChecksThrough parameter value [] machine machine
  | next {watch : Watch} {rest : List Watch} {machine between after : Machine} :
      Checked parameter watch.home watch.tests value machine between →
        ChecksThrough parameter value rest between after →
          ChecksThrough parameter value (watch :: rest) machine after

/-- A helper attends to a watch: it checks the conditions, and its name means it. -/
structure Attends (parameter : String) (scope : Scope) (store : Store) (checker : Checker)
    (watch : Watch) : Prop where
  checks : ∃ found, checker.Checks found ∧ watch.tests = found.map Condition.test
  reaches : Reaches checker parameter watch.home scope store

section

variable {parameter : String} {scope : Scope} {fuel : Nat} {label : Option String}
  {machine after : Machine}

/-- A returned value that passes through helpers is checked by each of them. -/
theorem checksThrough_of_returnedValue
    {through : List Checker} {watches : List Watch}
    (attend : List.Forall₂ (Attends parameter scope machine.store) through watches) :
    ∀ {argument : Option Expression} {value : Value},
      returnedValue (evaluate fuel scope) (passed through argument) machine = .ok value after →
        ∃ less between,
          returnedValue (evaluate less scope) argument machine = .ok value between ∧
            ChecksThrough parameter value watches between after := by
  induction attend with
  | nil => exact fun outcome => ⟨fuel, after, outcome, .done after⟩
  | @cons checker watch through watches first rest induction =>
      intro argument value outcome
      obtain ⟨less, middle, called, others⟩ := induction outcome
      obtain ⟨⟨found, checks, tests⟩, reaches⟩ := first
      cases less with
      | zero => cases called
      | succ less =>
          obtain ⟨between, evaluated, checked⟩ := checked_of_evaluate checks reaches called
          rw [← tests] at checked
          refine ⟨less, between, ?_, .next checked others⟩
          cases argument with
          | some given => exact evaluated
          | none =>
              cases less with
              | zero => cases evaluated
              | succ less =>
                  cases evaluated
                  rfl

/-- Checks at the end of statements are performed one after the other. -/
theorem checksThrough_of_checks
    {checkers : List Checker} {watches : List Watch} {completion : Completion} :
    ∀ {machine : Machine},
      List.Forall₂ (Attends parameter scope machine.store) checkers watches →
        inTurn (execute fuel scope none) (checksOf checkers) machine = .ok completion after →
          completion = .finished ∧ ChecksThrough parameter .undefined watches machine after := by
  induction checkers generalizing watches with
  | nil =>
      intro machine attend outcome
      cases attend
      cases outcome
      exact ⟨rfl, .done _⟩
  | cons checker rest induction =>
      intro machine attend outcome
      cases attend with
      | @cons _ _ _ watches first others =>
          rw [checksOf, List.map_cons, inTurn] at outcome
          obtain ⟨step, between, checked, outcome⟩ := Action.bind_eq_ok.mp outcome
          obtain ⟨⟨found, checks, tests⟩, reaches⟩ := first
          obtain ⟨rfl, passes⟩ := checked_of_check checks reaches checked
          rw [← tests] at passes
          have still : List.Forall₂ (Attends parameter scope between.store) rest watches := by
            refine others.imp fun other watch attends => ⟨attends.checks, ?_⟩
            exact attends.reaches.after_execute (avoiding_check checker) checked
          obtain ⟨finished, more⟩ := induction still outcome
          exact ⟨finished, .next passes more⟩

end

/-! ## Helpers that are posted -/

/-- Helpers attend to watches, some of which are given, under names that no source knows. -/
structure Posted (parameter : String) (names : List String) (base : List Watch) (scope : Scope)
    (store : Store) (force : List Checker) (watches : List Watch) : Prop where
  wellScoped : store.WellScoped
  sees : store.Sees scope
  attend : List.Forall₂ (Attends parameter scope store) force watches
  unknown : ∀ checker ∈ force, checker.name ∉ names
  among : base ⊆ watches

section

variable {parameter : String} {names : List String} {base : List Watch} {scope : Scope}
  {force : List Checker} {watches : List Watch} {made : List (List Checker)}

section

variable (unknown : ∀ checker ∈ force, checker.name ∉ names)

include unknown

/-- A watched statement does not declare the helpers that are in force around it. -/
theorem Watched.avoidsForce {statement : Statement}
    (watched : Watched parameter names force made statement) :
    (avoiding (· ∈ force.map Checker.name)).OnStatement statement := by
  refine watched.avoids ?_ fun checker member => (watched.unlike checker member).2
  intro name taken
  obtain ⟨checker, inForce, rfl⟩ := List.mem_map.mp taken
  exact unknown checker inForce

theorem WatchedList.avoidsForce {last : List Checker} {statements : List Statement}
    (watched : WatchedList parameter names force last made statements) :
    (avoiding (· ∈ force.map Checker.name)).OnStatements statements := by
  refine watched.avoids ?_ fun checker member => (watched.unlike checker member).2
  intro name taken
  obtain ⟨checker, inForce, rfl⟩ := List.mem_map.mp taken
  exact unknown checker inForce

theorem WatchedAll.avoidsForce {statements : List Statement}
    (watched : WatchedAll parameter names force made statements) :
    (avoiding (· ∈ force.map Checker.name)).OnStatements statements := by
  refine watched.avoids ?_ fun checker member => (watched.unlike checker member).2
  intro name taken
  obtain ⟨checker, inForce, rfl⟩ := List.mem_map.mp taken
  exact unknown checker inForce

end

namespace Posted

variable {α : Type} {machine final : Machine}
  (posted : Posted parameter names base scope machine.store force watches)

include posted

/-- Whatever declares no names of helpers leaves them posted. -/
theorem after {action : Action α} {result : α}
    (keeps : ∀ regime : Regime, (∀ name, name ∉ force.map Checker.name → regime.may scope name) →
      regime.Keeps scope action)
    (outcome : action machine = .ok result final) :
    Posted parameter names base scope final.store force watches where
  wellScoped := (keeps scoping (fun _ _ => trivial) machine result final posted.wellScoped
    posted.sees outcome).1
  sees := posted.sees.mono (keeps scoping (fun _ _ => trivial) machine result final
    posted.wellScoped posted.sees outcome).2
  attend := by
    have each := (List.forall₂_and_left _ _).mpr ⟨fun _ => id, posted.attend⟩
    refine each.imp fun checker watch given => ⟨given.2.checks, ?_⟩
    refine given.2.reaches.after (fun regime may => keeps regime fun name other => ?_) outcome
    exact may name fun same => other (same ▸ List.mem_map_of_mem given.1)
  unknown := posted.unknown
  among := posted.among

theorem after_evaluate {fuel : Nat} {expression : Expression} {value : Value}
    (outcome : evaluate fuel scope expression machine = .ok value final) :
    Posted parameter names base scope final.store force watches :=
  posted.after (fun regime _ => (preserves regime fuel).evaluate scope expression) outcome

theorem after_hoist {statements : List Statement}
    (avoids : (avoiding (· ∈ force.map Checker.name)).OnStatements statements)
    (outcome : hoist scope statements machine = .ok () final) :
    Posted parameter names base scope final.store force watches :=
  posted.after (fun _ may => Regime.keeps_hoist
    (Parts.OnStatements.imp (avoiding_implies may) statements avoids)) outcome

theorem after_execute {fuel : Nat} {label : Option String} {statement : Statement}
    {completion : Completion}
    (avoids : (avoiding (· ∈ force.map Checker.name)).OnStatement statement)
    (outcome : execute fuel scope label statement machine = .ok completion final) :
    Posted parameter names base scope final.store force watches :=
  posted.after (fun regime may => (preserves regime fuel).execute scope label statement
    (Parts.OnStatement.imp (avoiding_implies may) statement avoids)) outcome

theorem after_inTurn {fuel : Nat} {statements : List Statement} {completion : Completion}
    (avoids : (avoiding (· ∈ force.map Checker.name)).OnStatements statements)
    (outcome : inTurn (execute fuel scope none) statements machine = .ok completion final) :
    Posted parameter names base scope final.store force watches := by
  refine posted.after (fun regime may => Regime.keeps_inTurn statements fun statement member => ?_)
    outcome
  exact (preserves regime fuel).execute scope none statement
    (Parts.OnStatement.imp (avoiding_implies may) statement
      (Parts.onStatements_iff.mp avoids statement member))

theorem after_startLoop {fuel : Nat} {init : Option LoopInit}
    (avoids : (avoiding (· ∈ force.map Checker.name)).OnLoopInit init)
    (outcome : startLoop (evaluate fuel scope) scope init machine = .ok () final) :
    Posted parameter names base scope final.store force watches :=
  posted.after (fun regime may => Regime.keeps_startLoop ((preserves regime fuel).evaluate scope)
    (Parts.OnLoopInit.imp (avoiding_implies may) init avoids)) outcome

theorem after_testRound {fuel : Nat} {test : Option Expression} {goesOn : Bool}
    (outcome : testRound (evaluate fuel scope) test machine = .ok goesOn final) :
    Posted parameter names base scope final.store force watches :=
  posted.after (fun regime _ => Regime.keeps_testRound ((preserves regime fuel).evaluate scope)
    test) outcome

theorem after_stepRound {fuel : Nat} {step : Option Expression}
    (outcome : stepRound (evaluate fuel scope) step machine = .ok () final) :
    Posted parameter names base scope final.store force watches :=
  posted.after (fun regime _ => Regime.keeps_stepRound ((preserves regime fuel).evaluate scope)
    step) outcome

/-- Helpers are still posted in a block. -/
theorem enter :
    Posted parameter names base (⟨machine.store.frames.size⟩ :: scope) machine.enterFrame.store
      force watches where
  wellScoped := scoping.addFrame [] posted.wellScoped
  sees := posted.sees.enter []
  attend := posted.attend.imp fun _ _ attends => ⟨attends.checks, attends.reaches.enter⟩
  unknown := posted.unknown
  among := posted.among

end Posted

end

/-! ## Entries -/

/-- Helpers are declared one after the other, and each is called once it is declared. -/
inductive Enters (parameter : String) (address : FrameAddress) (outer : Scope) :
    List Checker → List (List Expression) → Machine → Machine → Prop where
  | done (machine : Machine) : Enters parameter address outer [] [] machine machine
  | next {checker : Checker} {checkers : List Checker} {tests : List Expression}
      {others : List (List Expression)} {machine between after : Machine} :
      Checked parameter (address :: outer) tests .undefined
          { machine with store := declaring checker parameter address outer machine.store }
          between →
        Enters parameter address outer checkers others between after →
          Enters parameter address outer (checker :: checkers) (tests :: others) machine after

section

variable {parameter : String} {address : FrameAddress} {outer : Scope} {fuel : Nat}
  {after : Machine} {completion : Completion}

/-- Entries that have a result declare and call the helpers, which are in reach from then on. -/
theorem enters_of_entriesOf {checkers : List Checker} {found : List (List Condition)}
    (checks : List.Forall₂ Checker.Checks checkers found) :
    ∀ {machine : Machine}, (checkers.map Checker.name).Nodup →
      machine.store.WellScoped → machine.store.Sees (address :: outer) →
        inTurn (execute fuel (address :: outer) none) (entriesOf parameter checkers) machine =
            .ok completion after →
          completion = .finished ∧
            Enters parameter address outer checkers (testsOf found) machine after ∧
              ∀ checker ∈ checkers,
                Reaches checker parameter (address :: outer) (address :: outer) after.store := by
  induction checks with
  | nil =>
      intro machine _ _ _ outcome
      cases outcome
      exact ⟨rfl, .done _, List.forall_mem_nil _⟩
  | @cons checker conditions checkers found first _ induction =>
      intro machine distinct wellScoped sees outcome
      rw [List.map_cons, List.nodup_cons] at distinct
      rw [entriesOf, List.flatMap_cons, Checker.entry, List.cons_append, List.cons_append,
        List.nil_append, inTurn] at outcome
      obtain ⟨step, declared, begun, outcome⟩ := Action.bind_eq_ok.mp outcome
      have reaches := reaches_of_declaration wellScoped sees begun
      obtain ⟨rfl, rfl⟩ := eq_of_declaration begun
      obtain ⟨step, between, checked, outcome⟩ := Action.bind_eq_ok.mp outcome
      have ready := reaches.after_execute (avoiding_check checker) checked
      obtain ⟨rfl, passes⟩ := checked_of_check first reaches checked
      obtain ⟨finished, others, inReach⟩ :=
        induction distinct.2 ready.wellScoped ready.sees outcome
      refine ⟨finished, .next passes others, List.forall_mem_cons.mpr ⟨?_, inReach⟩⟩
      refine ready.after_inTurn (avoiding_entriesOf fun other member same => ?_) outcome
      exact distinct.1 (List.mem_map.mpr ⟨other, member, same⟩)

end

/-! ## Tasks under watch -/

/-- Helpers in groups that check conditions under names of their own, which no source knows. -/
structure Roster (names : List String) (whole : List (List Checker)) : Prop where
  unknown : ∀ checker ∈ whole.flatten, checker.name ∉ names
  distinct : (whole.flatten.map Checker.name).Nodup
  checks : ∀ checker ∈ whole.flatten, ∃ found, checker.Checks found

section

variable (parameter : String) (names : List String) (whole : List (List Checker))
  (base : List Watch)

/-- A statement that is to be executed in a scope under watch. -/
def StatementWatched (scope : Scope) (statement : Statement) (store : Store) : Prop :=
  ∃ force watches made,
    Posted parameter names base scope store force watches ∧
      Watched parameter names force made statement ∧ made ⊆ whole

/-- A list that brings helpers: variables come first, then the entries of the helpers. -/
def bringing (before : List Statement) (own : List Checker) (inner exits : List Statement) :
    List Statement :=
  before ++ (entriesOf parameter own.reverse ++ inner ++ exits)

/--
A list that is to be executed in a frame of its own under watch.  Helpers are
posted once the variables have been declared that come first in it, and these
are none of the helpers that lists bring.
-/
structure ListWatched (address : FrameAddress) (outer : Scope) (before : List Statement)
    (own : List Checker) (inner exits : List Statement) (force last : List Checker)
    (watches : List Watch) (made : List (List Checker)) (machine : Machine) : Prop where
  declares : DeclaresVariables before
  foreign : ∀ checker ∈ whole.flatten, checker.declaration parameter ∉ before
  distinct : (own.map Checker.name).Nodup
  apart : ∀ checker ∈ own, checker.name ∉ names ∧ checker.name ∉ force.map Checker.name
  each : WatchedAll parameter names (own ++ force) made inner
  ends : exits = checksOf (own ++ last) ∨ exits = [] ∧ endsInReturn inner = true
  within : grouped own ++ made ⊆ whole
  posted : ∀ {fuel : Nat} {hoisted ready : Machine},
    hoist (address :: outer) (bringing parameter before own inner exits) machine =
        .ok () hoisted →
      inTurn (execute fuel (address :: outer) none) before hoisted = .ok .finished ready →
        Posted parameter names base (address :: outer) ready.store force watches

/-- A task that is to be performed from a machine on under watch. -/
def UnderWatch : Task → Machine → Prop
  | .execute scope _ statement, machine =>
    isSimple statement = true ∧ statement.isReturn = false ∨
      StatementWatched parameter names whole base scope statement machine.store
  | .rounds scope _ _ _ body, machine =>
    StatementWatched parameter names whole base scope body machine.store
  | .executeAll scope statements, machine =>
    ∃ address outer before own inner exits force last watches made,
      scope = address :: outer ∧ statements = bringing parameter before own inner exits ∧
        ListWatched parameter names whole base address outer before own inner exits force last
          watches made machine
  | _, _ => False

end

section

variable {parameter : String} {names : List String} {whole : List (List Checker)}
  {base : List Watch}

theorem Posted.mono {more : List Watch} {scope : Scope} {store : Store} {force : List Checker}
    {watches : List Watch} (posted : Posted parameter names more scope store force watches)
    (within : base ⊆ more) : Posted parameter names base scope store force watches :=
  { posted with among := fun _ member => posted.among (within member) }

theorem StatementWatched.mono {more : List Watch} {scope : Scope} {statement : Statement}
    {store : Store} (watched : StatementWatched parameter names whole more scope statement store)
    (within : base ⊆ more) :
    StatementWatched parameter names whole base scope statement store := by
  obtain ⟨force, watches, made, posted, watched, among⟩ := watched
  exact ⟨force, watches, made, posted.mono within, watched, among⟩

/-- What is under some watches is under fewer of them. -/
theorem UnderWatch.mono {more : List Watch} {task : Task} {machine : Machine}
    (given : UnderWatch parameter names whole more task machine) (within : base ⊆ more) :
    UnderWatch parameter names whole base task machine := by
  cases task with
  | evaluate | construct | call => exact given
  | execute scope label statement => exact given.imp_right fun watched => watched.mono within
  | rounds => exact StatementWatched.mono given within
  | executeAll =>
      obtain ⟨address, outer, before, own, inner, exits, force, last, watches, made, rfl, rfl,
        runs⟩ := given
      exact ⟨address, outer, before, own, inner, exits, force, last, watches, made, rfl, rfl,
        { runs with posted := fun begun ran => (runs.posted begun ran).mono within }⟩

/-! ### Statements of a list -/

/-- An item of two lists in a row is one of the first list, or it stands in the second one. -/
theorem mem_or_exists_of_append {α : Type} {first second before rest : List α} {item : α}
    (equal : first ++ second = before ++ item :: rest) :
    item ∈ first ∨ ∃ front, before = first ++ front ∧ second = front ++ item :: rest := by
  rcases List.append_eq_append_iff.mp equal with ⟨front, rfl, rest⟩ | ⟨back, rfl, rest⟩
  · exact .inr ⟨front, rfl, rest⟩
  · cases back with
    | nil => exact .inr ⟨[], by simp, rest.symm⟩
    | cons head back =>
        cases rest
        exact .inl (List.mem_append_right _ List.mem_cons_self)

/-- An item of two lists in a row is one of the second list, or it stands in the first one. -/
theorem exists_or_mem_of_append {α : Type} {first second before rest : List α} {item : α}
    (equal : first ++ second = before ++ item :: rest) :
    (∃ back, first = before ++ item :: back) ∨ item ∈ second := by
  rcases List.append_eq_append_iff.mp equal with ⟨front, rfl, rfl⟩ | ⟨back, rfl, rest⟩
  · exact .inr (List.mem_append_right _ List.mem_cons_self)
  · cases back with
    | nil =>
        right
        rw [← show item :: _ = second from rest]
        exact List.mem_cons_self
    | cons head back =>
        cases rest
        exact .inl ⟨back, rfl⟩

section

variable {address : FrameAddress} {outer : Scope} {own force last : List Checker}
  {watches : List Watch} {made : List (List Checker)} {before inner exits : List Statement}
  {machine : Machine} {found : List (List Condition)}

/-- The watches of helpers that a list declares in its frame. -/
def watchesIn (scope : Scope) (found : List (List Condition)) : List Watch :=
  (testsOf found).map (Watch.mk scope)

/-- Helpers that are in reach attend to their watches. -/
theorem attend_of_reaches {parameter : String} {home scope : Scope} {store : Store}
    {checkers : List Checker} (checks : List.Forall₂ Checker.Checks checkers found)
    (reaches : ∀ checker ∈ checkers, Reaches checker parameter home scope store) :
    List.Forall₂ (Attends parameter scope store) checkers (watchesIn home found) := by
  induction checks with
  | nil => exact .nil
  | cons first _ induction =>
      rw [List.forall_mem_cons] at reaches
      exact .cons ⟨⟨_, first, rfl⟩, reaches.1⟩ (induction reaches.2)

/-- Behind its entries, a list has its own helpers posted besides those in force around it. -/
theorem posted_of_entriesOf {fuel : Nat} {begun ready : Machine} {completion : Completion}
    (checks : List.Forall₂ Checker.Checks own found) (distinct : (own.map Checker.name).Nodup)
    (apart : ∀ checker ∈ own, checker.name ∉ names ∧ checker.name ∉ force.map Checker.name)
    (posted : Posted parameter names base (address :: outer) begun.store force watches)
    (outcome : inTurn (execute fuel (address :: outer) none) (entriesOf parameter own.reverse)
      begun = .ok completion ready) :
    Posted parameter names (watchesIn (address :: outer) found ++ base) (address :: outer)
      ready.store (own ++ force) (watchesIn (address :: outer) found ++ watches) := by
  have entered := enters_of_entriesOf (List.forall₂_reverse_iff.mpr checks)
    (by rwa [List.map_reverse, List.nodup_reverse]) posted.wellScoped posted.sees outcome
  have kept := posted.after_inTurn (avoiding_entriesOf fun checker member =>
    (apart checker (List.mem_reverse.mp member)).2) outcome
  exact
    { wellScoped := kept.wellScoped
      sees := kept.sees
      attend := List.rel_append (attend_of_reaches checks fun checker member =>
        entered.2.2 checker (List.mem_reverse.mpr member)) kept.attend
      unknown := by
        intro checker member
        rcases List.mem_append.mp member with inOwn | inForce
        · exact (apart checker inOwn).1
        · exact kept.unknown checker inForce
      among := List.append_subset.mpr
        ⟨List.subset_append_left _ _, List.subset_append_of_subset_right _ kept.among⟩ }

/-- Each statement of a list is executed under watch of the helpers that the list declares. -/
theorem ListWatched.statement {front rest : List Statement} {statement : Statement} {fuel : Nat}
    {hoisted start : Machine} {label : Option String}
    (runs : ListWatched parameter names whole base address outer before own inner exits force last
      watches made machine)
    (checks : List.Forall₂ Checker.Checks own found)
    (stands : bringing parameter before own inner exits = front ++ statement :: rest)
    (begun : hoist (address :: outer) (front ++ statement :: rest) machine = .ok () hoisted)
    (ran : inTurn (execute fuel (address :: outer) none) front hoisted = .ok .finished start) :
    UnderWatch parameter names whole (watchesIn (address :: outer) found ++ base)
      (.execute (address :: outer) label statement) start := by
  rw [← stands] at begun
  rcases mem_or_exists_of_append stands with early | ⟨front, rfl, behind⟩
  · obtain ⟨kind, declarators, rfl⟩ := runs.declares statement early
    exact .inl ⟨rfl, rfl⟩
  rw [List.append_assoc] at behind
  rcases mem_or_exists_of_append behind with entry | ⟨front, rfl, remains⟩
  · exact .inl (isSimple_of_mem_entriesOf entry)
  rcases exists_or_mem_of_append remains with ⟨back, rfl⟩ | exit
  · obtain ⟨ready, prepared, ran⟩ := inTurn_append_eq_finished.mp ran
    obtain ⟨entered, entries, ran⟩ := inTurn_append_eq_finished.mp ran
    have posted := posted_of_entriesOf checks runs.distinct runs.apart
      (runs.posted begun prepared) entries
    have avoids := runs.each.avoidsForce posted.unknown
    rw [Parts.onStatements_append] at avoids
    obtain ⟨own, among, watched⟩ := runs.each.mem statement (by simp)
    refine .inr ⟨_, _, own, posted.after_inTurn avoids.1 ran, watched, fun group member => ?_⟩
    exact runs.within (List.mem_append_right _ (among member))
  · left
    rcases runs.ends with rfl | ⟨rfl, _⟩
    · obtain ⟨checker, _, rfl⟩ := List.mem_map.mp exit
      exact ⟨rfl, rfl⟩
    · cases exit

end

/-- Helpers with conditions, for each of several helpers that check some. -/
theorem exists_found {checkers : List Checker}
    (checks : ∀ checker ∈ checkers, ∃ found, checker.Checks found) :
    ∃ found, List.Forall₂ Checker.Checks checkers found := by
  induction checkers with
  | nil => exact ⟨[], .nil⟩
  | cons checker rest induction =>
      rw [List.forall_mem_cons] at checks
      obtain ⟨conditions, first⟩ := checks.1
      obtain ⟨found, others⟩ := induction checks.2
      exact ⟨conditions :: found, .cons first others⟩

/-- The helpers of a group check conditions. -/
theorem Roster.checks_of_grouped {own : List Checker} {made : List (List Checker)}
    (roster : Roster names whole) (within : grouped own ++ made ⊆ whole) :
    ∀ checker ∈ own, ∃ found, checker.Checks found := by
  intro checker member
  refine roster.checks checker (List.mem_flatten.mpr ?_)
  cases own with
  | nil => cases member
  | cons first rest => exact ⟨_, within List.mem_cons_self, member⟩

/-- A statement that is not simple is under watch only if it is watched. -/
theorem UnderWatch.statementWatched {scope : Scope} {label : Option String}
    {statement : Statement} {machine : Machine}
    (given : UnderWatch parameter names whole base (.execute scope label statement) machine)
    (nested : isSimple statement = true → statement.isReturn = true) :
    StatementWatched parameter names whole base scope statement machine.store := by
  rcases given with ⟨simple, stays⟩ | watched
  · rw [nested simple] at stays
    cases stays
  · exact watched

/-- What runs under watch performs its parts under watch. -/
theorem UnderWatch.part (roster : Roster names whole) {fuel : Nat} {task next : Task}
    {machine between : Machine} (part : Part fuel task machine next between)
    (runs : next.runsStatements = true)
    (given : UnderWatch parameter names whole base task machine) :
    UnderWatch parameter names whole base next between := by
  cases part with
  | operand | right | chosen | assigned | argument | called | constructed | initialized | answered
  | subject | loopVariable | loopStart | «variable» | tested | stepped => cases runs
  | entered => exact given.elim
  | block =>
      obtain ⟨force, watches, made, posted, watched, among⟩ := given.statementWatched nofun
      cases watched with
      | leaf simple => cases simple
      | block inside =>
          have avoids := inside.avoidsForce posted.unknown
          cases inside with
          | @intro _ _ own made inner exits distinct apart each ends =>
              refine ⟨_, _, [], own, inner, exits, force, [], watches, made, rfl, rfl, nofun,
                fun _ _ => List.not_mem_nil, distinct, apart, each, ends, among, ?_⟩
              intro fuel hoisted ready begun ran
              cases ran
              exact posted.enter.after_hoist avoids begun
  | labeled =>
      obtain ⟨force, watches, made, posted, watched, among⟩ := given.statementWatched nofun
      cases watched with
      | leaf simple => cases simple
      | labeled inside => exact .inr ⟨force, watches, made, posted, inside, among⟩
  | consequent tested =>
      obtain ⟨force, watches, made, posted, watched, among⟩ := given.statementWatched nofun
      cases watched with
      | leaf simple => cases simple
      | branch inside =>
          exact .inr ⟨force, watches, _, posted.after_evaluate tested, inside, among⟩
      | branches first second =>
          exact .inr ⟨force, watches, _, posted.after_evaluate tested, first,
            fun _ member => among (List.mem_append_left _ member)⟩
  | alternate tested =>
      obtain ⟨force, watches, made, posted, watched, among⟩ := given.statementWatched nofun
      cases watched with
      | leaf simple => cases simple
      | branches first second =>
          exact .inr ⟨force, watches, _, posted.after_evaluate tested, second,
            fun _ member => among (List.mem_append_right _ member)⟩
  | whileLoop =>
      obtain ⟨force, watches, made, posted, watched, among⟩ := given.statementWatched nofun
      cases watched with
      | leaf simple => cases simple
      | whileLoop inside => exact ⟨force, watches, made, posted, inside, among⟩
  | firstRound =>
      obtain ⟨force, watches, made, posted, watched, among⟩ := given.statementWatched nofun
      cases watched with
      | leaf simple => cases simple
      | doWhileLoop inside => exact .inr ⟨force, watches, made, posted, inside, among⟩
  | doWhileLoop ran =>
      obtain ⟨force, watches, made, posted, watched, among⟩ := given.statementWatched nofun
      cases watched with
      | leaf simple => cases simple
      | doWhileLoop inside =>
          exact ⟨force, watches, made,
            posted.after_execute (inside.avoidsForce posted.unknown) ran, inside, among⟩
  | forLoop started =>
      obtain ⟨force, watches, made, posted, watched, among⟩ := given.statementWatched nofun
      cases watched with
      | leaf simple => cases simple
      | forLoop known inside =>
          refine ⟨force, watches, made, posted.enter.after_startLoop ?_ started, inside, among⟩
          refine Parts.OnLoopInit.imp (avoiding_within fun name taken inNames => ?_) _ known
          obtain ⟨checker, inForce, rfl⟩ := List.mem_map.mp taken
          exact posted.unknown checker inForce inNames
  | statement hoisted ran =>
      obtain ⟨_, _, _, own, _, _, _, _, _, _, rfl, stands, given⟩ := given
      obtain ⟨found, checks⟩ := exists_found (roster.checks_of_grouped given.within)
      exact (given.statement checks stands.symm hoisted ran).mono
        (List.subset_append_right _ _)
  | round tested =>
      obtain ⟨force, watches, made, posted, watched, among⟩ := given
      exact .inr ⟨force, watches, made, posted.after_testRound tested, watched, among⟩
  | again tested ran _ stepped =>
      obtain ⟨force, watches, made, posted, watched, among⟩ := given
      have ended := (posted.after_testRound tested).after_execute
        (watched.avoidsForce posted.unknown) ran
      exact ⟨force, watches, made, ended.after_stepRound stepped, watched, among⟩

/-- What runs under watch performs everything under watch that its statements perform. -/
theorem UnderWatch.performs (roster : Roster names whole) {less fuel : Nat} {inner task : Task}
    {start machine : Machine} (performs : PerformsOwn less inner start fuel task machine)
    (given : UnderWatch parameter names whole base task machine) :
    UnderWatch parameter names whole base inner start :=
  performs.induct (fun part runs given => given.part roster part runs) given

end

/-! ## What a list under watch does -/

section

variable (parameter : String) (found : List (List Condition)) (fuel : Nat)
  (address : FrameAddress) (outer : Scope) (before : List Statement) (own : List Checker)
  (inner exits : List Statement) (machine : Machine)

/--
In front of everything but variables, the helpers of a list are declared and
the conditions checked, or control does not get any further.
-/
def ChecksOnEntry : Prop :=
  ∀ {hoisted begun ready : Machine} {completion : Completion},
    hoist (address :: outer) (bringing parameter before own inner exits) machine =
        .ok () hoisted →
      inTurn (execute fuel (address :: outer) none) before hoisted = .ok .finished begun →
        inTurn (execute fuel (address :: outer) none) (entriesOf parameter own.reverse) begun =
            .ok completion ready →
          completion = .finished ∧
            Enters parameter address outer own.reverse (testsOf found.reverse) begun ready

/--
Where control reaches the end of a list, the conditions are checked behind
everything else, but for checks of other helpers.
-/
def ChecksAtEnd : Prop :=
  ∀ {after : Machine},
    executeAll (fuel + 1) (address :: outer) (bringing parameter before own inner exits) machine =
        .ok .finished after →
      ∃ others hoisted fallen middle,
        exits = checksOf (own ++ others) ∧
          hoist (address :: outer) (bringing parameter before own inner exits) machine =
            .ok () hoisted ∧
            inTurn (execute fuel (address :: outer) none)
                (before ++ (entriesOf parameter own.reverse ++ inner)) hoisted =
              .ok .finished fallen ∧
              ChecksThrough parameter .undefined (watchesIn (address :: outer) found) fallen
                  middle ∧
                inTurn (execute fuel (address :: outer) none) (checksOf others) middle =
                  .ok .finished after

/--
Where a list is left with a value, a return has been executed whose argument
has the value, and then the conditions have been checked and nothing else but
other conditions.
-/
def ChecksReturns : Prop :=
  ∀ {after : Machine} {value : Value},
    executeAll (fuel + 1) (address :: outer) (bringing parameter before own inner exits) machine =
        .ok (.returned value) after →
      ∃ more less scope label through argument start between watches,
        PerformsOwn more (.execute scope label (.giveBack (passed through argument))) start
            (fuel + 1)
            (.executeAll (address :: outer) (bringing parameter before own inner exits)) machine ∧
          returnedValue (evaluate less scope) argument start = .ok value between ∧
            watchesIn (address :: outer) found ⊆ watches ∧
              ChecksThrough parameter value watches between after

/--
A list keeps the watch of the helpers that it brings: it checks their
conditions when it is entered, at its end and behind every return in it.
-/
structure KeepsWatch : Prop where
  enters : ChecksOnEntry parameter found fuel address outer before own inner exits machine
  falls : ChecksAtEnd parameter found fuel address outer before own inner exits machine
  returns : ChecksReturns parameter found fuel address outer before own inner exits machine

end

section

variable {parameter : String} {names : List String} {whole : List (List Checker)}
  {base : List Watch} {address : FrameAddress} {outer : Scope} {own force last : List Checker}
  {watches : List Watch} {made : List (List Checker)} {before inner exits : List Statement}
  {fuel : Nat} {machine : Machine} {found : List (List Condition)}
  (runs : ListWatched parameter names whole base address outer before own inner exits force last
    watches made machine)
  (checks : List.Forall₂ Checker.Checks own found)

include runs checks

theorem ListWatched.checksOnEntry :
    ChecksOnEntry parameter found fuel address outer before own inner exits machine := by
  intro hoisted begun ready completion hoists prepared entries
  have posted := runs.posted hoists prepared
  have entered := enters_of_entriesOf (List.forall₂_reverse_iff.mpr checks)
    (by simpa using runs.distinct) posted.wellScoped posted.sees entries
  exact ⟨entered.1, entered.2.1⟩

/-- Control reaches the end of a list under watch only through the checks of its helpers. -/
theorem ListWatched.checksAtEnd :
    ChecksAtEnd parameter found fuel address outer before own inner exits machine := by
  intro after outcome
  rw [executeAll] at outcome
  obtain ⟨_, hoisted, begun, outcome⟩ := Action.bind_eq_ok.mp outcome
  obtain ⟨ready, prepared, outcome⟩ := inTurn_append_eq_finished.mp outcome
  obtain ⟨fallen, ran, exit⟩ := inTurn_append_eq_finished.mp outcome
  obtain ⟨entered, entries, rest⟩ := inTurn_append_eq_finished.mp ran
  rcases runs.ends with rfl | ⟨_, ends⟩
  · rw [checksOf, List.map_append] at exit
    obtain ⟨middle, checked, exit⟩ := inTurn_append_eq_finished.mp exit
    have posted := posted_of_entriesOf checks runs.distinct runs.apart (runs.posted begun prepared)
      entries
    have attend : List.Forall₂ (Attends parameter (address :: outer) fallen.store) own
        (watchesIn (address :: outer) found) := by
      have both := (posted.after_inTurn (runs.each.avoidsForce posted.unknown) rest).attend
      have first := List.forall₂_take own.length both
      have same : own.length = (watchesIn (address :: outer) found).length := by
        rw [watchesIn, testsOf, List.length_map, List.length_map, checks.length_eq]
      rwa [List.take_left, same, List.take_left] at first
    refine ⟨last, hoisted, fallen, middle, rfl, begun, ?_,
      (checksThrough_of_checks attend checked).2, exit⟩
    exact inTurn_append_eq_finished.mpr ⟨ready, prepared, ran⟩
  · exact (inTurn_of_endsInReturn ends rest).elim

/-- A value leaves a list under watch only through the helpers of the list. -/
theorem ListWatched.checksReturns (roster : Roster names whole) :
    ChecksReturns parameter found fuel address outer before own inner exits machine := by
  intro after value outcome
  obtain ⟨more, scope, label, given, start, performs, returned⟩ :=
    (returnsWith _).executeAll outcome
  have inner : UnderWatch parameter names whole (watchesIn (address :: outer) found ++ base)
      (.execute scope label (.giveBack given)) start := by
    generalize equal : bringing parameter before own inner exits = statements at performs
    cases performs with
    | part part _ performs =>
        cases part with
        | statement hoisted ran =>
            exact (runs.statement checks equal hoisted ran).performs roster performs
  obtain ⟨force, watches, made, posted, watched, _⟩ := inner.statementWatched fun _ => rfl
  cases watched with
  | leaf _ stays => cases stays
  | giveBack argument passes =>
      cases more with
      | zero => cases returned
      | succ less =>
          rw [execute_giveBack] at returned
          obtain ⟨_, _, evaluated, ends⟩ := Action.bind_eq_ok.mp returned
          cases ends
          obtain ⟨asked, attend, same⟩ := List.perm_comp_forall₂ passes posted.attend
          obtain ⟨less, between, argued, through⟩ := checksThrough_of_returnedValue attend evaluated
          refine ⟨_, less, scope, label, _, argument, start, between, asked, performs, argued, ?_,
            through⟩
          exact fun watch member =>
            same.mem_iff.mpr (posted.among (List.mem_append_left _ member))

/-- A list under watch keeps the watch of its helpers. -/
theorem ListWatched.keepsWatch (roster : Roster names whole) :
    KeepsWatch parameter found fuel address outer before own inner exits machine :=
  ⟨runs.checksOnEntry checks, runs.checksAtEnd checks, runs.checksReturns checks roster⟩

end

end Covenant.Contract
