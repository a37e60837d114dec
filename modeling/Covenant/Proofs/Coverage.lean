import Covenant.Proofs.Loop
import Covenant.Proofs.Reach
import Covenant.Proofs.Walk
import Covenant.Proofs.CheckPoint

/-!
# The loop of a walk covers what is walked over

The loop does what the walk does.  It runs out of neither fuel nor bounds, and
it looks at each place that the walk is due to look at once.  Of what it puts
into a list itself it only looks at the checks at the end, which it finds still
before it.
-/

namespace Covenant.Contract

open Tracing

/-! ## What the loop looks at -/

/-- The places among origins. -/
def placesOf (origins : List Origin) : List (List Nat) :=
  origins.filterMap Origin.path?

theorem placesOf_append (first second : List Origin) :
    placesOf (first ++ second) = placesOf first ++ placesOf second :=
  List.filterMap_append

/-- Items that may still be looked at. -/
def AllOpen (items : List Item) : Prop :=
  ∀ item ∈ items, item.origin.isOpen = true

/-- The places that are still to be looked at in a list. -/
def dueIn (settings : Settings) (items : List Item) : List (List Nat) :=
  items.flatMap fun item => item.origin.places (reached settings item.statement)

namespace Origin

theorem places_append (origin : Origin) (first second : List (List Nat)) :
    origin.places (first ++ second) = origin.places first ++ origin.places second := by
  cases origin with
  | source path => exact List.map_append
  | inserted => rfl

theorem places_nil (origin : Origin) : origin.places [] = [] := by
  cases origin <;> rfl

/-- The places in a nested statement are places in the statement around it. -/
theorem places_part (origin : Origin) (index : Nat) (nested : List (List Nat)) :
    (origin.part index).places nested = origin.places (nested.map (index :: ·)) := by
  cases origin with
  | source path => simp [part, places, List.map_map, Function.comp_def]
  | inserted => rfl

theorem isOpen_part {origin : Origin} (index : Nat) (isOpen : origin.isOpen = true) :
    (origin.part index).isOpen = true := by
  cases origin with
  | source path => rfl
  | inserted => exact isOpen

/-- Looking at a statement is looking at its place. -/
theorem placesOf_singleton (origin : Origin) : placesOf [origin] = origin.places [[]] := by
  cases origin with
  | source path => simp [placesOf, path?, places]
  | inserted => rfl

end Origin

section

variable {settings : Settings}

theorem dueIn_append (first second : List Item) :
    dueIn settings (first ++ second) = dueIn settings first ++ dueIn settings second :=
  List.flatMap_append

theorem dueIn_cons (item : Item) (rest : List Item) :
    dueIn settings (item :: rest) =
      item.origin.places (reached settings item.statement) ++ dueIn settings rest :=
  List.flatMap_cons

theorem dueIn_inserted (insertion : Insertion) (statements : List Statement) :
    dueIn settings (insertedItems insertion statements) = [] := by
  rw [dueIn, insertedItems, List.flatMap_map]
  exact List.flatMap_eq_nil_iff.mpr fun _ _ => rfl

theorem dueIn_route (checker : Checker) (items : List Item) :
    dueIn settings (items.map (Item.route checker)) = dueIn settings items := by
  rw [dueIn, dueIn, List.flatMap_map]
  simp only [Item.route, reached_route]

theorem dueIn_itemsFrom (origin : Origin) (index : Nat) (statements : List Statement) :
    dueIn settings (itemsFrom origin index statements) =
      origin.places (reachedInAll settings index statements) := by
  induction statements generalizing index with
  | nil => rw [reachedInAll, Origin.places_nil]; rfl
  | cons statement rest induction =>
      rw [itemsFrom, dueIn_cons, induction, reachedInAll, Origin.places_append,
        Origin.places_part]

theorem dueIn_unlabeled {item : Item} {label : String} {body : Statement}
    (labeled : item.statement = .labeled label body) (fate : settings.fate label = .freed) :
    item.origin.places (reached settings item.statement) =
      item.origin.places [[]] ++ dueIn settings item.unlabeled := by
  rw [labeled, reached, fate, ← List.singleton_append, Origin.places_append, ← Origin.places_part,
    Item.unlabeled, labeled]
  cases body with
  | block statements =>
      dsimp only
      rw [dueIn_itemsFrom, reached]
      rfl
  | _ => exact congrArg _ (List.append_nil _).symm

end

/-! ## Items and their statements -/

theorem statementsOf_append (first second : List Item) :
    statementsOf (first ++ second) = statementsOf first ++ statementsOf second :=
  List.map_append

theorem statementsOf_inserted (insertion : Insertion) (statements : List Statement) :
    statementsOf (insertedItems insertion statements) = statements := by
  rw [statementsOf, insertedItems, List.map_map]
  exact List.map_id _

theorem statementsOf_route (checker : Checker) (items : List Item) :
    statementsOf (items.map (Item.route checker)) = checker.routeAll (statementsOf items) := by
  rw [routeAll_eq_map, statementsOf, statementsOf, List.map_map, List.map_map]
  rfl

theorem statementsOf_itemsFrom (origin : Origin) (index : Nat) (statements : List Statement) :
    statementsOf (itemsFrom origin index statements) = statements := by
  induction statements generalizing index with
  | nil => rfl
  | cons statement rest induction => exact congrArg (statement :: ·) (induction (index + 1))

theorem statementsOf_unlabeled (item : Item) :
    statementsOf item.unlabeled = item.statement.unlabeled := by
  obtain ⟨statement, origin⟩ := item
  cases statement with
  | labeled label body =>
      cases body with
      | block statements => exact statementsOf_itemsFrom _ _ _
      | _ => rfl
  | _ => rfl

theorem allOpen_itemsFrom {origin : Origin} (isOpen : origin.isOpen = true) (index : Nat)
    (statements : List Statement) : AllOpen (itemsFrom origin index statements) := by
  induction statements generalizing index with
  | nil => exact nofun
  | cons statement rest induction =>
      exact List.forall_mem_cons.mpr ⟨Origin.isOpen_part index isOpen, induction (index + 1)⟩

theorem allOpen_unlabeled {item : Item} (isOpen : item.origin.isOpen = true) :
    AllOpen item.unlabeled := by
  have single (other : Item) (isOpen : other.origin.isOpen = true) : AllOpen [other] :=
    List.forall_mem_singleton.mpr isOpen
  have nested := Origin.isOpen_part 0 isOpen
  rw [Item.unlabeled]
  split
  · exact allOpen_itemsFrom nested 0 _
  · exact single _ nested
  · exact single _ isOpen

theorem allOpen_route {items : List Item} (allOpen : AllOpen items) (checker : Checker) :
    AllOpen (items.map (Item.route checker)) := by
  rintro _ among
  obtain ⟨item, inside, rfl⟩ := List.mem_map.mp among
  exact allOpen item inside

theorem allOpen_append {first second : List Item} (left : AllOpen first) (right : AllOpen second) :
    AllOpen (first ++ second) :=
  List.forall_mem_append.mpr ⟨left, right⟩

theorem allOpen_exitChecks (statements : List Statement) :
    AllOpen (insertedItems .exitCheck statements) := by
  rintro _ among
  obtain ⟨_, -, rfl⟩ := List.mem_map.mp among
  rfl

/-! ## The loop in step with the walk -/

/--
A step of the loop does what a step of a walk does, up to a view of its result.
It runs out of nothing, and the places that it looks at are given: all of them
if it succeeds, and the first ones if it is rejected.
-/
def Tracks {α β : Type} (view : α → β) (due : List (List Nat)) (step : Tracing α)
    (walk : Walking β) : Prop :=
  ∀ pass log, ∃ visited, (∀ origin ∈ visited, origin.isOpen = true) ∧
    ((∃ value after, step pass log = (.ok (value, after), log ++ visited) ∧
        walk pass = .ok (view value, after) ∧ placesOf visited = due) ∨
      ∃ reason, step pass log = (.error (.rejected reason), log ++ visited) ∧
        walk pass = .error reason ∧ placesOf visited <+: due)

namespace Tracks

open Tracing

variable {α β γ δ : Type} {view : α → β} {other : γ → δ} {first second : List (List Nat)}

theorem pure (value : α) : Tracks view [] (Pure.pure value) (Pure.pure (view value)) :=
  fun pass log => ⟨[], nofun, .inl ⟨value, pass, by rw [List.append_nil]; rfl, rfl, rfl⟩⟩

theorem perform (step : Walking α) : Tracks id [] (Tracing.perform step) step := by
  intro pass log
  refine ⟨[], nofun, ?_⟩
  rw [perform_eq, List.append_nil]
  cases outcome : step pass with
  | ok result => exact .inl ⟨result.1, result.2, rfl, rfl, rfl⟩
  | error reason => exact .inr ⟨reason, rfl, rfl, List.nil_prefix⟩

/-- Steps in step with each other compose, and so do the places that they look at. -/
theorem bind {step : Tracing α} {walk : Walking β} {next : α → Tracing γ} {go : β → Walking δ}
    (head : Tracks view first step walk)
    (rest : ∀ value, Tracks other second (next value) (go (view value))) :
    Tracks other (first ++ second) (step >>= next) (walk >>= go) := by
  intro pass log
  obtain ⟨visited, isOpen, ⟨value, after, stepped, walked, places⟩ |
    ⟨reason, stepped, walked, places⟩⟩ := head pass log
  · obtain ⟨later, laterOpen, outcome⟩ := rest value after (log ++ visited)
    refine ⟨visited ++ later, List.forall_mem_append.mpr ⟨isOpen, laterOpen⟩, ?_⟩
    rw [bind_eq, stepped, step_bind_of_ok walked, placesOf_append, places, ← List.append_assoc]
    exact outcome.imp
      (fun ⟨result, final, moved, went, same⟩ => ⟨result, final, moved, went, by rw [same]⟩)
      fun ⟨reason, moved, went, same⟩ =>
        ⟨reason, moved, went, List.prefix_append_right_inj first |>.mpr same⟩
  · refine ⟨visited, isOpen, .inr ⟨reason, ?_, step_bind_eq_error.mpr (.inl walked),
      places.trans (List.prefix_append _ _)⟩⟩
    rw [bind_eq, stepped]

/-- A statement is looked at before what follows is done. -/
theorem record {origin : Origin} {next : Tracing γ} {walk : Walking δ}
    (isOpen : origin.isOpen = true) (rest : Tracks other second next walk) :
    Tracks other (origin.places [[]] ++ second) (Tracing.record origin >>= fun _ => next) walk := by
  intro pass log
  obtain ⟨visited, allOpen, outcome⟩ := rest pass (log ++ [origin])
  refine ⟨origin :: visited, List.forall_mem_cons.mpr ⟨isOpen, allOpen⟩, ?_⟩
  have recorded : Tracing.record origin pass log = (.ok ((), pass), log ++ [origin]) := rfl
  have after : log ++ origin :: visited = log ++ [origin] ++ visited := by simp
  have places : placesOf (origin :: visited) = origin.places [[]] ++ placesOf visited := by
    rw [← Origin.placesOf_singleton, ← placesOf_append, List.singleton_append]
  rw [bind_eq, recorded, after, places]
  exact outcome.imp
    (fun ⟨result, final, moved, went, same⟩ => ⟨result, final, moved, went, by rw [same]⟩)
    fun ⟨reason, moved, went, same⟩ =>
      ⟨reason, moved, went, List.prefix_append_right_inj _ |>.mpr same⟩

/-- A step that looks at nothing. -/
theorem silent {step : Tracing α} {walk : Walking β} {next : α → Tracing γ} {go : β → Walking δ}
    (head : Tracks view [] step walk)
    (rest : ∀ value, Tracks other second (next value) (go (view value))) :
    Tracks other second (step >>= next) (walk >>= go) :=
  head.bind rest

/-- What follows may look at nothing. -/
theorem before {step : Tracing α} {walk : Walking β} {next : α → Tracing γ} {go : β → Walking δ}
    (head : Tracks view first step walk)
    (rest : ∀ value, Tracks other [] (next value) (go (view value))) :
    Tracks other first (step >>= next) (walk >>= go) := by
  have both := head.bind rest
  rwa [List.append_nil] at both

end Tracks

/-! ## Labels -/

/-- A statement that is walked over inside: its label, if it has one, is put on something open. -/
def Settings.Opens (settings : Settings) (statement : Statement) : Prop :=
  ∀ label ∈ statement.label?, settings.fate label = .open

section

variable {context : Context} {statement : Statement}

/-- The label of a statement that is not walked over inside. -/
theorem opens_or_labeled (settings : Settings) (statement : Statement) :
    settings.Opens statement ∨ ∃ label body, statement = .labeled label body ∧
      ((∃ kind, settings.roleOf label = .contract kind) ∨
        settings.roleOf label = .environment ∧
          (settings.actionFor label = .remove ∨ settings.actionFor label = .inline)) := by
  cases statement with
  | labeled label body =>
      have opens (fate : settings.fate label = .open) :
          settings.Opens (.labeled label body) := by
        rintro _ ⟨⟩
        exact fate
      cases role : settings.roleOf label with
      | contract kind => exact .inr ⟨label, body, rfl, .inl ⟨kind, role⟩⟩
      | other => exact .inl (opens (by rw [Settings.fate, role]))
      | environment =>
          cases action : settings.actionFor label with
          | keep => exact .inl (opens (by rw [Settings.fate, role, action]))
          | remove => exact .inr ⟨label, body, rfl, .inr ⟨role, .inl action⟩⟩
          | inline => exact .inr ⟨label, body, rfl, .inr ⟨role, .inr action⟩⟩
  | _ => exact .inl nofun

/-- A label that is put on something open either has no role or marks code that is kept. -/
theorem role_of_open {settings : Settings} {label : String}
    (fate : settings.fate label = .open) :
    settings.roleOf label = .other ∨
      settings.roleOf label = .environment ∧ settings.actionFor label = .keep := by
  rw [Settings.fate] at fate
  cases role : settings.roleOf label with
  | contract kind =>
      rw [role] at fate
      cases fate
  | other => exact .inl rfl
  | environment =>
      cases action : settings.actionFor label with
      | keep => exact .inr ⟨rfl, rfl⟩
      | remove | inline =>
          simp only [role, action] at fate
          cases fate

theorem opens_of_not_recognizes (unknown : context.recognizes statement = false) :
    context.settings.Opens statement := by
  intro label known
  rw [Context.recognizes, Option.mem_def.mp known] at unknown
  rw [Settings.fate, show context.settings.roleOf label = .other by simpa using unknown]

theorem reached_of_opens {settings : Settings} (opens : settings.Opens statement) :
    reached settings statement = [] :: reachedInside settings statement := by
  cases statement with
  | labeled label body => exact reached_of_open body (opens label rfl)
  | _ => exact reached_of_plain rfl

/-- The walk over a statement that is walked over inside. -/
theorem walkBlock_of_opens (opens : context.settings.Opens statement)
    (before tail : List Statement) :
    walkBlock context before (statement :: tail) = (do
      let walked ← walkChildren context statement
      walkBlock context (before ++ [walked]) tail) := by
  cases statement with
  | labeled label body =>
      rw [walkBlock, walkChildren_labeled, bind_assoc]
      rcases role_of_open (opens label rfl) with role | ⟨role, action⟩
      · simp only [role, pure_bind]
      · simp only [role, action, pure_bind]
  | _ => exact walkBlock_unlabeled context before tail rfl

theorem handleAt_of_opens (opens : context.settings.Opens statement) (items : List Item)
    (index : Nat) (walk : Tracing Statement) :
    handleAt context items index statement walk = onward items index walk := by
  cases statement with
  | labeled label body =>
      rcases role_of_open (opens label rfl) with role | ⟨role, action⟩
      · simp only [handleAt, Statement.label?, Option.map_some, role]
      · simp only [handleAt, Statement.label?, Option.map_some, role, action]
  | _ => rfl

end

/-! ## One round -/

/-- With enough fuel, the loop is in step with the walk. -/
structure Lockstep (context : Context) (fuel : Nat) : Prop where
  list (before rest : List Item) (allOpen : AllOpen rest)
    (enough : 3 * weightOfAll (statementsOf rest) + 1 < fuel) :
    Tracks statementsOf (dueIn context.settings rest)
      (loop context fuel before.length (before ++ rest))
      (walkBlock context (statementsOf before) (statementsOf rest))
  inside (statement : Statement) {origin : Origin} (isOpen : origin.isOpen = true)
    (enough : 3 * weight statement < fuel) :
    Tracks id (origin.places (reachedInside context.settings statement))
      (Tracing.inside context fuel statement origin) (walkChildren context statement)
  slot (statement : Statement) {origin : Origin} (isOpen : origin.isOpen = true)
    (enough : 3 * weight statement + 2 < fuel) :
    Tracks id (origin.places (reached context.settings statement))
      (Tracing.slot context fuel statement origin) (walkSlot context statement)

/-- How a round of the loop goes on. -/
abbrev goingOn (context : Context) (fuel : Nat) (round : Tracing (Nat × List Item)) :
    Tracing (List Item) := do
  let (next, items) ← round
  loop context fuel next items

section

variable {context : Context} {fuel : Nat} (lockstep : Lockstep context fuel)

include lockstep

/-- How a round ends: the loop goes on where the walk does. -/
theorem Lockstep.goOn (before : List Item) {index : Nat} {items rest : List Item}
    {done todo : List Statement} (place : index = before.length) (list : items = before ++ rest)
    (begun : done = statementsOf before) (left : todo = statementsOf rest)
    (allOpen : AllOpen rest) (enough : 3 * weightOfAll todo + 1 < fuel) :
    Tracks statementsOf (dueIn context.settings rest) (loop context fuel index items)
      (walkBlock context done todo) := by
  subst place list begun left
  exact lockstep.list before rest allOpen enough

variable (before : List Item) {tail : List Item} (allOpen : AllOpen tail)

include allOpen

/-- A statement that is walked over inside. -/
theorem Lockstep.onward {item : Item} (isOpen : item.origin.isOpen = true)
    (enough : 3 * weightOfAll (item.statement :: statementsOf tail) < fuel) :
    Tracks statementsOf
      (item.origin.places (reachedInside context.settings item.statement) ++
        dueIn context.settings tail)
      (goingOn context fuel (Tracing.onward (before ++ item :: tail) before.length
        (Tracing.inside context fuel item.statement item.origin)))
      (walkChildren context item.statement >>= fun walked =>
        walkBlock context (statementsOf before ++ [walked]) (statementsOf tail)) := by
  rw [weightOfAll] at enough
  have positive := weight_pos item.statement
  simp only [goingOn, onward_length, pure_bind, bind_assoc]
  refine (lockstep.inside item.statement isOpen (by omega)).bind fun walked =>
    lockstep.goOn (before ++ [{ item with statement := walked }]) ?_ ?_ ?_ rfl allOpen
      (by omega)
  · rw [List.length_append, List.length_singleton]
  · rw [List.append_assoc, List.singleton_append]
  · rw [statementsOf_append]
    rfl

/-- Wiring an invariant adds no more than a check at the end to what is still to be done. -/
theorem Lockstep.attach (checker : Checker) (parameter : String)
    (enough : 3 * (weightOfAll (statementsOf tail) + 1) + 1 < fuel) :
    Tracks statementsOf (dueIn context.settings tail)
      (loop context fuel (before.length + 2)
        (entryItems checker parameter ++ (before ++ tail).map (Item.route checker) ++
          insertedItems .exitCheck
            (checker.exitCheck (statementsOf
              (entryItems checker parameter ++ (before ++ tail).map (Item.route checker))))))
      (walkBlock context (checker.entry parameter ++ checker.routeAll (statementsOf before))
        (checker.routeAll (statementsOf tail) ++
          checker.exitCheck
            (checker.entry parameter ++ checker.routeAll (statementsOf before) ++
              checker.routeAll (statementsOf tail)))) := by
  have wired : statementsOf
      (entryItems checker parameter ++ (before ++ tail).map (Item.route checker)) =
        checker.entry parameter ++ checker.routeAll (statementsOf before) ++
          checker.routeAll (statementsOf tail) := by
    rw [List.map_append, ← List.append_assoc, statementsOf_append, statementsOf_append,
      statementsOf_route, statementsOf_route]
    rfl
  rw [wired]
  generalize ended : checker.exitCheck (checker.entry parameter ++
    checker.routeAll (statementsOf before) ++ checker.routeAll (statementsOf tail)) = ending
  have due : dueIn context.settings tail =
      dueIn context.settings
        (tail.map (Item.route checker) ++ insertedItems .exitCheck ending) := by
    rw [dueIn_append, dueIn_route, dueIn_inserted, List.append_nil]
  rw [due]
  refine lockstep.goOn (entryItems checker parameter ++ before.map (Item.route checker)) ?_ ?_ ?_ ?_
    (allOpen_append (allOpen_route allOpen checker) (allOpen_exitChecks _)) ?_
  · rw [List.length_append, List.length_map, Nat.add_comm]
    rfl
  · simp only [List.map_append, List.append_assoc]
  · rw [statementsOf_append, statementsOf_route]
    rfl
  · rw [statementsOf_append, statementsOf_route, statementsOf_inserted]
  · rw [weightOfAll_append, weightOfAll_routeAll, ← ended]
    have light := weightOfAll_exitCheck_le checker (checker.entry parameter ++
      checker.routeAll (statementsOf before) ++ checker.routeAll (statementsOf tail))
    omega

section

variable {item : Item} {label : String} {body : Statement}
  (enough : 3 * weightOfAll (.labeled label body :: statementsOf tail) < fuel)

include enough

theorem Lockstep.removeEnvironment (role : context.settings.roleOf label = .environment)
    (action : context.settings.actionFor label = .remove) :
    Tracks statementsOf (dueIn context.settings tail)
      (goingOn context fuel (removeEnvironmentAt (before ++ item :: tail) before.length))
      (walkBlock context (statementsOf before) (.labeled label body :: statementsOf tail)) := by
  rw [walkBlock]
  simp only [goingOn, role, action, removeEnvironmentAt, removeAt_length, pure_bind, bind_assoc]
  refine .silent (.perform _) fun _ => lockstep.goOn before rfl rfl rfl rfl allOpen ?_
  rw [weightOfAll] at enough
  have := weight_pos (.labeled label body)
  omega

variable (labeled : item.statement = .labeled label body)

include labeled

theorem Lockstep.inlineEnvironment (isOpen : item.origin.isOpen = true)
    (role : context.settings.roleOf label = .environment)
    (action : context.settings.actionFor label = .inline) :
    Tracks statementsOf (dueIn context.settings (item.unlabeled ++ tail))
      (goingOn context fuel (inlineEnvironmentAt (before ++ item :: tail) before.length))
      (walkBlock context (statementsOf before) (.labeled label body :: statementsOf tail)) := by
  rw [walkBlock]
  simp only [goingOn, role, action, inlineEnvironmentAt, removeAt_length, spliceAt_length,
    pure_bind, bind_assoc]
  refine .silent (.perform _) fun _ => lockstep.goOn before rfl (List.append_assoc _ _ _) rfl ?_
    (allOpen_append (allOpen_unlabeled isOpen) allOpen) ?_
  · rw [statementsOf_append, statementsOf_unlabeled, labeled]
  · rw [weightOfAll] at enough
    rw [weightOfAll_append]
    have := weightOfAll_unlabeled_lt label body
    omega

/-- A contract takes its guards with it, and what is behind it stays to be done. -/
theorem Lockstep.contract {kind : Kind} (role : context.settings.roleOf label = .contract kind) :
    Tracks statementsOf (dueIn context.settings tail)
      (goingOn context fuel (contractAt context kind (before ++ item :: tail) before.length))
      (walkBlock context (statementsOf before) (.labeled label body :: statementsOf tail)) := by
  rw [weightOfAll, weight] at enough
  have bodyWeight := weight_pos body
  have lighter : 3 * weightOfAll (statementsOf tail) + 1 < fuel := by omega
  have contractBody : item.body = body := by rw [Item.body, labeled]
  rw [walkBlock]
  simp only [goingOn, role, contractAt]
  by_cases ignores : context.ignores kind = true
  · simp only [ignores, if_true, pure_bind]
    exact lockstep.goOn (before ++ [item]) (by simp) (by simp) (by simp [statementsOf, labeled]) rfl
      allOpen lighter
  by_cases strips : context.settings.stripsContracts = true
  · simp only [ignores, strips, if_true, if_false, Bool.false_eq_true, removeAt_length, pure_bind,
      bind_assoc]
    exact .silent (.perform _) fun _ => lockstep.goOn before rfl rfl rfl rfl allOpen lighter
  simp only [ignores, strips, if_false, Bool.false_eq_true, removeAt_length, pure_bind,
    contractBody]
  cases kind with
  | precondition | assertion =>
      simp only [spliceAt_length, pure_bind, bind_assoc]
      refine .silent (.perform _) fun guards =>
        lockstep.goOn (before ++ insertedItems .guard guards) ?_ rfl ?_ rfl allOpen lighter
      · rw [List.length_append, insertedItems, List.length_map]
      · rw [statementsOf_append, statementsOf_inserted]
        rfl
  | postcondition =>
      simp only [pure_bind, bind_assoc]
      exact .silent (.perform _) fun _ => .silent (.perform _) fun _ =>
        .silent (.perform _) fun _ => lockstep.goOn before rfl rfl rfl rfl allOpen lighter
  | invariant =>
      simp only [attachTo_eq, pure_bind, bind_assoc]
      refine .silent (.perform _) fun guards => .silent (.perform _) fun checker => ?_
      rw [statementsOf_append]
      exact .silent (.perform _) fun _ => lockstep.attach before allOpen checker _ (by omega)

end

/-- One round of the loop does what the walk does with one statement. -/
theorem Lockstep.handle {item : Item} (isOpen : item.origin.isOpen = true)
    (enough : 3 * weightOfAll (item.statement :: statementsOf tail) < fuel) :
    ∃ nested, item.origin.places (reached context.settings item.statement) =
        item.origin.places [[]] ++ nested ∧
      Tracks statementsOf (nested ++ dueIn context.settings tail)
        (goingOn context fuel (handleAt context (before ++ item :: tail) before.length
          item.statement (Tracing.inside context fuel item.statement item.origin)))
        (walkBlock context (statementsOf before) (item.statement :: statementsOf tail)) := by
  rcases opens_or_labeled context.settings item.statement with
    opens | ⟨label, body, labeled, ⟨kind, role⟩ | ⟨role, action | action⟩⟩
  · refine ⟨_, by rw [reached_of_opens opens, ← List.singleton_append, Origin.places_append], ?_⟩
    rw [walkBlock_of_opens opens, handleAt_of_opens opens]
    exact lockstep.onward before allOpen isOpen enough
  · refine ⟨[], ?_, ?_⟩
    · rw [labeled, reached_of_closed body (by rw [Settings.fate, role]), List.append_nil]
    · rw [labeled] at enough ⊢
      simp only [handleAt, Statement.label?, Option.map_some, role]
      exact lockstep.contract before allOpen enough labeled role
  · refine ⟨[], ?_, ?_⟩
    · rw [labeled, reached_of_closed body (by rw [Settings.fate, role, action]), List.append_nil]
    · rw [labeled] at enough ⊢
      simp only [handleAt, Statement.label?, Option.map_some, role, action]
      exact lockstep.removeEnvironment before allOpen enough role action
  · refine ⟨_, dueIn_unlabeled labeled (by rw [Settings.fate, role, action]), ?_⟩
    rw [labeled] at enough ⊢
    simp only [handleAt, Statement.label?, Option.map_some, role, action]
    rw [← dueIn_append]
    exact lockstep.inlineEnvironment before allOpen enough labeled isOpen role action

omit allOpen

/-- The loop goes through a list as the walk does. -/
theorem Lockstep.throughList (rest : List Item) (allOpen : AllOpen rest)
    (enough : 3 * weightOfAll (statementsOf rest) < fuel) :
    Tracks statementsOf (dueIn context.settings rest)
      (loop context (fuel + 1) before.length (before ++ rest))
      (walkBlock context (statementsOf before) (statementsOf rest)) := by
  cases rest with
  | nil =>
      have done : walkBlock context (statementsOf before) (statementsOf []) =
          pure (statementsOf before) := by
        have nothing : statementsOf [] = [] := rfl
        rw [nothing, walkBlock]
      rw [List.append_nil, loop, if_neg (lt_irrefl _), done]
      exact .pure before
  | cons item tail =>
      obtain ⟨isOpen, allOpen⟩ := List.forall_mem_cons.mp allOpen
      obtain ⟨nested, places, tracks⟩ := lockstep.handle before allOpen isOpen enough
      rw [loop, if_pos (by rw [List.length_append, List.length_cons]; omega), itemAt_length,
        pure_bind, dueIn_cons, places, List.append_assoc]
      exact .record isOpen tracks

variable {origin : Origin} (isOpen : origin.isOpen = true)

include isOpen

/-- The loop goes into the place of a nested statement as the walk does. -/
theorem Lockstep.throughPart (index : Nat) (part : Statement) (enough : 3 * weight part + 2 < fuel) :
    Tracks id (origin.places ((reached context.settings part).map (index :: ·)))
      (Tracing.slot context fuel part (origin.part index)) (walkSlot context part) := by
  rw [← Origin.places_part]
  exact lockstep.slot part (Origin.isOpen_part index isOpen) enough

/-- The loop goes through what stands in a statement as the walk does. -/
theorem Lockstep.throughInside (statement : Statement) (enough : 3 * weight statement ≤ fuel) :
    Tracks id (origin.places (reachedInside context.settings statement))
      (Tracing.inside context (fuel + 1) statement origin) (walkChildren context statement) := by
  cases statement with
  | block statements =>
      rw [weight] at enough
      have list := lockstep.list [] (itemsFrom origin 0 statements)
        (allOpen_itemsFrom isOpen 0 statements) (by rw [statementsOf_itemsFrom]; omega)
      rw [dueIn_itemsFrom, statementsOf_itemsFrom] at list
      rw [Tracing.inside, walkChildren, reachedInside]
      exact list.before fun _ => .pure _
  | labeled label body | whileLoop test body | doWhileLoop body test
  | forLoop init test update body =>
      rw [weight] at enough
      rw [Tracing.inside, walkChildren, reachedInside]
      exact (lockstep.throughPart isOpen 0 body (by omega)).before fun _ => .pure _
  | branch test consequent alternate =>
      rw [weight] at enough
      cases alternate with
      | none =>
          rw [Tracing.inside, walkChildren, reachedInside, reachedInAlternate, List.append_nil]
          exact (lockstep.throughPart isOpen 0 consequent (by omega)).before fun _ => .pure _
      | some alternate =>
          rw [weightOfAlternate] at enough
          rw [Tracing.inside, walkChildren, reachedInside, reachedInAlternate,
            Origin.places_append]
          exact (lockstep.throughPart isOpen 0 consequent (by omega)).bind fun _ =>
            (lockstep.throughPart isOpen 1 alternate (by omega)).before fun _ => .pure _
  | _ =>
      rw [reachedInside, Origin.places_nil, Tracing.inside, walkChildren_simple context rfl]
      · exact .pure _
      all_goals simp

/-- The loop goes through a statement that stands alone as the walk does. -/
theorem Lockstep.throughSlot (statement : Statement) (enough : 3 * weight statement + 1 < fuel) :
    Tracks id (origin.places (reached context.settings statement))
      (Tracing.slot context (fuel + 1) statement origin) (walkSlot context statement) := by
  rw [Tracing.slot, walkSlot]
  by_cases recognized : context.recognizes statement = true
  · rw [if_pos recognized, if_pos recognized]
    have list := lockstep.list [] [⟨statement, origin⟩] (List.forall_mem_singleton.mpr isOpen)
      enough
    rw [dueIn, List.flatMap_singleton] at list
    exact list.before fun _ => .pure _
  · have unknown : context.recognizes statement = false := by simpa using recognized
    rw [if_neg recognized, if_neg recognized, reached_of_opens (opens_of_not_recognizes unknown),
      ← List.singleton_append, Origin.places_append]
    exact .record isOpen (lockstep.inside statement isOpen (by omega))

omit isOpen

/-- Fuel for one more round keeps the loop in step with the walk. -/
theorem Lockstep.succ : Lockstep context (fuel + 1) where
  list before rest allOpen enough := lockstep.throughList before rest allOpen (by omega)
  inside statement _ isOpen enough := lockstep.throughInside isOpen statement (by omega)
  slot statement _ isOpen enough := lockstep.throughSlot isOpen statement (by omega)

end

theorem lockstep_all (context : Context) (fuel : Nat) : Lockstep context fuel := by
  induction fuel with
  | zero =>
      exact
        { list := fun _ _ _ none => absurd none (Nat.not_lt_zero _)
          inside := fun _ _ _ none => absurd none (Nat.not_lt_zero _)
          slot := fun _ _ _ none => absurd none (Nat.not_lt_zero _) }
  | succ fuel induction => exact induction.succ

/-! ## Every place once -/

/-- The loop over a list, its places being numbered from the list on. -/
def loopOver (context : Context) (statements : List Statement) : Tracing (List Item) :=
  loop context (3 * weightOfAll statements + 2) 0 (itemsFrom (.source []) 0 statements)

/--
A place in a list that its walk is due to look at: no label above it closes it,
and it is not the block under a label that is dropped.
-/
def Settings.IsDueIn (settings : Settings) (statements : List Statement) (path : List Nat) : Prop :=
  path ≠ [] ∧ settings.IsDue (.block statements) path

theorem mem_reachedInAll_iff {settings : Settings} {statements : List Statement}
    {path : List Nat} :
    path ∈ reachedInAll settings 0 statements ↔ settings.IsDueIn statements path := by
  have block : path ∈ reached settings (.block statements) ↔
      settings.IsDue (.block statements) path :=
    mem_reached (.block statements) path
  rw [reached, List.mem_cons] at block
  rw [Settings.IsDueIn, ← block]
  constructor
  · intro among
    obtain ⟨first, rest, rfl, -⟩ := first_of_mem_reachedInAll 0 statements path among
    exact ⟨List.cons_ne_nil _ _, .inr among⟩
  · rintro ⟨nonempty, rfl | among⟩
    · exact absurd rfl nonempty
    · exact among

theorem count_source (visited : List Origin) (path : List Nat) :
    visited.count (.source path) = (placesOf visited).count path := by
  induction visited with
  | nil => rfl
  | cons origin rest induction =>
      cases origin with
      | source other =>
          rw [← List.singleton_append, List.count_append, placesOf_append, List.count_append,
            induction]
          congr 1
          simp [placesOf, Origin.path?, List.count_singleton]
      | inserted insertion =>
          rw [List.count_cons_of_ne (by simp), induction]
          rfl

theorem eq_source_or_exitCheck {origin : Origin} (isOpen : origin.isOpen = true) :
    (∃ path, origin = .source path) ∨ origin = .inserted .exitCheck := by
  cases origin with
  | source path => exact .inl ⟨path, rfl⟩
  | inserted insertion => cases insertion <;> first | exact .inr rfl | cases isOpen

/--
A walk over a list ends, with no index out of bounds.  If it succeeds, it has
looked at each place once that it is due to look at, and at no other place; if
it is rejected, at none twice.  It never looks at a guard, a declaration, or a
check on entry that it has put in itself.

A place is due if it stands under no contract and under no environment that is
removed, and is not the block under a label that is dropped.
-/
theorem loop_covers_once (context : Context) (statements : List Statement) (pass : Pass) :
    ∃ visited : List Origin,
      (∀ origin ∈ visited, (∃ path, origin = .source path) ∨ origin = .inserted .exitCheck) ∧
      ((∃ items after,
          loopOver context statements pass [] = (.ok (items, after), visited) ∧
          walkBlock context [] statements pass = .ok (statementsOf items, after) ∧
          ∀ path,
            (context.settings.IsDueIn statements path → visited.count (.source path) = 1) ∧
            (¬ context.settings.IsDueIn statements path → visited.count (.source path) = 0)) ∨
        ∃ reason,
          loopOver context statements pass [] = (.error (.rejected reason), visited) ∧
          walkBlock context [] statements pass = .error reason ∧
          ∀ path,
            visited.count (.source path) ≤ 1 ∧
            (¬ context.settings.IsDueIn statements path → visited.count (.source path) = 0)) := by
  have tracks := (lockstep_all context (3 * weightOfAll statements + 2)).list []
    (itemsFrom (.source []) 0 statements) (allOpen_itemsFrom rfl 0 statements)
    (by rw [statementsOf_itemsFrom]; omega)
  rw [dueIn_itemsFrom, statementsOf_itemsFrom] at tracks
  have due : (Origin.source []).places (reachedInAll context.settings 0 statements) =
      reachedInAll context.settings 0 statements := List.map_id _
  rw [due] at tracks
  have distinct : (reachedInAll context.settings 0 statements).Nodup :=
    nodup_reachedInAll 0 statements
  obtain ⟨visited, allOpen, outcome⟩ := tracks pass []
  refine ⟨visited, fun origin among => eq_source_or_exitCheck (allOpen origin among), ?_⟩
  simp only [← mem_reachedInAll_iff, count_source]
  rcases outcome with ⟨items, after, stepped, walked, places⟩ | ⟨reason, stepped, walked, places⟩
  · refine .inl ⟨items, after, stepped, walked, fun path => ?_⟩
    rw [places]
    exact ⟨List.count_eq_one_of_mem distinct, List.count_eq_zero_of_not_mem⟩
  · refine .inr ⟨reason, stepped, walked, fun path => ⟨?_, fun other => ?_⟩⟩
    · exact List.nodup_iff_count_le_one.mp (distinct.sublist places.sublist) path
    · exact List.count_eq_zero_of_not_mem fun among => other (places.subset among)

/-- Whether a label takes what it is put on out of the list. -/
def Context.deletes (context : Context) (label : String) : Bool :=
  match context.settings.roleOf label with
  | .contract kind => !context.ignores kind
  | .environment => context.settings.actionFor label == .remove
  | .other => false

/-- A walk that succeeds looks once at every place that is not deleted with what is around it. -/
def CoversAllButDeleted (context : Context) (statements : List Statement) (pass : Pass) : Prop :=
  ∀ items after visited,
    loopOver context statements pass [] = (.ok (items, after), visited) →
    ∀ path, path ≠ [] → IsDue context.deletes context.settings.frees (.block statements) path →
      visited.count (.source path) = 1

/-- An assertion under a precondition outside functions, which is left alone. -/
def assertionInPrecondition : List Statement :=
  [.labeled "pre" (.block [.labeled "assert"
    (.evaluate (.binary .gt (.identifier "x") (.literal (.number 0))))])]

/-- Places under a contract that is left alone are not looked at, though they are not deleted. -/
theorem not_coversAllButDeleted :
    ¬ CoversAllButDeleted
      ⟨Options.usual.resolve usualEnvironment, .ofProgram ⟨assertionInPrecondition⟩, .topLevel⟩
      assertionInPrecondition ⟨⟨.ofProgram ⟨assertionInPrecondition⟩, [], .zero⟩, .empty, []⟩ := by
  intro covers
  have looksOnce := covers (itemsFrom (.source []) 0 assertionInPrecondition) _ [.source [0]] rfl
    [0, 0, 0] (List.cons_ne_nil _ _)
  refine absurd (looksOnce ⟨⟨_, rfl⟩, ?_, ?_⟩) (by decide)
  · rintro (_ | ⟨_, _ | ⟨_, _ | ⟨_, above⟩⟩⟩) index below label body same found
    · cases found
    · cases same
      cases found
      rfl
    · cases same
      cases found
    · have length := congrArg List.length same
      simp at length
  · intro above index label body same found _
    obtain ⟨rfl, -⟩ := List.append_inj' (show [0, 0] ++ [0] = above ++ [index] from same) rfl
    cases found

end Covenant.Contract
