import Covenant.Contract.Transform

/-!
# The loop of a walk

A walk over a list can be done by a loop in place: an index runs through the
list, and what is done at the index removes, splices, and inserts statements,
so that the index may stay or skip and the list may shrink and grow.

The loop here has fuel, checks every index, and records the origin of every
statement that it looks at.  The index always stands behind what is done and
before what is still to be done, so that no step finds it out of bounds.
-/

namespace Covenant.Contract

/-! ## Items -/

/-- What a walk puts into a list. -/
inductive Insertion where
  | guard
  | declaration
  | entryCheck
  | exitCheck
  deriving DecidableEq, Repr

/-- Where a statement in a list comes from. -/
inductive Origin where
  /-- The place at the end of a path in what is walked over. -/
  | source (path : List Nat)
  /-- The walk itself. -/
  | inserted (insertion : Insertion)
  deriving DecidableEq, Repr

namespace Origin

/-- The origin of a nested statement. -/
def part : Origin → Nat → Origin
  | source path, index => source (path ++ [index])
  | inserted insertion, _ => inserted insertion

/-- Whether a statement may still be looked at. -/
def isOpen : Origin → Bool
  | source _ | inserted .exitCheck => true
  | inserted _ => false

/-- The place of a statement in what is walked over. -/
def path? : Origin → Option (List Nat)
  | source path => some path
  | inserted _ => none

/-- The places of nested statements. -/
def places (origin : Origin) (nested : List (List Nat)) : List (List Nat) :=
  match origin with
  | source path => nested.map (path ++ ·)
  | inserted _ => []

end Origin

/-- A statement in a list. -/
structure Item where
  statement : Statement
  origin : Origin

/-- The statements of items. -/
def statementsOf (items : List Item) : List Statement :=
  items.map Item.statement

/-- Statements that the walk itself puts into a list. -/
def insertedItems (insertion : Insertion) (statements : List Statement) : List Item :=
  statements.map (⟨·, .inserted insertion⟩)

/-- Nested statements that are numbered from an index on. -/
def itemsFrom (origin : Origin) (index : Nat) : List Statement → List Item
  | [] => []
  | statement :: rest => ⟨statement, origin.part index⟩ :: itemsFrom origin (index + 1) rest

namespace Item

/-- Route the returns of an item. -/
def route (checker : Checker) (item : Item) : Item :=
  { item with statement := checker.route item.statement }

/-- What a label is put on. -/
def body (item : Item) : Statement :=
  match item.statement with
  | .labeled _ body => body
  | statement => statement

/-- What is left of an item without its label. -/
def unlabeled (item : Item) : List Item :=
  match item.statement with
  | .labeled _ (.block statements) => itemsFrom (item.origin.part 0) 0 statements
  | .labeled _ body => [⟨body, item.origin.part 0⟩]
  | _ => [item]

end Item

/-! ## The loop -/

/-- What ends a loop before it is done. -/
inductive Halt where
  | outOfFuel
  | outOfBounds
  | rejected (reason : Error)

/-- A step of a loop, which records the origins of the statements that it looks at. -/
abbrev Tracing := StateT Pass (ExceptT Halt (StateM (List Origin)))

namespace Tracing

variable {α : Type}

/-- End the loop. -/
def halt (reason : Halt) : Tracing α :=
  fun _ => throw reason

/-- Look at a statement. -/
def record (origin : Origin) : Tracing Unit :=
  fun pass => do
    modify (· ++ [origin])
    pure ((), pass)

/-- Take a step of a walk. -/
def perform (step : Walking α) : Tracing α :=
  fun pass =>
    match step pass with
    | .ok outcome => pure outcome
    | .error reason => throw (.rejected reason)

/-- The item at an index. -/
def itemAt (items : List Item) (index : Nat) : Tracing Item :=
  match items[index]? with
  | some item => pure item
  | none => halt .outOfBounds

/-- Take the item at an index out of a list. -/
def removeAt (items : List Item) (index : Nat) : Tracing (Item × List Item) := do
  let item ← itemAt items index
  pure (item, items.eraseIdx index)

/-- Put another statement in the place of the one at an index. -/
def replaceAt (items : List Item) (index : Nat) (statement : Statement) :
    Tracing (List Item) := do
  let item ← itemAt items index
  pure (items.set index { item with statement := statement })

/-- Put items into a list at an index. -/
def spliceAt (items : List Item) (index : Nat) (inserted : List Item) : Tracing (List Item) :=
  if index ≤ items.length then
    pure (items.take index ++ inserted ++ items.drop index)
  else
    halt .outOfBounds

/-- Wire an invariant into a list, and count the returns in it. -/
def attachTo (checker : Checker) (parameter : String) (items : List Item) :
    Tracing (List Item × Nat) := do
  let items ← spliceAt items 0 [⟨checker.declaration parameter, .inserted .declaration⟩]
  let items ← spliceAt items 1 [⟨checker.check, .inserted .entryCheck⟩]
  let returns := countReturnsOfAll (statementsOf items)
  let items := items.map (Item.route checker)
  pure (items ++ insertedItems .exitCheck (checker.exitCheck (statementsOf items)), returns)

/-- Handle the contract at an index; the index goes on to what is to be looked at next. -/
def contractAt (context : Context) (kind : Kind) (items : List Item) (index : Nat) :
    Tracing (Nat × List Item) :=
  if context.ignores kind then
    pure (index + 1, items)
  else if context.settings.stripsContracts then do
    let (_, items) ← removeAt items index
    perform (count fun summary => { summary with stripped := summary.stripped + 1 })
    pure (index, items)
  else do
    let (item, items) ← removeAt items index
    let site : Site := ⟨kind, context.owner⟩
    match kind with
    | .precondition | .assertion => do
      let guards ← perform (placeGuards site item.body)
      let items ← spliceAt items index (insertedItems .guard guards)
      pure (index + guards.length, items)
    | .postcondition => do
      let guards ← perform (checkedGuards context site item.body)
      let checker ← perform (makeChecker site "Postcondition" guards)
      perform (addPostcondition checker)
      pure (index, items)
    | .invariant => do
      let guards ← perform (checkedGuards context site item.body)
      let checker ← perform (makeChecker site "Invariant" guards)
      let (items, returns) ← attachTo checker context.settings.tokens.result items
      perform (count fun summary =>
        { summary with returnsRouted := summary.returnsRouted + returns })
      pure (index + 2, items)

/-- Remove the environment at an index. -/
def removeEnvironmentAt (items : List Item) (index : Nat) : Tracing (Nat × List Item) := do
  let (_, items) ← removeAt items index
  perform (count fun summary => { summary with stripped := summary.stripped + 1 })
  pure (index, items)

/-- Put what the environment label at an index is put on in its place. -/
def inlineEnvironmentAt (items : List Item) (index : Nat) : Tracing (Nat × List Item) := do
  let (item, items) ← removeAt items index
  perform (count fun summary => { summary with inlined := summary.inlined + 1 })
  let items ← spliceAt items index item.unlabeled
  pure (index, items)

/-- Put what comes of the statement at an index in its place, and go on to the next one. -/
def onward (items : List Item) (index : Nat) (walk : Tracing Statement) :
    Tracing (Nat × List Item) := do
  let statement ← walk
  let items ← replaceAt items index statement
  pure (index + 1, items)

/-- Handle the item at an index, given a walk over the statements nested in it. -/
def handleAt (context : Context) (items : List Item) (index : Nat) (statement : Statement)
    (walk : Tracing Statement) : Tracing (Nat × List Item) :=
  match statement.label?.map fun label => (label, context.settings.roleOf label) with
  | some (_, .contract kind) => contractAt context kind items index
  | some (label, .environment) =>
    match context.settings.actionFor label with
    | .keep => onward items index walk
    | .remove => removeEnvironmentAt items index
    | .inline => inlineEnvironmentAt items index
  | _ => onward items index walk

mutual

/-- Look at the items of a list from an index on. -/
def loop (context : Context) : (fuel index : Nat) → List Item → Tracing (List Item)
  | 0, _, _ => halt .outOfFuel
  | fuel + 1, index, items =>
    if index < items.length then do
      let item ← itemAt items index
      record item.origin
      let (next, items) ←
        handleAt context items index item.statement (inside context fuel item.statement item.origin)
      loop context fuel next items
    else
      pure items

/-- Look at the statements nested in a statement. -/
def inside (context : Context) : (fuel : Nat) → Statement → Origin → Tracing Statement
  | 0, _, _ => halt .outOfFuel
  | fuel + 1, statement, origin =>
    match statement with
    | .block statements => do
      let items ← loop context fuel 0 (itemsFrom origin 0 statements)
      pure (.block (statementsOf items))
    | .branch test consequent none => do
      let consequent ← slot context fuel consequent (origin.part 0)
      pure (.branch test consequent none)
    | .branch test consequent (some alternate) => do
      let consequent ← slot context fuel consequent (origin.part 0)
      let alternate ← slot context fuel alternate (origin.part 1)
      pure (.branch test consequent (some alternate))
    | .whileLoop test body => do
      let body ← slot context fuel body (origin.part 0)
      pure (.whileLoop test body)
    | .doWhileLoop body test => do
      let body ← slot context fuel body (origin.part 0)
      pure (.doWhileLoop body test)
    | .forLoop init test update body => do
      let body ← slot context fuel body (origin.part 0)
      pure (.forLoop init test update body)
    | .labeled label body => do
      let body ← slot context fuel body (origin.part 0)
      pure (.labeled label body)
    | statement => pure statement

/-- Look at a statement that stands alone in its place. -/
def slot (context : Context) : (fuel : Nat) → Statement → Origin → Tracing Statement
  | 0, _, _ => halt .outOfFuel
  | fuel + 1, statement, origin =>
    if context.recognizes statement then do
      let items ← loop context fuel 0 [⟨statement, origin⟩]
      pure (.block (statementsOf items))
    else do
      record origin
      inside context fuel statement origin

end

/-! ## Steps of the loop -/

section

variable {β : Type}

theorem bind_eq (first : Tracing α) (next : α → Tracing β) (pass : Pass) (log : List Origin) :
    (first >>= next) pass log =
      match first pass log with
      | (.ok (value, between), log) => next value between log
      | (.error reason, log) => (.error reason, log) := by
  simp only [bind, StateT.bind, ExceptT.bind, ExceptT.mk]
  cases first pass log with
  | mk outcome log => cases outcome <;> rfl

theorem perform_eq (step : Walking α) (pass : Pass) (log : List Origin) :
    perform step pass log =
      match step pass with
      | .ok outcome => (.ok outcome, log)
      | .error reason => (.error (.rejected reason), log) := by
  unfold perform
  cases step pass <;> rfl

end

section

variable (before tail : List Item) (item : Item)

theorem itemAt_length : itemAt (before ++ item :: tail) before.length = pure item := by
  rw [itemAt, List.getElem?_append_right (Nat.le_refl _), Nat.sub_self, List.getElem?_cons_zero]

theorem removeAt_length :
    removeAt (before ++ item :: tail) before.length = pure (item, before ++ tail) := by
  rw [removeAt, itemAt_length, pure_bind, List.eraseIdx_append_of_length_le (Nat.le_refl _),
    Nat.sub_self, List.eraseIdx_cons_zero]

theorem replaceAt_length (statement : Statement) :
    replaceAt (before ++ item :: tail) before.length statement =
      pure (before ++ { item with statement := statement } :: tail) := by
  rw [replaceAt, itemAt_length, pure_bind, List.set_append_right _ _ (Nat.le_refl _), Nat.sub_self,
    List.set_cons_zero]

theorem spliceAt_length (inserted : List Item) :
    spliceAt (before ++ tail) before.length inserted = pure (before ++ inserted ++ tail) := by
  rw [spliceAt, if_pos (by rw [List.length_append]; omega), List.take_left, List.drop_left]

theorem onward_length (walk : Tracing Statement) :
    onward (before ++ item :: tail) before.length walk = (do
      let statement ← walk
      pure (before.length + 1, before ++ { item with statement := statement } :: tail)) := by
  simp only [onward, replaceAt_length, pure_bind]

end

/-- The declaration and the check of an invariant as items. -/
def entryItems (checker : Checker) (parameter : String) : List Item :=
  [⟨checker.declaration parameter, .inserted .declaration⟩, ⟨checker.check, .inserted .entryCheck⟩]

/-- What an invariant makes of the list around it. -/
theorem attachTo_eq (checker : Checker) (parameter : String) (items : List Item) :
    attachTo checker parameter items =
      pure
        (entryItems checker parameter ++ items.map (Item.route checker) ++
            insertedItems .exitCheck
              (checker.exitCheck
                (statementsOf (entryItems checker parameter ++ items.map (Item.route checker)))),
          countReturnsOfAll (statementsOf items)) := by
  have first := spliceAt_length [] items [⟨checker.declaration parameter, .inserted .declaration⟩]
  have second := spliceAt_length [⟨checker.declaration parameter, .inserted .declaration⟩] items
    [⟨checker.check, .inserted .entryCheck⟩]
  have returns : countReturnsOfAll (statementsOf (entryItems checker parameter ++ items)) =
      countReturnsOfAll (statementsOf items) := by
    simp [statementsOf, entryItems, countReturnsOfAll, countReturns, Checker.declaration,
      Checker.check]
  have routed : (entryItems checker parameter ++ items).map (Item.route checker) =
      entryItems checker parameter ++ items.map (Item.route checker) := by
    rw [List.map_append]
    rfl
  have entered : spliceAt items 0 [⟨checker.declaration parameter, .inserted .declaration⟩] =
      pure (⟨checker.declaration parameter, .inserted .declaration⟩ :: items) := first
  have checked :
      spliceAt (⟨checker.declaration parameter, .inserted .declaration⟩ :: items) 1
          [⟨checker.check, .inserted .entryCheck⟩] =
        pure (entryItems checker parameter ++ items) := second
  rw [attachTo, entered, pure_bind, checked, pure_bind]
  dsimp only
  rw [returns, routed]

end Tracing

end Covenant.Contract
