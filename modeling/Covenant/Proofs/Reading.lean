import Covenant.Proofs.Routed

/-!
# Which contracts govern a return

An invariant governs every return in the list of statements in which it
stands, at any depth: returns before it and after it, in nested blocks and in
loops, but not those of nested functions.  A label that extraction drops
leaves its statements to the list around it.

Of a source, the governing invariants of every return are read as positions
among all invariants that survive, in source order.  Of an output, what is
read are the declarations of helpers in the lists around every return.  Both
readings join the statements of a list in the same way.
-/

namespace Covenant.Contract

/-- A return, and what governs it. -/
structure GovernedReturn (α : Type) where
  governors : List α
  argument : Option Expression

/-- What is read of statements in a list: what governs the list, and the returns in them. -/
structure Reading (α : Type) where
  governors : List α
  returns : List (GovernedReturn α)

namespace GovernedReturn

variable {α β : Type}

/-- A return that is governed by others in front and behind. -/
def within (front back : List α) (given : GovernedReturn α) : GovernedReturn α :=
  ⟨front ++ given.governors ++ back, given.argument⟩

@[simp]
theorem within_nil : (within [] [] : GovernedReturn α → GovernedReturn α) = id := by
  funext given
  simp [within]

@[simp]
theorem within_comp_within (front back front' back' : List α) :
    within front back ∘ within front' back' = within (front ++ front') (back' ++ back) := by
  funext given
  simp [within]

/-- A return with other names for what governs it. -/
def map (change : α → β) (given : GovernedReturn α) : GovernedReturn β :=
  ⟨given.governors.map change, given.argument⟩

/-- A return with another argument. -/
def withArgument (change : Option Expression → Option Expression) (given : GovernedReturn α) :
    GovernedReturn α :=
  ⟨given.governors, change given.argument⟩

theorem map_comp_within (change : α → β) (front back : List α) :
    map change ∘ within front back = within (front.map change) (back.map change) ∘ map change := by
  funext given
  simp [map, within]

theorem withArgument_comp_within
    (change : Option Expression → Option Expression) (front back : List α) :
    withArgument change ∘ within front back = within front back ∘ withArgument change :=
  rfl

end GovernedReturn

namespace Reading

variable {α β : Type}

/-- Nothing is read. -/
def empty : Reading α :=
  ⟨[], []⟩

/-- A single return. -/
def returning (argument : Option Expression) : Reading α :=
  ⟨[], [⟨[], argument⟩]⟩

/-- A statement that governs its list. -/
def governing (governor : α) : Reading α :=
  ⟨[governor], []⟩

/-- What governs a list of its own governs nothing around it. -/
def enclosed (reading : Reading α) : Reading α :=
  ⟨[], reading.returns⟩

/-- Statements followed by others in one list: each govern the returns of both. -/
def follow (first second : Reading α) : Reading α where
  governors := first.governors ++ second.governors
  returns :=
    first.returns.map (.within [] second.governors) ++
      second.returns.map (.within first.governors [])

/-- A reading with other names for what governs. -/
def map (change : α → β) (reading : Reading α) : Reading β :=
  ⟨reading.governors.map change, reading.returns.map (.map change)⟩

/-- A reading with other returned values. -/
def withArguments (change : Option Expression → Option Expression) (reading : Reading α) :
    Reading α :=
  ⟨reading.governors, reading.returns.map (.withArgument change)⟩

@[simp]
theorem empty_follow (reading : Reading α) : empty.follow reading = reading := by
  simp [follow, empty]

@[simp]
theorem follow_empty (reading : Reading α) : reading.follow empty = reading := by
  simp [follow, empty]

@[simp]
theorem governors_empty : (empty : Reading α).governors = [] :=
  rfl

@[simp]
theorem governors_enclosed (reading : Reading α) : reading.enclosed.governors = [] :=
  rfl

@[simp]
theorem enclosed_empty : (empty : Reading α).enclosed = empty :=
  rfl

@[simp]
theorem enclosed_enclosed (reading : Reading α) : reading.enclosed.enclosed = reading.enclosed :=
  rfl

@[simp]
theorem map_empty (change : α → β) : (empty : Reading α).map change = empty :=
  rfl

@[simp]
theorem map_enclosed (change : α → β) (reading : Reading α) :
    reading.enclosed.map change = (reading.map change).enclosed :=
  rfl

@[simp]
theorem withArguments_empty (change : Option Expression → Option Expression) :
    (empty : Reading α).withArguments change = empty :=
  rfl

@[simp]
theorem enclosed_withArguments
    (change : Option Expression → Option Expression) (reading : Reading α) :
    reading.enclosed.withArguments change = (reading.withArguments change).enclosed :=
  rfl

theorem follow_assoc (first second third : Reading α) :
    (first.follow second).follow third = first.follow (second.follow third) := by
  simp [follow]

theorem map_follow (change : α → β) (first second : Reading α) :
    (first.follow second).map change = (first.map change).follow (second.map change) := by
  simp [map, follow, GovernedReturn.map_comp_within]

theorem map_withArguments
    (rename : α → β) (change : Option Expression → Option Expression) (reading : Reading α) :
    (reading.withArguments change).map rename = (reading.map rename).withArguments change := by
  simp [map, withArguments, GovernedReturn.map, GovernedReturn.withArgument, Function.comp_def]

theorem withArguments_follow
    (change : Option Expression → Option Expression) (first second : Reading α) :
    (first.follow second).withArguments change =
      (first.withArguments change).follow (second.withArguments change) := by
  simp [withArguments, follow, GovernedReturn.withArgument_comp_within]

end Reading

/-! ## Reading a source -/

/-- The bodies of the contracts of a kind that survive in statements. -/
def stated (settings : Settings) (kind : Kind) : Collection Statement where
  expression _ := []
  function _ := []
  declared _ := []
  labeled label body :=
    match settings.roleOf label with
    | .contract other => some (if other = kind then [body] else [])
    | .environment => if settings.actionFor label = .remove then some [] else none
    | .other => none

/-- What a contract gives if it is of the kind that is asked for: its body. -/
def statedBody (kind other : Kind) (body : Statement) : List Statement :=
  if other = kind then [body] else []

/-- The contracts of a kind are gathered from all contracts. -/
theorem stated_eq_gathered (settings : Settings) (kind : Kind) :
    stated settings kind = gathered settings (statedBody kind) :=
  rfl

/-- How many contracts of a kind survive in statements. -/
def countStated (settings : Settings) (kind : Kind) (statements : List Statement) : Nat :=
  ((stated settings kind).ofStatements statements).length

section

variable (settings : Settings)

mutual

/--
What is read of a statement of a function: its returns, each with the
positions of the invariants that govern it.  Positions count from a given one.
The statements of a block are those of the list around it if they are spliced.
-/
def readSource (position : Nat) (spliced : Bool) : Statement → Reading Nat
  | .giveBack argument => .returning argument
  | .block statements =>
    if spliced then readSourceAll position statements
    else (readSourceAll position statements).enclosed
  | .labeled label body =>
    match settings.roleOf label with
    | .contract .invariant => .governing position
    | .contract _ => .empty
    | .environment =>
      match settings.actionFor label with
      | .keep => (readSource position false body).enclosed
      | .remove => .empty
      | .inline => readSource position true body
    | .other => (readSource position false body).enclosed
  | .branch _ consequent alternate =>
    (readSource position false consequent).enclosed.follow
      (readSourceAlternate (position + countStated settings .invariant [consequent]) alternate)
  | .whileLoop _ body | .doWhileLoop body _ | .forLoop _ _ _ body =>
    (readSource position false body).enclosed
  | .evaluate _ | .bindings _ _ | .declare _ | .raise _ | .breakOut _ | .continueLoop _ | .empty =>
    .empty

/-- What is read of a statement that may be missing. -/
def readSourceAlternate (position : Nat) : Option Statement → Reading Nat
  | none => .empty
  | some statement => (readSource position false statement).enclosed

/-- What is read of the statements of a list in turn. -/
def readSourceAll (position : Nat) : List Statement → Reading Nat
  | [] => .empty
  | statement :: rest =>
    (readSource position false statement).follow
      (readSourceAll (position + countStated settings .invariant [statement]) rest)

end

end

section

variable {settings : Settings}

/-- A contract is stated by itself, if it is of the kind asked for. -/
theorem stated_of_contract
    {label : String} {other kind : Kind} (role : settings.roleOf label = .contract other)
    (body : Statement) :
    (stated settings kind).ofStatement (.labeled label body) =
      if other = kind then [body] else [] := by
  rw [stated_eq_gathered]
  exact gathered_of_contract role body

theorem stated_of_removed
    {label : String} {kind : Kind} (role : settings.roleOf label = .environment)
    (action : settings.actionFor label = .remove) (body : Statement) :
    (stated settings kind).ofStatement (.labeled label body) = [] := by
  rw [stated_eq_gathered]
  exact gathered_of_removed role action body

/-- Of code that stays the same contracts are stated with its label as without it. -/
theorem stated_of_entered
    {label : String} {kind : Kind}
    (enters : settings.roleOf label = .other ∨
      settings.roleOf label = .environment ∧ settings.actionFor label ≠ .remove)
    (body : Statement) :
    (stated settings kind).ofStatement (.labeled label body) =
      (stated settings kind).ofStatement body := by
  rw [stated_eq_gathered]
  exact gathered_of_entered enters body

theorem countStated_singleton (kind : Kind) (statement : Statement) :
    countStated settings kind [statement] = ((stated settings kind).ofStatement statement).length := by
  rw [countStated, Collection.ofStatements_singleton]

theorem countStated_append (kind : Kind) (first second : List Statement) :
    countStated settings kind (first ++ second) =
      countStated settings kind first + countStated settings kind second := by
  rw [countStated, Collection.ofStatements_append, List.length_append, countStated, countStated]

/-- Of two parts of a list, each governs the returns of both. -/
theorem readSourceAll_append (first second : List Statement) :
    ∀ position,
      readSourceAll settings position (first ++ second) =
        (readSourceAll settings position first).follow
          (readSourceAll settings (position + countStated settings .invariant first) second) := by
  induction first with
  | nil =>
      intro position
      rw [List.nil_append, readSourceAll, Reading.empty_follow]
      rfl
  | cons statement rest induction =>
      intro position
      have counted : countStated settings .invariant (statement :: rest) =
          countStated settings .invariant [statement] + countStated settings .invariant rest :=
        countStated_append _ [statement] rest
      rw [List.cons_append, readSourceAll, readSourceAll, induction, Reading.follow_assoc, counted,
        Nat.add_assoc]

/-- Routing keeps the order of contracts. -/
theorem stated_routes (settings : Settings) (kind : Kind) (checker : Checker) :
    (stated settings kind).Routes checker checker.route := by
  rw [stated_eq_gathered]
  apply gathered_routes
  intro other body
  rw [statedBody, statedBody]
  split <;> rfl

theorem countStated_routeAll (kind : Kind) (checker : Checker) (statements : List Statement) :
    countStated settings kind (checker.routeAll statements) =
      countStated settings kind statements := by
  rw [countStated, Collection.ofStatements_routeAll (stated_routes settings kind checker),
    List.length_map, countStated]

theorem countStated_route (kind : Kind) (checker : Checker) (statement : Statement) :
    countStated settings kind [checker.route statement] =
      countStated settings kind [statement] := by
  rw [← countStated_routeAll kind checker [statement], Checker.routeAll, Checker.routeAll]

mutual

/-- Routed statements have the same returns, with other arguments. -/
theorem readSource_route (checker : Checker) (position : Nat) (spliced : Bool) :
    (statement : Statement) →
      readSource settings position spliced (checker.route statement) =
        (readSource settings position spliced statement).withArguments (checker.passing id)
  | .giveBack argument => by
      rw [Checker.route, readSource, readSource]
      rfl
  | .block statements => by
      rw [Checker.route, readSource, readSource, readSourceAll_routeAll checker position statements]
      split <;> rfl
  | .labeled label body => by
      rw [Checker.route, readSource, readSource]
      split
      · rfl
      · rfl
      · split
        · rw [readSource_route checker position false body, Reading.enclosed_withArguments]
        · rfl
        · exact readSource_route checker position true body
      · rw [readSource_route checker position false body, Reading.enclosed_withArguments]
  | .branch _ consequent alternate => by
      rw [Checker.route, readSource, readSource, Reading.withArguments_follow,
        readSource_route checker position false consequent, countStated_route,
        readSourceAlternate_route checker _ alternate, Reading.enclosed_withArguments]
  | .whileLoop _ body | .doWhileLoop body _ | .forLoop _ _ _ body => by
      rw [Checker.route, readSource, readSource, readSource_route checker position false body,
        Reading.enclosed_withArguments]
  | .evaluate _ | .bindings _ _ | .declare _ | .raise _ | .breakOut _ | .continueLoop _
  | .empty => by
      rw [Checker.route] <;> simp [readSource, Reading.withArguments, Reading.empty]

theorem readSourceAlternate_route (checker : Checker) (position : Nat) :
    (alternate : Option Statement) →
      readSourceAlternate settings position (checker.routeAlternate alternate) =
        (readSourceAlternate settings position alternate).withArguments (checker.passing id)
  | none => by
      rw [Checker.routeAlternate, readSourceAlternate]
      rfl
  | some statement => by
      rw [Checker.routeAlternate, readSourceAlternate, readSourceAlternate,
        readSource_route checker position false statement, Reading.enclosed_withArguments]

/-- Routed lists have the same returns, with other arguments. -/
theorem readSourceAll_routeAll (checker : Checker) (position : Nat) :
    (statements : List Statement) →
      readSourceAll settings position (checker.routeAll statements) =
        (readSourceAll settings position statements).withArguments (checker.passing id)
  | [] => by
      rw [Checker.routeAll, readSourceAll]
      rfl
  | statement :: rest => by
      rw [Checker.routeAll, readSourceAll, readSourceAll, Reading.withArguments_follow,
        readSource_route checker position false statement, countStated_route,
        readSourceAll_routeAll checker _ rest]

end

theorem readSourceAll_singleton (position : Nat) (statement : Statement) :
    readSourceAll settings position [statement] = readSource settings position false statement := by
  rw [readSourceAll, readSourceAll, Reading.follow_empty]

/-- A statement of which nothing is read can be left out. -/
theorem readSourceAll_of_inert
    {position : Nat} {statement : Statement}
    (nothing : readSource settings position false statement = .empty)
    (none : (stated settings .invariant).ofStatement statement = []) (rest : List Statement) :
    readSourceAll settings position (statement :: rest) =
      readSourceAll settings position rest := by
  rw [readSourceAll, nothing, Reading.empty_follow, countStated_singleton, none]
  rfl

/-- The statements of code whose label is dropped are read in its place. -/
theorem readSourceAll_unlabeled
    {label : String} (role : settings.roleOf label = .environment)
    (action : settings.actionFor label = .inline) (body : Statement) (position : Nat) :
    readSourceAll settings position (Statement.labeled label body).unlabeled =
      readSource settings position false (.labeled label body) := by
  have inlined : readSource settings position false (.labeled label body) =
      readSource settings position true body := by
    simp only [readSource, role, action]
  rw [inlined]
  cases body with
  | block statements => simp [Statement.unlabeled, readSource]
  | _ => simp [Statement.unlabeled, readSourceAll_singleton, readSource]

/-- What stands under a label that stays is a list of its own. -/
theorem readSource_labeled
    {label : String}
    (stays : settings.roleOf label = .other ∨
      settings.roleOf label = .environment ∧ settings.actionFor label = .keep)
    (body : Statement) (position : Nat) :
    readSource settings position false (.labeled label body) =
      (readSource settings position false body).enclosed := by
  rcases stays with role | ⟨role, action⟩
  · simp only [readSource, role]
  · simp only [readSource, role, action]

/-- An unlabeled statement does not govern the list that it stands in. -/
theorem governors_readSource
    {statement : Statement} (plain : statement.label? = none) (position : Nat) :
    (readSource settings position false statement).governors = [] := by
  cases statement with
  | labeled => cases plain
  | branch test consequent alternate =>
      cases alternate <;> simp [readSource, readSourceAlternate, Reading.follow]
  | _ => simp [readSource, Reading.returning]

/-- Nothing is read of the check at the end of statements. -/
theorem readSourceAll_exitCheck (checker : Checker) (position : Nat) (statements : List Statement) :
    readSourceAll settings position (checker.exitCheck statements) = .empty := by
  unfold Checker.exitCheck
  split
  · rw [readSourceAll]
  · rw [readSourceAll, readSourceAll, Checker.check, readSource, Reading.follow_empty]

end

/-! ## Reading an output -/

/--
Whether a statement declares a helper: a constant whose value is a function,
under a name that the program does not have.
-/
def declaresHelper (names : List String) : Statement → Bool
  | .bindings .constant [⟨name, some (.lambda _)⟩] => !names.contains name
  | _ => false

section

variable (names : List String)

mutual

/--
What is read of a statement of an output: its returns, each with the
declarations of helpers in the lists around it.
-/
def readOutput : Statement → Reading Statement
  | .giveBack argument => .returning argument
  | .block statements => (readOutputAll statements).enclosed
  | .labeled _ body => (readOutput body).enclosed
  | .branch _ consequent alternate =>
    (readOutput consequent).enclosed.follow (readOutputAlternate alternate)
  | .whileLoop _ body | .doWhileLoop body _ | .forLoop _ _ _ body => (readOutput body).enclosed
  | .bindings kind declarators =>
    if declaresHelper names (.bindings kind declarators) then
      .governing (.bindings kind declarators)
    else .empty
  | .evaluate _ | .declare _ | .raise _ | .breakOut _ | .continueLoop _ | .empty => .empty

/-- What is read of a statement that may be missing. -/
def readOutputAlternate : Option Statement → Reading Statement
  | none => .empty
  | some statement => (readOutput statement).enclosed

/-- What is read of the statements of a list in turn. -/
def readOutputAll : List Statement → Reading Statement
  | [] => .empty
  | statement :: rest => (readOutput statement).follow (readOutputAll rest)

end

end

section

variable {names : List String}

theorem readOutputAll_append (first second : List Statement) :
    readOutputAll names (first ++ second) =
      (readOutputAll names first).follow (readOutputAll names second) := by
  induction first with
  | nil => rw [List.nil_append, readOutputAll, Reading.empty_follow]
  | cons statement rest induction =>
      rw [List.cons_append, readOutputAll, readOutputAll, induction, Reading.follow_assoc]

theorem readOutputAll_singleton (statement : Statement) :
    readOutputAll names [statement] = readOutput names statement := by
  rw [readOutputAll, readOutputAll, Reading.follow_empty]

/-- Nothing is read of statements if nothing is read of any of them. -/
theorem readOutputAll_eq_empty
    {statements : List Statement}
    (each : ∀ statement ∈ statements, readOutput names statement = .empty) :
    readOutputAll names statements = .empty := by
  induction statements with
  | nil => rw [readOutputAll]
  | cons statement rest induction =>
      rw [readOutputAll, each statement List.mem_cons_self,
        induction fun other member => each other (List.mem_cons_of_mem _ member),
        Reading.empty_follow]

mutual

/-- Routed statements of an output have the same returns, with other arguments. -/
theorem readOutput_route (checker : Checker) : (statement : Statement) →
    readOutput names (checker.route statement) =
      (readOutput names statement).withArguments (checker.passing id)
  | .giveBack argument => by
      rw [Checker.route, readOutput, readOutput]
      rfl
  | .block statements => by
      rw [Checker.route, readOutput, readOutput, readOutputAll_routeAll checker statements,
        Reading.enclosed_withArguments]
  | .labeled _ body | .whileLoop _ body | .doWhileLoop body _ | .forLoop _ _ _ body => by
      rw [Checker.route, readOutput, readOutput, readOutput_route checker body,
        Reading.enclosed_withArguments]
  | .branch _ consequent alternate => by
      rw [Checker.route, readOutput, readOutput, Reading.withArguments_follow,
        readOutput_route checker consequent, readOutputAlternate_route checker alternate,
        Reading.enclosed_withArguments]
  | .bindings kind declarators => by
      rw [Checker.route]
      · rw [readOutput]
        split <;> rfl
      all_goals intros; contradiction
  | .evaluate _ | .declare _ | .raise _ | .breakOut _ | .continueLoop _ | .empty => by
      rw [Checker.route] <;> simp [readOutput, Reading.withArguments, Reading.empty]

theorem readOutputAlternate_route (checker : Checker) : (alternate : Option Statement) →
    readOutputAlternate names (checker.routeAlternate alternate) =
      (readOutputAlternate names alternate).withArguments (checker.passing id)
  | none => by
      rw [Checker.routeAlternate, readOutputAlternate]
      rfl
  | some statement => by
      rw [Checker.routeAlternate, readOutputAlternate, readOutputAlternate,
        readOutput_route checker statement, Reading.enclosed_withArguments]

/-- Routed lists of an output have the same returns, with other arguments. -/
theorem readOutputAll_routeAll (checker : Checker) : (statements : List Statement) →
    readOutputAll names (checker.routeAll statements) =
      (readOutputAll names statements).withArguments (checker.passing id)
  | [] => by
      rw [Checker.routeAll, readOutputAll]
      rfl
  | statement :: rest => by
      rw [Checker.routeAll, readOutputAll, readOutputAll, Reading.withArguments_follow,
        readOutput_route checker statement, readOutputAll_routeAll checker rest]

end

/-- Nothing is read of the check at the end of statements. -/
theorem readOutputAll_exitCheck (checker : Checker) (statements : List Statement) :
    readOutputAll names (checker.exitCheck statements) = .empty := by
  unfold Checker.exitCheck
  split
  · rw [readOutputAll]
  · rw [readOutputAll_singleton, Checker.check, readOutput]

/-- Nothing is read of guards. -/
theorem readOutputAll_guards
    {guards : List Statement} {calls : Bool} (plain : ∀ guard ∈ guards, IsPlainGuard calls guard) :
    readOutputAll names guards = .empty := by
  refine readOutputAll_eq_empty fun guard member => ?_
  obtain ⟨test, message, rfl, _, _⟩ := plain guard member
  simp [guardClause, readOutput, readOutputAll, readOutputAlternate]

/-- The declaration of a checker under a name that the program does not have is read as such. -/
theorem readOutput_declaration
    {checker : Checker} (unknown : checker.name ∉ names) (parameter : String) :
    readOutput names (checker.declaration parameter) =
      .governing (checker.declaration parameter) := by
  rw [Checker.declaration, readOutput, if_pos]
  simpa [declaresHelper] using unknown

theorem readOutputAll_entry
    {checker : Checker} (unknown : checker.name ∉ names) (parameter : String) :
    readOutputAll names (checker.entry parameter) =
      .governing (checker.declaration parameter) := by
  rw [Checker.entry, readOutputAll, readOutputAll_singleton, readOutput_declaration unknown,
    Checker.check, readOutput, Reading.follow_empty]

end

end Covenant.Contract
