import Covenant.Proofs.CheckPoint

/-!
# Statements under watch

When checkers are in force around a statement, every return in it passes its
value through all of them.  A list of statements in it may bring checkers of its
own: these are declared and checked in front of everything else, they are in
force in the rest of the list, and they are checked again at its end unless the
list ends in a return.

Such a statement stays under watch when its returns are routed through one more
checker, and when the functions nested in it are transformed.
-/

namespace Covenant.Contract

/-- The items of a list as one group, or no group if there are none. -/
def grouped {α : Type} : List α → List (List α)
  | [] => []
  | first :: rest => [first :: rest]

@[simp]
theorem flatten_grouped {α : Type} (items : List α) : (grouped items).flatten = items := by
  cases items <;> simp [grouped]

section

variable (parameter : String) (names : List String)

mutual

/--
A statement around which some checkers are in force.  Checkers that lists in it
bring are given by groups, one for each such list, in source order.
-/
inductive Watched : List Checker → List (List Checker) → Statement → Prop where
  | leaf {force : List Checker} {statement : Statement} (simple : isSimple statement = true)
      (stays : statement.isReturn = false) (known : (avoiding (· ∉ names)).OnStatement statement) :
      Watched force [] statement
  | giveBack {force through : List Checker} (argument : Option Expression)
      (passes : through.Perm force) : Watched force [] (.giveBack (passed through argument))
  | block {force : List Checker} {made : List (List Checker)} {statements : List Statement}
      (inside : WatchedList force [] made statements) : Watched force made (.block statements)
  | labeled {force : List Checker} {made : List (List Checker)} {label : String} {body : Statement}
      (inside : Watched force made body) : Watched force made (.labeled label body)
  | branch {force : List Checker} {made : List (List Checker)} {test : Expression}
      {consequent : Statement} (inside : Watched force made consequent) :
      Watched force made (.branch test consequent none)
  | branches {force : List Checker} {made more : List (List Checker)} {test : Expression}
      {consequent alternate : Statement} (first : Watched force made consequent)
      (second : Watched force more alternate) :
      Watched force (made ++ more) (.branch test consequent (some alternate))
  | whileLoop {force : List Checker} {made : List (List Checker)} {test : Expression}
      {body : Statement} (inside : Watched force made body) :
      Watched force made (.whileLoop test body)
  | doWhileLoop {force : List Checker} {made : List (List Checker)} {test : Expression}
      {body : Statement} (inside : Watched force made body) :
      Watched force made (.doWhileLoop body test)
  | forLoop {force : List Checker} {made : List (List Checker)} {init : Option LoopInit}
      {test update : Option Expression} {body : Statement}
      (known : (avoiding (· ∉ names)).OnLoopInit init) (inside : Watched force made body) :
      Watched force made (.forLoop init test update body)

/--
A list of statements around which some checkers are in force, some of which are
checked last at its end, behind those that the list brings itself.
-/
inductive WatchedList : List Checker → List Checker → List (List Checker) → List Statement → Prop
    where
  | intro {force last own : List Checker} {made : List (List Checker)}
      {inner exits : List Statement} (distinct : (own.map Checker.name).Nodup)
      (apart : ∀ checker ∈ own, checker.name ∉ names ∧ checker.name ∉ force.map Checker.name)
      (each : WatchedAll (own ++ force) made inner)
      (ends : exits = checksOf (own ++ last) ∨ exits = [] ∧ endsInReturn inner = true) :
      WatchedList force last (grouped own ++ made)
        (entriesOf parameter own.reverse ++ inner ++ exits)

/-- Statements in turn around which some checkers are in force. -/
inductive WatchedAll : List Checker → List (List Checker) → List Statement → Prop where
  | nil {force : List Checker} : WatchedAll force [] []
  | cons {force : List Checker} {made more : List (List Checker)} {statement : Statement}
      {rest : List Statement} (head : Watched force made statement)
      (tail : WatchedAll force more rest) : WatchedAll force (made ++ more) (statement :: rest)

end

end

section

variable {parameter : String} {names : List String}

/-! ## Lists -/

theorem WatchedAll.append {force : List Checker} {made more : List (List Checker)}
    {first second : List Statement} (before : WatchedAll parameter names force made first)
    (after : WatchedAll parameter names force more second) :
    WatchedAll parameter names force (made ++ more) (first ++ second) := by
  induction first generalizing made with
  | nil =>
      cases before
      exact after
  | cons statement rest induction =>
      cases before with
      | cons head tail =>
          rw [List.append_assoc]
          exact .cons head (induction tail)

theorem WatchedAll.singleton {force : List Checker} {made : List (List Checker)}
    {statement : Statement} (watched : Watched parameter names force made statement) :
    WatchedAll parameter names force made [statement] := by
  rw [← List.append_nil made]
  exact .cons watched .nil

/-- Each of several statements is watched, with some of the helpers that they bring. -/
theorem WatchedAll.mem {force : List Checker} {made : List (List Checker)}
    {statements : List Statement} (watched : WatchedAll parameter names force made statements) :
    ∀ statement ∈ statements, ∃ own, own ⊆ made ∧
      Watched parameter names force own statement := by
  induction statements generalizing made with
  | nil => exact nofun
  | cons first rest induction =>
      cases watched with
      | cons head tail =>
          refine List.forall_mem_cons.mpr ⟨⟨_, List.subset_append_left _ _, head⟩, ?_⟩
          intro statement member
          obtain ⟨own, among, watched⟩ := induction tail statement member
          exact ⟨own, List.subset_append_of_subset_right _ among, watched⟩

/-- Statements that neither return nor contain others are watched. -/
theorem watchedAll_of_leaves {force : List Checker} {statements : List Statement}
    (leaves : ∀ statement ∈ statements, Watched parameter names force [] statement) :
    WatchedAll parameter names force [] statements := by
  induction statements with
  | nil => exact .nil
  | cons statement rest induction =>
      rw [List.forall_mem_cons] at leaves
      exact .cons leaves.1 (induction leaves.2)

/-- A list that brings no checkers is watched if its statements are. -/
theorem WatchedAll.list {force : List Checker} {made : List (List Checker)}
    {statements : List Statement} (each : WatchedAll parameter names force made statements) :
    WatchedList parameter names force [] made statements := by
  have bare : WatchedList parameter names force [] (grouped [] ++ made)
      (entriesOf parameter [].reverse ++ statements ++ checksOf []) :=
    .intro List.nodup_nil (List.forall_mem_nil _) each (.inl rfl)
  simpa [grouped, entriesOf, checksOf] using bare

/-- A guard is watched. -/
theorem watched_of_isPlainGuard {force : List Checker} {guard : Statement}
    (plain : IsPlainGuard true guard) : Watched parameter names force [] guard := by
  rcases plain with ⟨test, message, rfl, _, _⟩
  refine .branch (.block (WatchedAll.list (.singleton (.leaf rfl rfl ?_))))
  rw [Parts.OnStatement]
  trivial

/-! ## The order in which checkers are in force -/

mutual

/-- It does not matter in which order checkers are in force. -/
theorem Watched.perm {force other : List Checker} {made : List (List Checker)}
    {statement : Statement} (same : force.Perm other) :
    Watched parameter names force made statement → Watched parameter names other made statement
  | .leaf simple stays known => .leaf simple stays known
  | .giveBack argument passes => .giveBack argument (passes.trans same)
  | .block inside => .block (inside.perm same)
  | .labeled inside => .labeled (inside.perm same)
  | .branch inside => .branch (inside.perm same)
  | .branches first second => .branches (first.perm same) (second.perm same)
  | .whileLoop inside => .whileLoop (inside.perm same)
  | .doWhileLoop inside => .doWhileLoop (inside.perm same)
  | .forLoop known inside => .forLoop known (inside.perm same)

theorem WatchedList.perm {force last other : List Checker} {made : List (List Checker)}
    {statements : List Statement} (same : force.Perm other) :
    WatchedList parameter names force last made statements →
      WatchedList parameter names other last made statements
  | .intro distinct apart each ends => by
      refine .intro distinct (fun checker member => ⟨(apart checker member).1, fun taken => ?_⟩)
        (each.perm (same.append_left _)) ends
      exact (apart checker member).2 ((same.map Checker.name).mem_iff.mpr taken)

theorem WatchedAll.perm {force other : List Checker} {made : List (List Checker)}
    {statements : List Statement} (same : force.Perm other) :
    WatchedAll parameter names force made statements →
      WatchedAll parameter names other made statements
  | .nil => .nil
  | .cons head tail => .cons (head.perm same) (tail.perm same)

end

/-! ## The names of checkers -/

/-- Checkers in groups have names that are neither known nor those of checkers in force. -/
def Unlike (names : List String) (force : List Checker) (made : List (List Checker)) : Prop :=
  ∀ checker ∈ made.flatten, checker.name ∉ names ∧ checker.name ∉ force.map Checker.name

theorem unlike_append {force : List Checker} {made more : List (List Checker)} :
    Unlike names force (made ++ more) ↔ Unlike names force made ∧ Unlike names force more := by
  rw [Unlike, List.flatten_append, List.forall_mem_append]
  rfl

mutual

/-- The checkers that a watched statement brings have names of their own. -/
theorem Watched.unlike {force : List Checker} {made : List (List Checker)} {statement : Statement} :
    Watched parameter names force made statement → Unlike names force made
  | .leaf _ _ _ | .giveBack _ _ => nofun
  | .block inside => inside.unlike
  | .labeled inside | .branch inside | .whileLoop inside | .doWhileLoop inside
  | .forLoop _ inside => inside.unlike
  | .branches first second => unlike_append.mpr ⟨first.unlike, second.unlike⟩

theorem WatchedList.unlike {force last : List Checker} {made : List (List Checker)}
    {statements : List Statement} :
    WatchedList parameter names force last made statements → Unlike names force made
  | .intro _ apart each _ => by
      refine unlike_append.mpr ⟨?_, fun checker member => ⟨(each.unlike checker member).1, ?_⟩⟩
      · rwa [Unlike, flatten_grouped]
      · intro taken
        refine (each.unlike checker member).2 ?_
        rw [List.map_append]
        exact List.mem_append_right _ taken

theorem WatchedAll.unlike {force : List Checker} {made : List (List Checker)}
    {statements : List Statement} :
    WatchedAll parameter names force made statements → Unlike names force made
  | .nil => nofun
  | .cons head tail => unlike_append.mpr ⟨head.unlike, tail.unlike⟩

end

/-- Entries are simple statements, and none of them is a return. -/
theorem isSimple_of_mem_entriesOf {checkers : List Checker} {statement : Statement}
    (member : statement ∈ entriesOf parameter checkers) :
    isSimple statement = true ∧ statement.isReturn = false := by
  obtain ⟨checker, _, entry⟩ := List.mem_flatMap.mp member
  simp only [Checker.entry, List.mem_cons, List.not_mem_nil, or_false] at entry
  rcases entry with rfl | rfl <;> exact ⟨rfl, rfl⟩

theorem avoiding_entriesOf {avoided : String → Prop} {checkers : List Checker}
    (apart : ∀ checker ∈ checkers, ¬ avoided checker.name) :
    (avoiding avoided).OnStatements (entriesOf parameter checkers) := by
  induction checkers with
  | nil => exact trivial
  | cons checker rest induction =>
      rw [List.forall_mem_cons] at apart
      rw [entriesOf, List.flatMap_cons, Parts.onStatements_append]
      refine ⟨⟨?_, trivial, trivial⟩, induction apart.2⟩
      intro name declares
      have named : name = checker.name := by simpa [namesOfDeclarators] using declares
      rw [named]
      exact apart.1

theorem avoiding_check {avoided : String → Prop} (checker : Checker) :
    (avoiding avoided).OnStatement checker.check :=
  trivial

theorem avoiding_checksOf {avoided : String → Prop} (checkers : List Checker) :
    (avoiding avoided).OnStatements (checksOf checkers) := by
  refine Parts.onStatements_iff.mpr fun statement member => ?_
  rcases List.mem_map.mp member with ⟨checker, _, rfl⟩
  exact avoiding_check checker

section

set_option linter.unusedSectionVars false

variable {avoided : String → Prop} (other : ∀ name, avoided name → name ∉ names)

include other

mutual

/-- A watched statement declares known names and those of the checkers that it brings. -/
theorem Watched.avoids {force : List Checker} {made : List (List Checker)} {statement : Statement}
    (apart : ∀ checker ∈ made.flatten, ¬ avoided checker.name) :
    Watched parameter names force made statement → (avoiding avoided).OnStatement statement
  | .leaf _ _ known => Parts.OnStatement.imp (avoiding_within other) _ known
  | .giveBack _ _ => by
      rw [Parts.OnStatement]
      exact fun _ _ => trivial
  | .block inside => by
      rw [Parts.OnStatement]
      exact inside.avoids apart
  | .labeled inside => by
      rw [Parts.OnStatement]
      exact inside.avoids apart
  | .branch inside => by
      rw [Parts.OnStatement]
      exact ⟨trivial, inside.avoids apart, trivial⟩
  | .branches first second => by
      rw [List.flatten_append, List.forall_mem_append] at apart
      rw [Parts.OnStatement]
      exact ⟨trivial, first.avoids apart.1, second.avoids apart.2⟩
  | .whileLoop inside | .doWhileLoop inside => by
      rw [Parts.OnStatement]
      exact ⟨trivial, inside.avoids apart⟩
  | .forLoop known inside => by
      rw [Parts.OnStatement]
      exact ⟨Parts.OnLoopInit.imp (avoiding_within other) _ known, fun _ _ => trivial,
        fun _ _ => trivial, inside.avoids apart⟩

theorem WatchedList.avoids {force last : List Checker} {made : List (List Checker)}
    {statements : List Statement} (apart : ∀ checker ∈ made.flatten, ¬ avoided checker.name) :
    WatchedList parameter names force last made statements →
      (avoiding avoided).OnStatements statements
  | .intro _ _ each ends => by
      rw [List.flatten_append, flatten_grouped, List.forall_mem_append] at apart
      rw [Parts.onStatements_append, Parts.onStatements_append]
      refine ⟨⟨avoiding_entriesOf ?_, each.avoids apart.2⟩, ?_⟩
      · exact fun checker member => apart.1 checker (List.mem_reverse.mp member)
      · rcases ends with rfl | ⟨rfl, _⟩
        · exact avoiding_checksOf _
        · exact trivial

theorem WatchedAll.avoids {force : List Checker} {made : List (List Checker)}
    {statements : List Statement} (apart : ∀ checker ∈ made.flatten, ¬ avoided checker.name) :
    WatchedAll parameter names force made statements → (avoiding avoided).OnStatements statements
  | .nil => trivial
  | .cons head tail => by
      rw [List.flatten_append, List.forall_mem_append] at apart
      rw [Parts.OnStatements]
      exact ⟨head.avoids apart.1, tail.avoids apart.2⟩

end

end

/-! ## Routing -/

/-- A statement that neither returns nor contains others has nothing to route. -/
theorem route_of_isSimple {statement : Statement} (simple : isSimple statement = true)
    (stays : statement.isReturn = false) (checker : Checker) :
    checker.route statement = statement := by
  cases statement with
  | giveBack => cases stays
  | block | labeled | branch | whileLoop | doWhileLoop | forLoop => cases simple
  | _ => rfl

theorem routeAll_entriesOf (checker : Checker) (parameter : String) (checkers : List Checker) :
    checker.routeAll (entriesOf parameter checkers) = entriesOf parameter checkers :=
  routedThrough_entriesOf parameter [checker] checkers

section

variable (checker : Checker)

mutual

/-- A watched statement is watched by one more checker when its returns are routed through it. -/
theorem Watched.route {force : List Checker} {made : List (List Checker)} {statement : Statement}
    (apart : ∀ other ∈ made.flatten, other.name ≠ checker.name) :
    Watched parameter names force made statement →
      Watched parameter names (checker :: force) made (checker.route statement)
  | .leaf simple stays known => by
      rw [route_of_isSimple simple stays]
      exact .leaf simple stays known
  | @Watched.giveBack _ _ _ through argument passes => by
      have routed : Watched parameter names (checker :: force) []
          (.giveBack (passed (through ++ [checker]) argument)) :=
        .giveBack argument ((List.perm_append_singleton checker through).trans (passes.cons checker))
      rwa [passed_append] at routed
  | .block inside => by
      rw [Checker.route]
      exact .block (inside.route apart)
  | .labeled inside => by
      rw [Checker.route]
      exact .labeled (inside.route apart)
  | .branch inside => by
      rw [Checker.route, Checker.routeAlternate]
      exact .branch (inside.route apart)
  | .branches first second => by
      rw [List.flatten_append, List.forall_mem_append] at apart
      rw [Checker.route, Checker.routeAlternate]
      exact .branches (first.route apart.1) (second.route apart.2)
  | .whileLoop inside => by
      rw [Checker.route]
      exact .whileLoop (inside.route apart)
  | .doWhileLoop inside => by
      rw [Checker.route]
      exact .doWhileLoop (inside.route apart)
  | .forLoop known inside => by
      rw [Checker.route]
      exact .forLoop known (inside.route apart)

theorem WatchedList.route {force last : List Checker} {made : List (List Checker)}
    {statements : List Statement} (apart : ∀ other ∈ made.flatten, other.name ≠ checker.name) :
    WatchedList parameter names force last made statements →
      WatchedList parameter names (checker :: force) last made (checker.routeAll statements)
  | @WatchedList.intro _ _ _ _ _ _ _ exits distinct own each ends => by
      rw [List.flatten_append, flatten_grouped, List.forall_mem_append] at apart
      have kept : checker.routeAll exits = exits := by
        rcases ends with rfl | ⟨rfl, _⟩
        · exact routeAll_checksOf checker _
        · rfl
      rw [routeAll_append, routeAll_append, routeAll_entriesOf, kept]
      refine .intro distinct (fun other member => ⟨(own other member).1, ?_⟩)
        ((each.route apart.2).perm List.perm_middle.symm) ?_
      · rw [List.map_cons, List.mem_cons, not_or]
        exact ⟨apart.1 other member, (own other member).2⟩
      · rwa [endsInReturn_routeAll]

theorem WatchedAll.route {force : List Checker} {made : List (List Checker)}
    {statements : List Statement} (apart : ∀ other ∈ made.flatten, other.name ≠ checker.name) :
    WatchedAll parameter names force made statements →
      WatchedAll parameter names (checker :: force) made (checker.routeAll statements)
  | .nil => .nil
  | .cons head tail => by
      rw [List.flatten_append, List.forall_mem_append] at apart
      rw [Checker.routeAll]
      exact .cons (head.route apart.1) (tail.route apart.2)

end

end

/-- Watched statements whose returns are routed through several checkers are watched by them. -/
theorem WatchedAll.routedThrough {checkers : List Checker} {made : List (List Checker)}
    (apart : ∀ other ∈ made.flatten, ∀ checker ∈ checkers, other.name ≠ checker.name) :
    ∀ {force : List Checker} {statements : List Statement},
      WatchedAll parameter names force made statements →
        WatchedAll parameter names (checkers ++ force) made
          (Contract.routedThrough checkers statements) := by
  induction checkers with
  | nil => exact id
  | cons checker rest induction =>
      intro force statements watched
      have routed := watched.route checker fun other member => apart other member checker
        List.mem_cons_self
      exact (induction (fun other member later among => apart other member later
        (List.mem_cons_of_mem _ among)) routed).perm List.perm_middle

/-! ## Nested functions -/

theorem isSimple_of_exchange {exchange : Exchange} (only : OnlyFunctions exchange)
    {source target : Statement} (related : exchange.OnStatement source target) :
    isSimple target = isSimple source := by
  cases related with
  | exchanged given => rw [(only.statement given).1]
  | _ => rfl

section

set_option linter.unusedSectionVars false

variable {exchange : Exchange} {parts : Parts} (only : OnlyFunctions exchange)
  (leaves : LeavesHelpers names exchange parts)
  (carried : Parts.Carried exchange (avoiding (· ∉ names)) (avoiding (· ∉ names)))

section

omit carried

include only leaves

/-- The entries of helpers are left alone. -/
theorem eq_of_entriesOf {checkers : List Checker} {target : List Statement}
    (unknown : ∀ checker ∈ checkers, checker.name ∉ names)
    (holds : parts.OnStatements (entriesOf parameter checkers))
    (related : exchange.OnStatements (entriesOf parameter checkers) target) :
    target = entriesOf parameter checkers := by
  induction checkers generalizing target with
  | nil =>
      cases related
      rfl
  | cons checker rest induction =>
      rw [List.forall_mem_cons] at unknown
      rw [entriesOf, List.flatMap_cons, Parts.onStatements_append] at holds
      rcases exists_of_append related with ⟨front, back, rfl, entry, more⟩
      rw [induction unknown.2 holds.2 more]
      cases entry with
      | cons declares others =>
          cases others with
          | cons checks nothing =>
              cases nothing
              rw [eq_of_check only checks]
              cases declares with
              | exchanged given =>
                  rw [← (only.statement given).1]
                  rfl
              | bindings inner =>
                  have bound := @eq_or_declaresHelper_eq_false _ _ _ only leaves .constant _ _
                    holds.1.1 inner
                  rcases bound with rfl | ⟨absurd, _⟩
                  · rfl
                  · simp [declaresHelper, unknown.1] at absurd

omit leaves in
theorem eq_of_checksOf {checkers : List Checker} {target : List Statement}
    (related : exchange.OnStatements (checksOf checkers) target) : target = checksOf checkers := by
  induction checkers generalizing target with
  | nil =>
      cases related
      rfl
  | cons checker rest induction =>
      cases related with
      | cons head tail =>
          rw [induction tail, eq_of_check only head]
          rfl

end

include only leaves carried

mutual

/-- A watched statement is still watched when the functions in it are transformed. -/
theorem Watched.exchanged {force : List Checker} {made : List (List Checker)}
    {source target : Statement} (holds : parts.OnStatement source)
    (related : exchange.OnStatement source target) :
    Watched parameter names force made source → Watched parameter names force made target
  | .leaf simple stays known => by
      refine .leaf ?_ ?_ (Parts.onStatement_of_exchange carried related known)
      · rwa [isSimple_of_exchange only related]
      · rwa [isReturn_of_exchange only related]
  | .giveBack argument passes => by
      cases related with
      | exchanged given => exact (only.not_exchanged given nofun).elim
      | giveBack inner =>
          rcases exists_of_passed only _ inner with ⟨given, _, rfl⟩
          exact .giveBack given passes
  | .block inside => by
      rw [Parts.OnStatement] at holds
      cases related with
      | exchanged given => exact (only.not_exchanged given nofun).elim
      | block inner => exact .block (inside.exchanged holds inner)
  | .labeled inside => by
      rw [Parts.OnStatement] at holds
      cases related with
      | exchanged given => exact (only.not_exchanged given nofun).elim
      | labeled inner => exact .labeled (inside.exchanged holds inner)
  | .branch inside => by
      rw [Parts.OnStatement] at holds
      cases related with
      | exchanged given => exact (only.not_exchanged given nofun).elim
      | branch _ inner alternate =>
          cases alternate
          exact .branch (inside.exchanged holds.2.1 inner)
  | .branches first second => by
      rw [Parts.OnStatement, Parts.OnAlternate] at holds
      cases related with
      | exchanged given => exact (only.not_exchanged given nofun).elim
      | branch _ inner alternate =>
          cases alternate with
          | some other =>
              exact .branches (first.exchanged holds.2.1 inner) (second.exchanged holds.2.2 other)
  | .whileLoop inside => by
      rw [Parts.OnStatement] at holds
      cases related with
      | exchanged given => exact (only.not_exchanged given nofun).elim
      | whileLoop _ inner => exact .whileLoop (inside.exchanged holds.2 inner)
  | .doWhileLoop inside => by
      rw [Parts.OnStatement] at holds
      cases related with
      | exchanged given => exact (only.not_exchanged given nofun).elim
      | doWhileLoop inner _ => exact .doWhileLoop (inside.exchanged holds.2 inner)
  | .forLoop known inside => by
      rw [Parts.OnStatement] at holds
      cases related with
      | exchanged given => exact (only.not_exchanged given nofun).elim
      | forLoop init _ _ inner =>
          exact .forLoop (Parts.onLoopInit_of_exchange carried init known)
            (inside.exchanged holds.2.2.2 inner)

theorem WatchedList.exchanged {force last : List Checker} {made : List (List Checker)}
    {source target : List Statement} (holds : parts.OnStatements source)
    (related : exchange.OnStatements source target) :
    WatchedList parameter names force last made source →
      WatchedList parameter names force last made target
  | .intro distinct apart each ends => by
      rw [Parts.onStatements_append, Parts.onStatements_append] at holds
      rcases exists_of_append related with ⟨front, back, rfl, related, exit⟩
      rcases exists_of_append related with ⟨entries, middle, rfl, entry, inner⟩
      rw [eq_of_entriesOf only leaves (fun checker member =>
        (apart checker (List.mem_reverse.mp member)).1) holds.1.1 entry]
      refine .intro distinct apart (each.exchanged holds.1.2 inner) ?_
      rw [endsInReturn_of_exchange only inner]
      rcases ends with rfl | ⟨rfl, ends⟩
      · exact .inl (eq_of_checksOf only exit)
      · cases exit
        exact .inr ⟨rfl, ends⟩

theorem WatchedAll.exchanged {force : List Checker} {made : List (List Checker)}
    {source target : List Statement} (holds : parts.OnStatements source)
    (related : exchange.OnStatements source target) :
    WatchedAll parameter names force made source → WatchedAll parameter names force made target
  | .nil => by
      cases related
      exact .nil
  | .cons head tail => by
      rw [Parts.OnStatements] at holds
      cases related with
      | cons first rest =>
          exact .cons (head.exchanged holds.1 first) (tail.exchanged holds.2 rest)

end

end

end

end Covenant.Contract
