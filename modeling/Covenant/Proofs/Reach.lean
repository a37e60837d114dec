import Mathlib.Data.List.Nodup
import Covenant.Contract.Transform

/-!
# What a walk gets to

A walk looks at a statement and goes on to the statements nested in it, unless
the statement has a label that closes it: a contract, which is replaced or left
alone as a whole, or an environment that is removed.  The block under a label
that is dropped is not looked at itself, its statements are.

The places that a walk gets to are listed here along the recursion of the walk.
No place is listed twice, and a place is listed just if no label above it
closes it.
-/

namespace Covenant

/-! ## Places -/

namespace Statement

/-- The statement nested in a statement at an index. -/
def part? : Statement → Nat → Option Statement
  | block statements, index => statements[index]?
  | labeled _ body, 0 | whileLoop _ body, 0 | doWhileLoop body _, 0 | forLoop _ _ _ body, 0 =>
    some body
  | branch _ consequent _, 0 => some consequent
  | branch _ _ alternate, 1 => alternate
  | _, _ => none

/-- The statement that a path of indices leads to. -/
def at? : Statement → List Nat → Option Statement
  | statement, [] => some statement
  | statement, index :: rest => (statement.part? index).bind (·.at? rest)

theorem at?_cons {statement part : Statement} {index : Nat} {rest : List Nat}
    (nested : statement.part? index = some part) :
    statement.at? (index :: rest) = part.at? rest := by
  rw [at?, nested, Option.bind_some]

end Statement

namespace Contract

/-- What a label does to what it is put on. -/
inductive Fate where
  /-- It is walked over. -/
  | open
  /-- It is not looked at. -/
  | closed
  /-- It takes the place of the labeled statement. -/
  | freed
  deriving DecidableEq, Repr

/-- The fate of what a label is put on. -/
def Settings.fate (settings : Settings) (label : String) : Fate :=
  match settings.roleOf label with
  | .contract _ => .closed
  | .other => .open
  | .environment =>
    match settings.actionFor label with
    | .keep => .open
    | .remove => .closed
    | .inline => .freed

/--
A place that a walk over a statement is due to look at: no label above it
closes it, and it is not the block under a label that is dropped.
-/
structure IsDue (closes frees : String → Bool) (statement : Statement) (path : List Nat) :
    Prop where
  stands : ∃ found, statement.at? path = some found
  opened : ∀ above index below label body, path = above ++ index :: below →
    statement.at? above = some (.labeled label body) → closes label = false
  whole : ∀ above index label body, path = above ++ [index] →
    statement.at? above = some (.labeled label body) → frees label = true → body.isBlock = false

section

variable {closes frees : String → Bool} {statement part : Statement} {index : Nat}
  {rest : List Nat}

theorem IsDue.nil (statement : Statement) : IsDue closes frees statement [] where
  stands := ⟨statement, rfl⟩
  opened above _ _ _ _ same := by cases above <;> cases same
  whole above _ _ _ same := by cases above <;> cases same

/-- A nested place is due just if the step down to it is open and the rest of the path is. -/
theorem isDue_cons (nested : statement.part? index = some part) :
    IsDue closes frees statement (index :: rest) ↔
      (∀ label body, statement = .labeled label body →
        closes label = false ∧ (rest = [] → frees label = true → body.isBlock = false)) ∧
      IsDue closes frees part rest := by
  constructor
  · rintro ⟨stands, opened, whole⟩
    refine ⟨?_, ?_, ?_, ?_⟩
    · rintro label body rfl
      refine ⟨opened [] index rest label body rfl rfl, ?_⟩
      rintro rfl
      exact whole [] index label body rfl rfl
    · rwa [Statement.at?_cons nested] at stands
    · intro above next below label body same found
      exact opened (index :: above) next below label body (by rw [same]; rfl)
        ((Statement.at?_cons nested).trans found)
    · intro above next label body same found
      exact whole (index :: above) next label body (by rw [same]; rfl)
        ((Statement.at?_cons nested).trans found)
  · rintro ⟨step, stands, opened, whole⟩
    refine ⟨?_, ?_, ?_⟩
    · rwa [Statement.at?_cons nested]
    · intro above next below label body same found
      cases above with
      | nil => exact (step label body (Option.some_inj.mp found)).1
      | cons first above =>
          obtain ⟨rfl, rfl⟩ := List.cons.inj same
          rw [Statement.at?_cons nested] at found
          exact opened above next below label body rfl found
    · intro above next label body same found
      cases above with
      | nil =>
          obtain ⟨rfl, rfl⟩ := List.cons.inj same
          exact (step label body (Option.some_inj.mp found)).2 rfl
      | cons first above =>
          obtain ⟨rfl, rfl⟩ := List.cons.inj same
          rw [Statement.at?_cons nested] at found
          exact whole above next label body rfl found

theorem not_isDue_cons (absent : statement.part? index = none) :
    ¬ IsDue closes frees statement (index :: rest) := by
  rintro ⟨⟨found, stands⟩, -, -⟩
  rw [Statement.at?, absent] at stands
  cases stands

end

/-! ## Places in turn -/

section

variable (settings : Settings)

mutual

/-- The places that a walk which looks at a statement gets to, in order. -/
def reached : Statement → List (List Nat)
  | .block statements => [] :: reachedInAll 0 statements
  | .labeled label body =>
    [] ::
      match settings.fate label with
      | .open => (reached body).map (0 :: ·)
      | .closed => []
      | .freed => (if body.isBlock then (reached body).tail else reached body).map (0 :: ·)
  | .branch _ consequent alternate =>
    [] :: ((reached consequent).map (0 :: ·) ++ reachedInAlternate alternate)
  | .whileLoop _ body | .doWhileLoop body _ | .forLoop _ _ _ body =>
    [] :: (reached body).map (0 :: ·)
  | _ => [[]]

/-- The places in a second branch, if there is one. -/
def reachedInAlternate : Option Statement → List (List Nat)
  | none => []
  | some statement => (reached statement).map (1 :: ·)

/-- The places in statements that are numbered from an index on. -/
def reachedInAll (index : Nat) : List Statement → List (List Nat)
  | [] => []
  | statement :: rest => (reached statement).map (index :: ·) ++ reachedInAll (index + 1) rest

end

/-- The places that a walk over the statements nested in a statement gets to. -/
def reachedInside : Statement → List (List Nat)
  | .block statements => reachedInAll settings 0 statements
  | .branch _ consequent alternate =>
    (reached settings consequent).map (0 :: ·) ++ reachedInAlternate settings alternate
  | .labeled _ body | .whileLoop _ body | .doWhileLoop body _ | .forLoop _ _ _ body =>
    (reached settings body).map (0 :: ·)
  | _ => []

end

variable {settings : Settings}

theorem reached_of_plain {statement : Statement} (plain : statement.label? = none) :
    reached settings statement = [] :: reachedInside settings statement := by
  cases statement with
  | labeled => cases plain
  | _ => rfl

theorem reached_of_open {label : String} (body : Statement)
    (fate : settings.fate label = .open) :
    reached settings (.labeled label body) =
      [] :: reachedInside settings (.labeled label body) := by
  rw [reached, fate, reachedInside]

theorem reached_of_closed {label : String} (body : Statement)
    (fate : settings.fate label = .closed) : reached settings (.labeled label body) = [[]] := by
  rw [reached, fate]

/-- A walk that looks at a statement gets to the statement itself first. -/
theorem exists_reached_eq (statement : Statement) :
    ∃ inner, reached settings statement = [] :: inner := by
  cases statement <;> exact ⟨_, rfl⟩

/-! ## Routing -/

theorem isBlock_route (checker : Checker) (statement : Statement) :
    (checker.route statement).isBlock = statement.isBlock := by
  cases statement <;> rfl

mutual

/-- Routing returns changes no places. -/
theorem reached_route (checker : Checker) : (statement : Statement) →
    reached settings (checker.route statement) = reached settings statement
  | .block statements => by
      rw [Checker.route, reached, reached, reachedInAll_routeAll checker 0 statements]
  | .labeled _ body => by
      rw [Checker.route, reached, reached, reached_route checker body, isBlock_route]
  | .branch _ consequent alternate => by
      rw [Checker.route, reached, reached, reached_route checker consequent,
        reachedInAlternate_route checker alternate]
  | .whileLoop _ body | .doWhileLoop body _ | .forLoop _ _ _ body => by
      rw [Checker.route, reached, reached, reached_route checker body]
  | .giveBack _ | .evaluate _ | .bindings _ _ | .declare _ | .raise _ | .breakOut _
  | .continueLoop _ | .empty => by
      rfl

theorem reachedInAlternate_route (checker : Checker) : (alternate : Option Statement) →
    reachedInAlternate settings (checker.routeAlternate alternate) =
      reachedInAlternate settings alternate
  | none => by
      rfl
  | some statement => by
      rw [Checker.routeAlternate, reachedInAlternate, reachedInAlternate,
        reached_route checker statement]

theorem reachedInAll_routeAll (checker : Checker) : (index : Nat) →
    (statements : List Statement) →
    reachedInAll settings index (checker.routeAll statements) =
      reachedInAll settings index statements
  | _, [] => by
      rfl
  | index, statement :: statements => by
      rw [Checker.routeAll, reachedInAll, reachedInAll, reached_route checker statement,
        reachedInAll_routeAll checker (index + 1) statements]

end

/-! ## Each place once -/

theorem mem_map_cons {first : Nat} {path : List Nat} {paths : List (List Nat)} :
    path ∈ paths.map (first :: ·) ↔ ∃ rest ∈ paths, path = first :: rest := by
  simp only [List.mem_map, eq_comm]

theorem nodup_map_cons {first : Nat} {paths : List (List Nat)} :
    (paths.map (first :: ·)).Nodup ↔ paths.Nodup :=
  List.nodup_map_iff fun _ _ => List.tail_eq_of_cons_eq

/-- Paths that begin with an index, before others that do not. -/
theorem nodup_append_of_first {first : Nat} {paths others : List (List Nat)}
    (left : paths.Nodup) (right : others.Nodup)
    (apart : ∀ rest, first :: rest ∉ others) : (paths.map (first :: ·) ++ others).Nodup := by
  refine List.nodup_append'.mpr ⟨nodup_map_cons.mpr left, right, fun path among other => ?_⟩
  obtain ⟨rest, -, rfl⟩ := mem_map_cons.mp among
  exact apart rest other

theorem nodup_nil_cons {paths : List (List Nat)} (distinct : paths.Nodup)
    (nonempty : [] ∉ paths) : ([] :: paths).Nodup :=
  List.nodup_cons.mpr ⟨nonempty, distinct⟩

theorem nil_notMem_map_cons {first : Nat} {paths : List (List Nat)} :
    [] ∉ paths.map (first :: ·) := by
  intro among
  obtain ⟨_, -, absurd⟩ := mem_map_cons.mp among
  cases absurd

/-- The places in statements begin with their indices. -/
theorem first_of_mem_reachedInAll : (index : Nat) → (statements : List Statement) →
    ∀ path ∈ reachedInAll settings index statements,
      ∃ first rest, path = first :: rest ∧ index ≤ first
  | _, [], _, among => by
      rw [reachedInAll] at among
      cases among
  | index, statement :: statements, path, among => by
      rw [reachedInAll, List.mem_append, mem_map_cons] at among
      rcases among with ⟨rest, -, rfl⟩ | later
      · exact ⟨index, rest, rfl, Nat.le_refl index⟩
      · obtain ⟨first, rest, same, least⟩ := first_of_mem_reachedInAll _ statements path later
        exact ⟨first, rest, same, Nat.le_of_succ_le least⟩

theorem first_of_mem_reachedInAlternate (alternate : Option Statement) :
    ∀ path ∈ reachedInAlternate settings alternate, ∃ rest, path = 1 :: rest := by
  intro path among
  cases alternate with
  | none =>
      rw [reachedInAlternate] at among
      cases among
  | some statement =>
      obtain ⟨rest, -, rfl⟩ := mem_map_cons.mp among
      exact ⟨rest, rfl⟩

mutual

/-- A walk gets to no place twice. -/
theorem nodup_reached : (statement : Statement) → (reached settings statement).Nodup
  | .block statements => by
      rw [reached]
      refine nodup_nil_cons (nodup_reachedInAll 0 statements) fun among => ?_
      obtain ⟨_, _, absurd, -⟩ := first_of_mem_reachedInAll 0 statements _ among
      cases absurd
  | .labeled label body => by
      rw [reached]
      have inner := nodup_reached body
      split
      · exact nodup_nil_cons (nodup_map_cons.mpr inner) nil_notMem_map_cons
      · exact List.nodup_singleton _
      · refine nodup_nil_cons (nodup_map_cons.mpr ?_) nil_notMem_map_cons
        split
        · exact inner.tail
        · exact inner
  | .branch _ consequent alternate => by
      rw [reached]
      refine nodup_nil_cons (nodup_append_of_first (nodup_reached consequent)
        (nodup_reachedInAlternate alternate) fun rest among => ?_) fun among => ?_
      · obtain ⟨_, absurd⟩ := first_of_mem_reachedInAlternate alternate _ among
        cases absurd
      · rcases List.mem_append.mp among with first | second
        · exact nil_notMem_map_cons first
        · obtain ⟨_, absurd⟩ := first_of_mem_reachedInAlternate alternate _ second
          cases absurd
  | .whileLoop _ body | .doWhileLoop body _ | .forLoop _ _ _ body => by
      rw [reached]
      exact nodup_nil_cons (nodup_map_cons.mpr (nodup_reached body)) nil_notMem_map_cons
  | .evaluate _ | .giveBack _ | .bindings _ _ | .declare _ | .raise _ | .breakOut _
  | .continueLoop _ | .empty => by
      exact List.nodup_singleton _

theorem nodup_reachedInAlternate : (alternate : Option Statement) →
    (reachedInAlternate settings alternate).Nodup
  | none => List.nodup_nil
  | some statement => nodup_map_cons.mpr (nodup_reached statement)

theorem nodup_reachedInAll : (index : Nat) → (statements : List Statement) →
    (reachedInAll settings index statements).Nodup
  | _, [] => List.nodup_nil
  | index, statement :: statements => by
      rw [reachedInAll]
      refine nodup_append_of_first (nodup_reached statement)
        (nodup_reachedInAll (index + 1) statements) fun rest among => ?_
      obtain ⟨first, _, same, least⟩ := first_of_mem_reachedInAll _ statements _ among
      cases same
      omega

end

/-! ## Which places -/

/-- Whether a label closes what it is put on. -/
def Settings.closes (settings : Settings) (label : String) : Bool :=
  settings.fate label == .closed

/-- Whether a label gives way to what it is put on. -/
def Settings.frees (settings : Settings) (label : String) : Bool :=
  settings.fate label == .freed

/-- A place that a walk with given settings is due to look at. -/
abbrev Settings.IsDue (settings : Settings) (statement : Statement) (path : List Nat) : Prop :=
  Contract.IsDue settings.closes settings.frees statement path

/-- The step down from a statement without a label is open. -/
theorem isDue_cons_of_plain {statement part : Statement} {index : Nat} {rest : List Nat}
    (plain : statement.label? = none) (nested : statement.part? index = some part) :
    settings.IsDue statement (index :: rest) ↔ settings.IsDue part rest := by
  rw [Settings.IsDue, isDue_cons nested]
  refine and_iff_right ?_
  rintro label body rfl
  cases plain

theorem isDue_labeled {label : String} {body : Statement} {rest : List Nat} :
    settings.IsDue (.labeled label body) (0 :: rest) ↔
      (settings.closes label = false ∧ (rest = [] → settings.frees label = true →
        body.isBlock = false)) ∧ settings.IsDue body rest := by
  have nested : (Statement.labeled label body).part? 0 = some body := rfl
  rw [Settings.IsDue, isDue_cons nested]
  refine and_congr_left fun _ => ?_
  constructor
  · intro step
    exact step label body rfl
  · rintro step _ _ ⟨⟩
    exact step

theorem mem_nil_cons {paths : List (List Nat)} {statement : Statement} {path : List Nat}
    (inner : ∀ index rest, path = index :: rest →
      (index :: rest ∈ paths ↔ settings.IsDue statement (index :: rest))) :
    path ∈ [] :: paths ↔ settings.IsDue statement path := by
  cases path with
  | nil => exact iff_of_true List.mem_cons_self (.nil statement)
  | cons index rest =>
      rw [List.mem_cons, or_iff_right (List.cons_ne_nil index rest)]
      exact inner index rest rfl

/-- A loop has one place inside. -/
theorem mem_loop {statement body : Statement} {paths : List (List Nat)} {path : List Nat}
    (plain : statement.label? = none) (nested : statement.part? 0 = some body)
    (single : ∀ index, statement.part? (index + 1) = none)
    (inner : ∀ rest, rest ∈ paths ↔ settings.IsDue body rest) :
    path ∈ [] :: paths.map (0 :: ·) ↔ settings.IsDue statement path := by
  refine mem_nil_cons fun index rest _ => ?_
  cases index with
  | zero =>
      rw [isDue_cons_of_plain plain nested, ← inner, mem_map_cons]
      simp
  | succ index =>
      refine iff_of_false ?_ (not_isDue_cons (single index))
      rw [mem_map_cons]
      simp

/-- A statement without nested ones has its own place only. -/
theorem mem_simple {statement : Statement} {path : List Nat}
    (single : ∀ index, statement.part? index = none) :
    path ∈ [[]] ↔ settings.IsDue statement path :=
  mem_nil_cons fun index _ _ => iff_of_false List.not_mem_nil (not_isDue_cons (single index))

/-- The places in a block are those in its statements. -/
theorem mem_block {statements : List Statement} {path : List Nat}
    (inner : ∀ path, path ∈ reachedInAll settings 0 statements ↔
      ∃ place statement rest, path = (0 + place) :: rest ∧
        statements[place]? = some statement ∧ settings.IsDue statement rest) :
    path ∈ reached settings (.block statements) ↔ settings.IsDue (.block statements) path := by
  rw [reached]
  refine mem_nil_cons fun index rest _ => ?_
  rw [inner]
  cases nested : statements[index]? with
  | none =>
      refine iff_of_false ?_ (not_isDue_cons nested)
      rintro ⟨place, _, _, same, stands, -⟩
      rw [Nat.zero_add] at same
      obtain ⟨rfl, rfl⟩ := List.cons.inj same
      rw [nested] at stands
      cases stands
  | some part =>
      have below : (Statement.block statements).part? index = some part := nested
      rw [isDue_cons_of_plain rfl below]
      constructor
      · rintro ⟨place, _, _, same, stands, due⟩
        rw [Nat.zero_add] at same
        obtain ⟨rfl, rfl⟩ := List.cons.inj same
        cases nested.symm.trans stands
        exact due
      · intro due
        exact ⟨index, part, rest, by rw [Nat.zero_add], nested, due⟩

/-- Under a label stand all places, none, or all but the one of a block that the label is on. -/
theorem mem_labeled {label : String} {body : Statement} {path : List Nat}
    (inner : ∀ rest, rest ∈ reached settings body ↔ settings.IsDue body rest) :
    path ∈ reached settings (.labeled label body) ↔
      settings.IsDue (.labeled label body) path := by
  rw [reached]
  refine mem_nil_cons fun index rest _ => ?_
  cases index with
  | succ index =>
      refine iff_of_false ?_ (not_isDue_cons rfl)
      split <;> simp [mem_map_cons]
  | zero =>
      rw [isDue_labeled, ← inner, Settings.closes, Settings.frees]
      cases settings.fate label with
      | closed => simp
      | «open» => simp
      | freed =>
          obtain ⟨inside, listed⟩ := exists_reached_eq body
          -- the block itself stands nowhere else among the places in it
          have apart : [] ∉ inside := by
            have distinct : (reached settings body).Nodup := nodup_reached body
            rw [listed] at distinct
            exact (List.nodup_cons.mp distinct).1
          rw [listed]
          cases body.isBlock with
          | false => simp
          | true =>
              cases rest with
              | nil => simp [apart]
              | cons => simp

/-- The places in two branches are told apart by their first step. -/
theorem mem_branches {test : Expression} {consequent alternate : Statement} {path : List Nat}
    (first : ∀ rest, rest ∈ reached settings consequent ↔ settings.IsDue consequent rest)
    (second : ∀ rest, rest ∈ reached settings alternate ↔ settings.IsDue alternate rest) :
    path ∈ reached settings (.branch test consequent (some alternate)) ↔
      settings.IsDue (.branch test consequent (some alternate)) path := by
  have left : (Statement.branch test consequent (some alternate)).part? 0 = some consequent := rfl
  have right : (Statement.branch test consequent (some alternate)).part? 1 = some alternate := rfl
  rw [reached, reachedInAlternate]
  refine mem_nil_cons fun index rest _ => ?_
  match index with
  | 0 =>
      rw [isDue_cons_of_plain rfl left, ← first]
      simp [mem_map_cons]
  | 1 =>
      rw [isDue_cons_of_plain rfl right, ← second]
      simp [mem_map_cons]
  | index + 2 =>
      refine iff_of_false ?_ (not_isDue_cons rfl)
      simp [mem_map_cons]

mutual

/-- A walk gets to the places that it is due to look at. -/
theorem mem_reached : (statement : Statement) → (path : List Nat) →
    (path ∈ reached settings statement ↔ settings.IsDue statement path)
  | .block statements, _ => mem_block (mem_reachedInAll 0 statements)
  | .labeled _ body, _ => mem_labeled (mem_reached body)
  | .branch _ consequent none, path => by
      rw [reached, reachedInAlternate, List.append_nil]
      exact mem_loop rfl rfl (fun _ => by cases ‹Nat› <;> rfl) (mem_reached consequent)
  | .branch _ consequent (some alternate), _ =>
      mem_branches (mem_reached consequent) (mem_reached alternate)
  | .whileLoop _ body, path | .doWhileLoop body _, path | .forLoop _ _ _ body, path => by
      rw [reached]
      exact mem_loop rfl rfl (fun _ => rfl) (mem_reached body)
  | .evaluate _, path | .giveBack _, path | .bindings _ _, path | .declare _, path | .raise _, path
  | .breakOut _, path | .continueLoop _, path | .empty, path =>
      mem_simple fun _ => rfl

theorem mem_reachedInAll : (index : Nat) → (statements : List Statement) → (path : List Nat) →
    (path ∈ reachedInAll settings index statements ↔
      ∃ place statement rest, path = (index + place) :: rest ∧
        statements[place]? = some statement ∧ settings.IsDue statement rest)
  | _, [], _ => by
      rw [reachedInAll]
      simp
  | index, statement :: statements, path => by
      rw [reachedInAll, List.mem_append, mem_map_cons, mem_reachedInAll (index + 1) statements]
      constructor
      · rintro (⟨rest, among, rfl⟩ | ⟨place, later, rest, rfl, stands, due⟩)
        · exact ⟨0, statement, rest, rfl, rfl, (mem_reached statement rest).mp among⟩
        · exact ⟨place + 1, later, rest, by rw [Nat.add_assoc, Nat.add_comm 1], stands, due⟩
      · rintro ⟨place, found, rest, rfl, stands, due⟩
        cases place with
        | zero =>
            cases stands
            exact .inl ⟨rest, (mem_reached statement rest).mpr due, rfl⟩
        | succ place =>
            exact .inr ⟨place, found, rest, by rw [Nat.add_assoc, Nat.add_comm 1], stands, due⟩

end

end Contract

end Covenant
