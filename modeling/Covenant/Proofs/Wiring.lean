import Covenant.Proofs.Watched

/-!
# How invariants are wired in

A walk wires the invariants that stand in a list into the list that it makes of
it, and does the same with the lists nested in it.  What it makes of statements
is watched: by the helpers that were in force around them already, and by those
of the invariants around them.
-/

namespace Covenant.Contract

/-! ## Invariants in groups -/

theorem grouped_map {α β : Type} (change : α → β) (items : List α) :
    grouped (items.map change) = (grouped items).map (List.map change) := by
  cases items <;> rfl

/-- Items that are related one by one are so in groups. -/
theorem forall₂_grouped {α β : Type} {related : α → β → Prop} {first : List α} {second : List β}
    (relates : List.Forall₂ related first second) :
    List.Forall₂ (List.Forall₂ related) (grouped first) (grouped second) := by
  cases relates with
  | nil => exact .nil
  | cons head tail => exact .cons (.cons head tail) .nil

section

variable (settings : Settings)

mutual

/--
The bodies of the invariants in a statement, but for those that it contributes
to the list around it: a group for each list in it that invariants stand in.
A statement that stands alone in its place counts as a list.
-/
def groups (spliced : Bool) : Statement → List (List Statement)
  | .block statements =>
    (if spliced then [] else grouped (standingInAll settings statements)) ++
      groupsInAll statements
  | .labeled label body =>
    match settings.roleOf label with
    | .contract _ => []
    | .other => grouped (standing settings false body) ++ groups false body
    | .environment =>
      match settings.actionFor label with
      | .keep => grouped (standing settings false body) ++ groups false body
      | .remove => []
      | .inline => groups true body
  | .branch _ consequent alternate =>
    grouped (standing settings false consequent) ++ groups false consequent ++
      groupsInAlternate alternate
  | .whileLoop _ body | .doWhileLoop body _ | .forLoop _ _ _ body =>
    grouped (standing settings false body) ++ groups false body
  | _ => []

/-- The same of a statement that may be missing. -/
def groupsInAlternate : Option Statement → List (List Statement)
  | none => []
  | some statement => grouped (standing settings false statement) ++ groups false statement

/-- The same of statements in turn. -/
def groupsInAll : List Statement → List (List Statement)
  | [] => []
  | statement :: rest => groups false statement ++ groupsInAll rest

end

end

section

variable {settings : Settings}

theorem groupsInAll_append (first second : List Statement) :
    groupsInAll settings (first ++ second) =
      groupsInAll settings first ++ groupsInAll settings second := by
  induction first with
  | nil => rw [groupsInAll, List.nil_append, List.nil_append]
  | cons statement rest induction =>
      rw [List.cons_append, groupsInAll, groupsInAll, induction, List.append_assoc]

section

variable (checker : Checker)

/-- A statement that stands alone keeps its own invariants when it is routed. -/
theorem grouped_standing_route (statement : Statement) :
    grouped (standing settings false (checker.route statement)) =
      (grouped (standing settings false statement)).map (List.map checker.route) := by
  rw [standing_route, grouped_map]

mutual

/-- Routing keeps the invariants of nested lists, with their bodies routed. -/
theorem groups_route (spliced : Bool) : (statement : Statement) →
    groups settings spliced (checker.route statement) =
      (groups settings spliced statement).map (List.map checker.route)
  | .block statements => by
      rw [Checker.route, groups, groups, List.map_append, groupsInAll_routeAll statements,
        standingInAll_routeAll, grouped_map]
      cases spliced <;> rfl
  | .labeled label body => by
      rw [Checker.route, groups, groups]
      cases settings.roleOf label with
      | contract => rfl
      | other =>
          dsimp only
          rw [List.map_append, grouped_standing_route, groups_route false body]
      | environment =>
          cases settings.actionFor label with
          | keep =>
              dsimp only
              rw [List.map_append, grouped_standing_route, groups_route false body]
          | remove => rfl
          | inline => exact groups_route true body
  | .branch test consequent alternate => by
      rw [Checker.route, groups, groups, List.map_append, List.map_append,
        grouped_standing_route, groups_route false consequent, groupsInAlternate_route alternate]
  | .whileLoop _ body | .doWhileLoop body _ | .forLoop _ _ _ body => by
      rw [Checker.route, groups, groups, List.map_append, grouped_standing_route,
        groups_route false body]
  | .giveBack _ | .evaluate _ | .bindings _ _ | .declare _ | .raise _ | .breakOut _
  | .continueLoop _ | .empty => by
      rfl

theorem groupsInAlternate_route : (alternate : Option Statement) →
    groupsInAlternate settings (checker.routeAlternate alternate) =
      (groupsInAlternate settings alternate).map (List.map checker.route)
  | none => by
      rfl
  | some statement => by
      rw [Checker.routeAlternate, groupsInAlternate, groupsInAlternate, List.map_append,
        grouped_standing_route, groups_route false statement]

theorem groupsInAll_routeAll : (statements : List Statement) →
    groupsInAll settings (checker.routeAll statements) =
      (groupsInAll settings statements).map (List.map checker.route)
  | [] => by
      rfl
  | statement :: rest => by
      rw [Checker.routeAll, groupsInAll, groupsInAll, List.map_append,
        groups_route false statement, groupsInAll_routeAll rest]

end

end

/-- What is left of a statement without its label has the lists of its body when spliced. -/
theorem groupsInAll_unlabeled (label : String) (body : Statement) :
    groupsInAll settings (Statement.labeled label body).unlabeled = groups settings true body := by
  cases body with
  | block statements => rw [Statement.unlabeled, groups, if_pos rfl, List.nil_append]
  | _ => exact List.append_nil _

/-- There is nothing to be walked in a contract. -/
theorem groups_of_contract {label : String} {kind : Kind}
    (role : settings.roleOf label = .contract kind) (spliced : Bool) (body : Statement) :
    groups settings spliced (.labeled label body) = [] := by
  rw [groups, role]

/-- A statement without others in it has no lists. -/
theorem groups_of_isSimple {statement : Statement} (simple : isSimple statement = true)
    (spliced : Bool) : groups settings spliced statement = [] := by
  cases statement with
  | block | labeled | branch | whileLoop | doWhileLoop | forLoop => cases simple
  | _ => rfl

end

/-! ## Statements that are still to be walked -/

section

variable {parameter : String} {names : List String} {force : List Checker}

mutual

/-- A source is watched by nothing. -/
theorem watched_of_avoiding : (statement : Statement) →
    (avoiding (· ∉ names)).OnStatement statement → Watched parameter names [] [] statement
  | .block statements, known => by
      rw [Parts.OnStatement] at known
      exact .block (watchedAll_of_avoiding statements known).list
  | .labeled label body, known => by
      rw [Parts.OnStatement] at known
      exact .labeled (watched_of_avoiding body known)
  | .branch test consequent none, known => by
      rw [Parts.OnStatement] at known
      exact .branch (watched_of_avoiding consequent known.2.1)
  | .branch test consequent (some alternate), known => by
      rw [Parts.OnStatement, Parts.OnAlternate] at known
      exact @Watched.branches _ _ _ [] [] _ _ _ (watched_of_avoiding consequent known.2.1)
        (watched_of_avoiding alternate known.2.2)
  | .whileLoop test body, known => by
      rw [Parts.OnStatement] at known
      exact .whileLoop (watched_of_avoiding body known.2)
  | .doWhileLoop body test, known => by
      rw [Parts.OnStatement] at known
      exact .doWhileLoop (watched_of_avoiding body known.2)
  | .forLoop init test update body, known => by
      rw [Parts.OnStatement] at known
      exact .forLoop known.1 (watched_of_avoiding body known.2.2.2)
  | .giveBack argument, _ => .giveBack argument (.refl [])
  | .evaluate _, known | .bindings _ _, known | .declare _, known | .raise _, known
  | .breakOut _, known | .continueLoop _, known | .empty, known => .leaf rfl rfl known

theorem watchedAll_of_avoiding : (statements : List Statement) →
    (avoiding (· ∉ names)).OnStatements statements →
      WatchedAll parameter names [] [] statements
  | [], _ => .nil
  | statement :: rest, known => by
      rw [Parts.OnStatements] at known
      exact @WatchedAll.cons _ _ _ [] [] _ _ (watched_of_avoiding statement known.1)
        (watchedAll_of_avoiding rest known.2)

end

/-- Statements that bring no helpers are watched one by one. -/
theorem watchedAll_cons {statement : Statement} {rest : List Statement} :
    WatchedAll parameter names force [] (statement :: rest) ↔
      Watched parameter names force [] statement ∧ WatchedAll parameter names force [] rest := by
  constructor
  · intro watched
    generalize nothing : ([] : List (List Checker)) = made at watched
    cases watched with
    | cons head tail =>
        obtain ⟨rfl, rfl⟩ := List.append_eq_nil_iff.mp nothing.symm
        exact ⟨head, tail⟩
  · exact fun watched => @WatchedAll.cons _ _ _ [] [] _ _ watched.1 watched.2

theorem watchedAll_append {first second : List Statement} :
    WatchedAll parameter names force [] (first ++ second) ↔
      WatchedAll parameter names force [] first ∧ WatchedAll parameter names force [] second := by
  induction first with
  | nil => exact ⟨fun watched => ⟨.nil, watched⟩, And.right⟩
  | cons statement rest induction =>
      rw [List.cons_append, watchedAll_cons, watchedAll_cons, induction, and_assoc]

theorem grouped_eq_nil {α : Type} {items : List α} : grouped items = [] ↔ items = [] := by
  cases items <;> simp [grouped]

/-- A list that brings no helpers is watched if its statements are. -/
theorem WatchedList.all {statements : List Statement}
    (watched : WatchedList parameter names force [] [] statements) :
    WatchedAll parameter names force [] statements := by
  generalize nothing : ([] : List (List Checker)) = brought at watched
  cases watched with
  | intro _ _ each ends =>
      obtain ⟨none, rfl⟩ := List.append_eq_nil_iff.mp nothing.symm
      rw [grouped_eq_nil] at none
      subst none
      have bare : _ = ([] : List Statement) := ends.elim id And.left
      subst bare
      simpa [grouped, entriesOf] using each

/-- The statements that stand alone in the places of a statement. -/
def slots : Statement → List Statement
  | .labeled _ body | .whileLoop _ body | .doWhileLoop body _ | .forLoop _ _ _ body => [body]
  | .branch _ consequent alternate => consequent :: alternate.toList
  | _ => []

section

variable {statement : Statement} (watched : Watched parameter names force [] statement)

include watched

/-- What stands alone in a watched statement is watched. -/
theorem Watched.slot : ∀ inner ∈ slots statement, Watched parameter names force [] inner := by
  generalize nothing : ([] : List (List Checker)) = made at watched ⊢
  cases watched with
  | leaf simple =>
      cases statement with
      | labeled | branch | whileLoop | doWhileLoop | forLoop => cases simple
      | _ => exact nofun
  | giveBack | block => exact nofun
  | labeled inside | branch inside | whileLoop inside | doWhileLoop inside | forLoop _ inside =>
      exact List.forall_mem_singleton.mpr inside
  | branches first second =>
      obtain ⟨rfl, rfl⟩ := List.append_eq_nil_iff.mp nothing.symm
      exact List.forall_mem_cons.mpr ⟨first, List.forall_mem_singleton.mpr second⟩

theorem Watched.statements {statements : List Statement} (shape : statement = .block statements) :
    WatchedAll parameter names force [] statements := by
  generalize nothing : ([] : List (List Checker)) = made at watched
  cases watched with
  | leaf simple =>
      subst shape
      cases simple
  | block inside =>
      cases shape
      subst nothing
      exact inside.all
  | _ => cases shape

theorem Watched.init {init : Option LoopInit} {test update : Option Expression} {body : Statement}
    (shape : statement = .forLoop init test update body) :
    (avoiding (· ∉ names)).OnLoopInit init := by
  generalize ([] : List (List Checker)) = made at watched
  cases watched with
  | leaf simple =>
      subst shape
      cases simple
  | forLoop known =>
      cases shape
      exact known
  | _ => cases shape

/-- What is left of a watched statement without its label is watched. -/
theorem Watched.unlabeled {label : String} {body : Statement}
    (shape : statement = .labeled label body) :
    WatchedAll parameter names force [] (Statement.labeled label body).unlabeled := by
  subst shape
  have inside := watched.slot body (List.mem_singleton_self body)
  cases body with
  | block statements => exact inside.statements rfl
  | _ => exact .singleton inside

end

end

/-! ## Helpers in groups -/

/-- The helpers that a walk makes for the invariants of some lists, in groups. -/
structure MadeInGroups (context : Context) (last pass after : Pass)
    (bodies : List (List Statement)) (made : List (List Checker)) : Prop extends
    Arise last pass after made.flatten where
  enforces :
    List.Forall₂ (List.Forall₂ (Checker.Enforces context .invariant last.captured)) bodies made

namespace MadeInGroups

variable {context : Context} {last pass between after : Pass} {bodies others : List (List Statement)}
  {made more : List (List Checker)}

theorem none (last pass after : Pass) : MadeInGroups context last pass after [] [] :=
  ⟨.none last pass after, .nil⟩

theorem append
    (first : MadeInGroups context last pass between bodies made)
    (second : MadeInGroups context last between after others more)
    (before : pass.Precedes between) (later : between.Precedes after) :
    MadeInGroups context last pass after (bodies ++ others) (made ++ more) :=
  ⟨List.flatten_append ▸ first.toArise.append second.toArise before later,
    List.rel_append first.enforces second.enforces⟩

end MadeInGroups

/-! ## Lists -/

theorem endsInReturn_entriesOf (parameter : String) (checkers : List Checker) :
    endsInReturn (entriesOf parameter checkers) = false := by
  rw [endsInReturn]
  split
  case h_1 statement found =>
    exact (isSimple_of_mem_entriesOf (List.mem_of_getLast? found)).2
  case h_2 => rfl

/-- Helpers have names that are taken. -/
def Taken (pass : Pass) (force : List Checker) : Prop :=
  ∀ checker ∈ force, checker.name ∈ pass.work.supply.taken

theorem Taken.later {pass after : Pass} {force : List Checker} (taken : Taken pass force)
    (precedes : pass.Precedes after) : Taken after force :=
  fun checker member => precedes.work.taken (taken checker member)

/-- How the invariants of a list are wired into what a walk makes of the list. -/
structure ListWired (context : Context) (names : List String) (last pass after : Pass)
    (force : List Checker) (before rest : List Statement) (pending : List Checker)
    (result : List Statement) (own : List Checker) (made : List (List Checker))
    (inner : List Statement) : Prop where
  arises : Arise last pass after (own ++ made.flatten)
  stand : List.Forall₂ (Checker.Enforces context .invariant last.captured)
    (standingInAll context.settings rest) own
  nested : List.Forall₂ (List.Forall₂ (Checker.Enforces context .invariant last.captured))
    (groupsInAll context.settings rest) made
  each : WatchedAll context.settings.tokens.result names (own ++ force) made inner
  around : ChecksAround context.settings.tokens.result own before inner pending result

namespace ListWired

variable {context : Context} {names : List String} {last pass between after : Pass}
  {force : List Checker} {before rest placed : List Statement} {pending : List Checker}
  {result : List Statement} {own : List Checker} {made : List (List Checker)}
  {inner : List Statement} {statement : Statement}

/-- Where only checks are left, nothing is wired. -/
theorem checks (last pass after : Pass) (equal : result = before ++ checksOf pending) :
    ListWired context names last pass after force before [] pending result [] [] [] where
  arises := .none last pass after
  stand := .nil
  nested := .nil
  each := .nil
  around := .checks equal

/-- What is wired in a part of a stretch of time is wired in it. -/
theorem widen (precedes : pass.Precedes between)
    (wired : ListWired context names last between after force before rest pending result own made
      inner) :
    ListWired context names last pass after force before rest pending result own made inner :=
  { wired with arises := wired.arises.widen precedes }

/-- A statement that contributes no invariants is replaced by watched ones. -/
theorem extend {first : List (List Checker)}
    (nothing : standing context.settings false statement = [])
    (makes : MadeInGroups context last pass between (groups context.settings false statement) first)
    (watched : WatchedAll context.settings.tokens.result names force first placed)
    (precedes : pass.Precedes between) (later : between.Precedes after)
    (wired : ListWired context names last between after force (before ++ placed) rest pending
      result own made inner) :
    ListWired context names last pass after force before (statement :: rest) pending result own
      (first ++ made) (routedThrough own placed ++ inner) where
  arises := by
    rw [List.flatten_append]
    refine (makes.toArise.append wired.arises precedes later).perm ?_
    rw [← List.append_assoc, ← List.append_assoc]
    exact List.perm_append_comm.append_right _
  stand := by
    rw [standingInAll, nothing]
    exact wired.stand
  nested := by
    rw [groupsInAll]
    exact List.rel_append makes.enforces wired.nested
  each := by
    refine (watched.routedThrough fun other among checker member equal => ?_).append wired.each
    -- The names of later helpers were still free when the earlier ones had been made.
    have free := (wired.arises.out checker (List.mem_append_left _ member)).free
    exact free (equal ▸ (makes.out other among).taken)
  around := wired.around.absorb

/-- A statement that contributes nothing at all is left out. -/
theorem skip (nothing : standing context.settings false statement = [])
    (none : groups context.settings false statement = []) (precedes : pass.Precedes between)
    (later : between.Precedes after)
    (wired : ListWired context names last between after force before rest pending result own made
      inner) :
    ListWired context names last pass after force before (statement :: rest) pending result own
      made inner := by
  have nowhere : MadeInGroups context last pass between (groups context.settings false statement)
      [] := by
    rw [none]
    exact .none last pass between
  have extended := extend nothing nowhere .nil precedes later
    (show ListWired context names last between after force (before ++ []) rest pending result own
      made inner by rwa [List.append_nil])
  rwa [routedThrough_nil] at extended

/-- An invariant is wired into the list that it stands in. -/
theorem attach {label : String} {body : Statement} {checker : Checker} {tail : List Statement}
    (role : context.settings.roleOf label = .contract .invariant)
    (single : Made context last pass between [body] [checker]) (precedes : pass.Precedes between)
    (later : between.Precedes after)
    (wired : endsInReturn result = true ∧
        ListWired context names last between after (checker :: force)
          (checker.entry context.settings.tokens.result ++ checker.routeAll before)
          (checker.routeAll tail) pending result own made inner ∨
      ListWired context names last between after (checker :: force)
        (checker.entry context.settings.tokens.result ++ checker.routeAll before)
        (checker.routeAll tail) (pending ++ [checker]) result own made inner) :
    ListWired context names last pass after force before (.labeled label body :: tail) pending
      result (checker :: own) made inner := by
  have parts {queue : List Checker}
      (wired : ListWired context names last between after (checker :: force)
        (checker.entry context.settings.tokens.result ++ checker.routeAll before)
        (checker.routeAll tail) queue result own made inner)
      (around : ChecksAround context.settings.tokens.result (checker :: own) before inner pending
        result) :
      ListWired context names last pass after force before (.labeled label body :: tail) pending
        result (checker :: own) made inner :=
    { arises := single.toArise.append wired.arises precedes later
      stand := by
        have stand := wired.stand
        rw [standingInAll_routeAll, List.forall₂_map_left_iff] at stand
        rw [standingInAll, standing, role]
        exact List.rel_append single.enforces (stand.imp fun _ _ => .of_routed)
      nested := by
        have nested := wired.nested
        rw [groupsInAll_routeAll, List.forall₂_map_left_iff] at nested
        rw [groupsInAll, groups, role]
        refine nested.imp fun _ _ group => ?_
        exact (List.forall₂_map_left_iff.mp group).imp fun _ _ => .of_routed
      each := wired.each.perm List.perm_middle
      around := around }
  rcases wired with ⟨ends, wired⟩ | wired
  · exact parts wired (wired.around.attach_of_endsInReturn ends)
  · exact parts wired wired.around.attach

/-- The helpers of a list, those of the list itself in a group of their own. -/
theorem madeInGroups
    (wired : ListWired context names last pass after force before rest pending result own made
      inner) :
    MadeInGroups context last pass after
      (grouped (standingInAll context.settings rest) ++ groupsInAll context.settings rest)
      (grouped own ++ made) where
  toArise := by
    rw [List.flatten_append, flatten_grouped]
    exact wired.arises
  enforces := List.rel_append (forall₂_grouped wired.stand) wired.nested

/-- A list that is walked as a whole is watched. -/
theorem watchedList (taken : Taken pass force) (known : pass.work.Sound (· ∈ names))
    (wired : ListWired context names last pass after force [] rest [] result own made inner) :
    WatchedList context.settings.tokens.result names force [] (grouped own ++ made) result := by
  have around := wired.around
  rw [ChecksAround, routedThrough_nil, checksOf, List.map_nil, List.append_nil, List.append_nil]
    at around
  have free (checker : Checker) (member : checker ∈ own) :
      checker.name ∉ pass.work.supply.taken :=
    (wired.arises.out checker (List.mem_append_left _ member)).free
  rw [around]
  refine .intro ?_ (fun checker member => ⟨fun inNames => ?_, fun inForce => ?_⟩) wired.each ?_
  · exact (List.nodup_append.mp (List.map_append ▸ wired.arises.distinct)).1
  · exact free checker member (known.known inNames).1
  · obtain ⟨other, among, same⟩ := List.mem_map.mp inForce
    exact free checker member (same ▸ taken other among)
  · rw [exitChecks, List.append_nil]
    split
    case isFalse => exact .inl rfl
    case isTrue ends =>
      refine .inr ⟨rfl, ?_⟩
      -- Entries do not end in a return, so it is the inner part that does.
      rw [exitChecks, if_pos ends, List.append_nil] at around
      rw [around] at ends
      cases inner with
      | nil =>
          rw [List.append_nil, endsInReturn_entriesOf] at ends
          cases ends
      | cons first more => rwa [endsInReturn_append _ (List.cons_ne_nil _ _)] at ends

end ListWired

/-! ## Walks -/

/-- A walk wires the invariants of a stretch into what it makes of it. -/
def Stretch.Wires (context : Context) (names : List String) (last pass after : Pass)
    (result : List Statement) : Stretch → Prop
  | list before whole => ∀ {force pending : List Checker} {rest : List Statement},
      whole = rest ++ checksOf pending → Taken pass force →
        WatchedAll context.settings.tokens.result names force [] rest →
          ∃ own made inner,
            ListWired context names last pass after force before rest pending result own made inner
  | inside statement => ∀ {force : List Checker} {walked : Statement},
      result = [walked] → Taken pass force → context.recognizes statement = false →
        Watched context.settings.tokens.result names force [] statement →
          ∃ made,
            MadeInGroups context last pass after (groups context.settings false statement) made ∧
              Watched context.settings.tokens.result names force made walked
  | slot statement => ∀ {force : List Checker} {walked : Statement},
      result = [walked] → Taken pass force →
        Watched context.settings.tokens.result names force [] statement →
          ∃ made,
            MadeInGroups context last pass after
                (grouped (standing context.settings false statement) ++
                  groups context.settings false statement) made ∧
              Watched context.settings.tokens.result names force made walked

/-- A statement that a walk does not recognize contributes no invariants to the list around it. -/
theorem standing_of_unrecognized {context : Context} {statement : Statement}
    (unknown : context.recognizes statement = false) :
    standing context.settings false statement = [] := by
  cases statement with
  | labeled label body =>
      have role : context.settings.roleOf label = .other := by
        simpa [Context.recognizes, Statement.label?] using unknown
      exact standing_labeled (by simp [role]) (by simp [role]) body
  | _ => rfl

theorem append_checksOf_nil (statements : List Statement) :
    statements = statements ++ checksOf [] :=
  (List.append_nil statements).symm

/-- A walk wires in the invariants that it meets. -/
theorem Walks.wires
    {names : List String} {context : Context} {stretch : Stretch} {pass after last : Pass}
    {result : List Statement} (place : context.place ≠ .topLevel)
    (keeps : context.settings.stripsContracts = false)
    (walks : Walks context stretch pass result after) :
    pass.Sound → pass.work.Sound (· ∈ names) → after.Precedes last →
      stretch.Wires context names last pass after result := by
  have counted (kind : Kind) : context.ignores kind = false := by simp [Context.ignores, place]
  induction walks with
  | done before pass =>
      intro _ _ _ force pending rest equal _ _
      obtain ⟨rfl, nothing⟩ := List.append_eq_nil_iff.mp equal.symm
      exact ⟨[], [], [], .checks last pass pass (by rw [nothing, List.append_nil])⟩
  | @ignored _ _ _ _ _ kind _ _ _ ignores =>
      rw [counted kind] at ignores
      cases ignores
  | stripped _ _ strips =>
      rw [keeps] at strips
      cases strips
  | inPlace role _ _ kind assembles later induction =>
      intro sound known late force pending rest equal taken watched
      obtain ⟨more, rfl, rfl⟩ := exists_rest_of_labeled equal
      obtain ⟨found, _, rfl, clean, rfl⟩ := placeGuards_eq_ok assembles
      obtain ⟨own, made, inner, wired⟩ := induction (sound.counted _)
        (known.later (Pass.precedes_counted _ _).work) late rfl
        (taken.later (Pass.precedes_counted _ _)) (watchedAll_cons.mp watched).2
      refine ⟨own, [] ++ made, _,
        wired.extend ?_ ?_ ?_ (Pass.precedes_counted _ _) later.precedes⟩
      · apply standing_labeled
        · rcases kind with rfl | rfl <;> simp [role]
        · simp [role]
      · rw [groups_of_contract role]
        exact .none last _ _
      · exact watchedAll_of_leaves fun guard member => watched_of_isPlainGuard
          (isPlainGuard_of_mem_map_clause (fun condition among =>
            (clean condition among).isPlain none) guard member)
  | postcondition role _ _ assembles introduced later induction =>
      intro sound known late force pending rest equal taken watched
      obtain ⟨more, rfl, rfl⟩ := exists_rest_of_labeled equal
      obtain ⟨guarded, plain⟩ := sound_of_checkedGuards sound assembles
      obtain ⟨rfl, free, rfl⟩ := makeChecker_eq_ok introduced
      have precedes := (precedes_of_checkedGuards assembles).trans
        (Pass.precedes_withPostcondition free)
      obtain ⟨own, made, inner, wired⟩ := induction (guarded.withPostcondition free plain)
        (known.later precedes.work) late rfl (taken.later precedes) (watchedAll_cons.mp watched).2
      exact ⟨own, made, inner, wired.skip (standing_labeled (by simp [role]) (by simp [role]) _)
        (groups_of_contract role false _) precedes later.precedes⟩
  | @invariant before tail _ _ label body checker pass guarded named after role _ _ assembles introduced
      later induction =>
      intro sound known late force pending rest equal taken watched
      obtain ⟨more, rfl, rfl⟩ := exists_rest_of_labeled equal
      have fromNamed : named.Precedes after := (Pass.precedes_counted _ _).trans later.precedes
      have single := Made.single sound assembles introduced (fromNamed.trans late)
      obtain ⟨guardedSound, _⟩ := sound_of_checkedGuards sound assembles
      obtain ⟨_, free, rfl⟩ := makeChecker_eq_ok introduced
      have precedes := (precedes_of_checkedGuards assembles).trans (Pass.precedes_naming free)
      have counts := precedes.trans (Pass.precedes_counted _
        (.addRouted (countReturnsOfAll (before ++ (more ++ checksOf pending)))))
      have inForce : Taken ((guarded.naming checker.name).counted
          (.addRouted (countReturnsOfAll (before ++ (more ++ checksOf pending)))))
          (checker :: force) :=
        List.forall_mem_cons.mpr ⟨List.mem_cons_self, taken.later counts⟩
      have routed := (watchedAll_cons.mp watched).2.route checker (List.forall_mem_nil _)
      have soundNamed := (guardedSound.naming free).counted
        (.addRouted (countReturnsOfAll (before ++ (more ++ checksOf pending))))
      have ended := later.endsInReturn
      rw [Stretch.Wires, routeAll_append, routeAll_checksOf] at induction
      rw [Stretch.statements, routeAll_append, routeAll_checksOf] at ended
      rw [Checker.exitCheck] at induction ended
      -- A list that ends in a return gets no check at its end, and it keeps ending in one.
      split at induction
      case isTrue ends =>
        rw [if_pos ends, List.append_nil] at ended
        obtain ⟨own, made, inner, wired⟩ := induction soundNamed
          (known.later counts.work) late (List.append_nil _) inForce routed
        have wide := wired.widen (Pass.precedes_counted _ _)
        exact ⟨_, made, inner, .attach role single precedes fromNamed (.inl ⟨ended ends, wide⟩)⟩
      case isFalse =>
        have queue : checker.routeAll more ++ checksOf pending ++ [checker.check] =
            checker.routeAll more ++ checksOf (pending ++ [checker]) := by
          rw [checksOf, checksOf, List.map_append, List.append_assoc]
          rfl
        obtain ⟨own, made, inner, wired⟩ := induction soundNamed (known.later counts.work) late queue inForce
          routed
        have wide := wired.widen (Pass.precedes_counted _ _)
        exact ⟨_, made, inner, .attach role single precedes fromNamed (.inr wide)⟩
  | kept role action first later firstInduction induction =>
      intro sound known late force pending rest equal taken watched
      obtain ⟨more, rfl, rfl⟩ := exists_rest_of_labeled equal
      rw [watchedAll_cons] at watched
      obtain ⟨brought, makes, inside⟩ := firstInduction sound known (later.precedes.trans late) rfl
        taken (watched.1.slot _ List.mem_cons_self)
      obtain ⟨own, made, inner, wired⟩ := induction (first.sound sound)
        (known.later first.precedes.work) late rfl (taken.later first.precedes) watched.2
      refine ⟨own, _, _, wired.extend (standing_labeled (by simp [role]) (by simp [action]) _) ?_
        (.singleton (.labeled inside)) first.precedes later.precedes⟩
      rw [groups, role]
      simp only [action]
      exact makes
  | other role first later firstInduction induction =>
      intro sound known late force pending rest equal taken watched
      obtain ⟨more, rfl, rfl⟩ := exists_rest_of_labeled equal
      rw [watchedAll_cons] at watched
      obtain ⟨brought, makes, inside⟩ := firstInduction sound known (later.precedes.trans late) rfl
        taken (watched.1.slot _ List.mem_cons_self)
      obtain ⟨own, made, inner, wired⟩ := induction (first.sound sound)
        (known.later first.precedes.work) late rfl (taken.later first.precedes) watched.2
      refine ⟨own, _, _, wired.extend (standing_labeled (by simp [role]) (by simp [role]) _) ?_
        (.singleton (.labeled inside)) first.precedes later.precedes⟩
      rw [groups, role]
      exact makes
  | removed role action later induction =>
      intro sound known late force pending rest equal taken watched
      obtain ⟨more, rfl, rfl⟩ := exists_rest_of_labeled equal
      obtain ⟨own, made, inner, wired⟩ := induction (sound.counted _)
        (known.later (Pass.precedes_counted _ _).work) late rfl
        (taken.later (Pass.precedes_counted _ _)) (watchedAll_cons.mp watched).2
      refine ⟨own, made, inner, wired.skip (standing_labeled (by simp [role]) (by simp [action]) _)
        ?_ (Pass.precedes_counted _ _) later.precedes⟩
      rw [groups, role]
      simp only [action]
  | inlined role action later induction =>
      intro sound known late force pending rest equal taken watched
      obtain ⟨more, rfl, rfl⟩ := exists_rest_of_labeled equal
      rw [watchedAll_cons] at watched
      obtain ⟨own, made, inner, wired⟩ := induction (sound.counted _)
        (known.later (Pass.precedes_counted _ _).work) late (List.append_assoc _ _ _).symm
        (taken.later (Pass.precedes_counted _ _))
        (watchedAll_append.mpr ⟨watched.1.unlabeled rfl, watched.2⟩)
      have wide := wired.widen (Pass.precedes_counted _ _)
      refine ⟨own, made, inner, { wide with stand := ?_, nested := ?_ }⟩
      · have stand := wired.stand
        rw [standingInAll_append, standingInAll_unlabeled] at stand
        rw [standingInAll, standing, role]
        simpa only [action, if_true] using stand
      · have nested := wired.nested
        rw [groupsInAll_append, groupsInAll_unlabeled] at nested
        rw [groupsInAll, groups, role]
        simpa only [action] using nested
  | @unlabeled before tail result statement walked pass between after plain first later firstInduction
      induction =>
      intro sound known late force pending rest equal taken watched
      cases rest with
      | nil =>
          have whole := Walks.unlabeled plain first later
          rw [equal, List.nil_append] at whole
          exact ⟨[], [], [], .checks last pass after whole.eq_of_checks⟩
      | cons statement more =>
          cases equal
          rw [watchedAll_cons] at watched
          obtain ⟨brought, makes, inside⟩ := firstInduction sound known
            (later.precedes.trans late) rfl taken
            (by simp [Context.recognizes, plain]) watched.1
          obtain ⟨own, made, inner, wired⟩ := induction (first.sound sound)
            (known.later first.precedes.work) late rfl (taken.later first.precedes) watched.2
          exact ⟨own, _, _, wired.extend (standing_of_plain plain) makes (.singleton inside)
            first.precedes later.precedes⟩
  | simple simple =>
      intro _ _ _ force walked equal _ _ watched
      cases equal
      rw [groups_of_isSimple simple]
      exact ⟨[], .none last _ _, watched⟩
  | block _ induction =>
      intro sound known late force walked equal taken _ watched
      cases equal
      obtain ⟨own, made, inner, wired⟩ := induction sound known late (append_checksOf_nil _) taken
        (watched.statements rfl)
      rw [groups, if_neg (by simp)]
      exact ⟨_, wired.madeInGroups, .block (wired.watchedList taken known)⟩
  | @labeled label _ _ _ _ _ induction =>
      intro sound known late force walked equal taken unknown watched
      cases equal
      have role : context.settings.roleOf label = .other := by
        simpa [Context.recognizes, Statement.label?] using unknown
      obtain ⟨made, makes, inside⟩ := induction sound known late rfl taken
        (watched.slot _ List.mem_cons_self)
      rw [groups, role]
      exact ⟨made, makes, .labeled inside⟩
  | branch _ induction =>
      intro sound known late force walked equal taken _ watched
      cases equal
      obtain ⟨made, makes, inside⟩ := induction sound known late rfl taken
        (watched.slot _ List.mem_cons_self)
      rw [groups, groupsInAlternate, List.append_nil]
      exact ⟨made, makes, .branch inside⟩
  | branches first second firstInduction secondInduction =>
      intro sound known late force walked equal taken _ watched
      cases equal
      obtain ⟨made, makes, inside⟩ := firstInduction sound known (second.precedes.trans late) rfl
        taken (watched.slot _ List.mem_cons_self)
      obtain ⟨more, others, alternate⟩ := secondInduction (first.sound sound)
        (known.later first.precedes.work) late rfl (taken.later first.precedes)
        (watched.slot _ (List.mem_cons_of_mem _ List.mem_cons_self))
      rw [groups, groupsInAlternate]
      exact ⟨made ++ more, makes.append others first.precedes second.precedes,
        .branches inside alternate⟩
  | whileLoop _ induction =>
      intro sound known late force walked equal taken _ watched
      cases equal
      obtain ⟨made, makes, inside⟩ := induction sound known late rfl taken
        (watched.slot _ List.mem_cons_self)
      exact ⟨made, makes, .whileLoop inside⟩
  | doWhileLoop _ induction =>
      intro sound known late force walked equal taken _ watched
      cases equal
      obtain ⟨made, makes, inside⟩ := induction sound known late rfl taken
        (watched.slot _ List.mem_cons_self)
      exact ⟨made, makes, .doWhileLoop inside⟩
  | forLoop _ induction =>
      intro sound known late force walked equal taken _ watched
      cases equal
      obtain ⟨made, makes, inside⟩ := induction sound known late rfl taken
        (watched.slot _ List.mem_cons_self)
      exact ⟨made, makes, .forLoop (watched.init rfl) inside⟩
  | @wrapped statement _ _ _ _ _ induction =>
      intro sound known late force walked equal taken watched
      cases equal
      obtain ⟨own, made, inner, wired⟩ := induction sound known late (append_checksOf_nil _) taken
        (.singleton watched)
      have makes := wired.madeInGroups
      rw [standingInAll, standingInAll, groupsInAll, groupsInAll, List.append_nil,
        List.append_nil] at makes
      exact ⟨_, makes, .block (wired.watchedList taken known)⟩
  | bare unknown _ induction =>
      intro sound known late force walked equal taken watched
      obtain ⟨made, makes, inside⟩ := induction sound known late equal taken unknown watched
      rw [standing_of_unrecognized unknown]
      exact ⟨made, makes, inside⟩

end Covenant.Contract
