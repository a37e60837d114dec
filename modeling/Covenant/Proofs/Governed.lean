import Covenant.Proofs.Reading
import Covenant.Proofs.Routing

/-!
# Returns are routed through the helpers of what governs them

A walk over the statements of a function makes a helper of every invariant
that survives, in source order.  Every return is then routed through the
helpers of the invariants that govern it, the first one innermost, and these
helpers are declared in the lists around the return.
-/

namespace Covenant.Contract

/-- Lists that are related one by one through a third one are related one by one. -/
theorem forall₂_trans
    {α β γ : Type} {before : α → β → Prop} {after : β → γ → Prop} {related : α → γ → Prop}
    (composes : ∀ {one two three}, before one two → after two three → related one three)
    {first : List α} {second : List β} {third : List γ} (relates : List.Forall₂ before first second) :
    List.Forall₂ after second third → List.Forall₂ related first third := by
  induction relates generalizing third with
  | nil =>
      intro others
      cases others
      exact .nil
  | cons head _ induction =>
      intro others
      cases others with
      | cons next rest => exact .cons (composes head next) (induction rest)

/-- A returned value that passes through helpers in turn, the first one innermost. -/
def passed : List Checker → Option Expression → Option Expression
  | [], argument => argument
  | checker :: rest, argument => passed rest (checker.passing id argument)

theorem passed_append (first second : List Checker) :
    ∀ argument, passed (first ++ second) argument = passed second (passed first argument) := by
  induction first with
  | nil => exact fun _ => rfl
  | cons checker rest induction => exact fun argument => induction (checker.passing id argument)

/-! ## Readings of what helpers govern -/

namespace GovernedReturn

/-- A return that is routed through the helpers that govern it, and under their declarations. -/
def handed (parameter : String) (given : GovernedReturn Checker) : GovernedReturn Statement :=
  ⟨given.governors.map (·.declaration parameter), passed given.governors given.argument⟩

/-- Two returns have the same argument and the same governors, in any order. -/
def Agrees {α : Type} (first second : GovernedReturn α) : Prop :=
  first.governors.Perm second.governors ∧ first.argument = second.argument

end GovernedReturn

namespace Reading

/-- A reading whose returns are routed through the helpers that govern them. -/
def handed (parameter : String) (reading : Reading Checker) : Reading Statement :=
  ⟨reading.governors.map (·.declaration parameter), reading.returns.map (.handed parameter)⟩

/-- Two readings have the same returns in order, and the same governors in any order. -/
structure Agrees {α : Type} (first second : Reading α) : Prop where
  governors : first.governors.Perm second.governors
  returns : List.Forall₂ GovernedReturn.Agrees first.returns second.returns

section

variable {α : Type} {first second third fourth : Reading α}

@[refl]
theorem Agrees.refl (reading : Reading α) : reading.Agrees reading :=
  ⟨.refl _, List.forall₂_same.mpr fun _ _ => ⟨.refl _, rfl⟩⟩

theorem Agrees.trans (before : first.Agrees second) (after : second.Agrees third) :
    first.Agrees third where
  governors := before.governors.trans after.governors
  returns := forall₂_trans (fun one two => ⟨one.1.trans two.1, one.2.trans two.2⟩) before.returns
    after.returns

theorem Agrees.enclosed (agrees : first.Agrees second) : first.enclosed.Agrees second.enclosed :=
  ⟨.refl _, agrees.returns⟩

theorem Agrees.follow (left : first.Agrees second) (right : third.Agrees fourth) :
    (first.follow third).Agrees (second.follow fourth) where
  governors := left.governors.append right.governors
  returns := by
    refine List.rel_append ?_ ?_
    · refine List.forall₂_map_left_iff.mpr (List.forall₂_map_right_iff.mpr ?_)
      refine left.returns.imp fun one two agrees => ⟨?_, agrees.2⟩
      exact (List.Perm.append_left _ agrees.1).append right.governors
    · refine List.forall₂_map_left_iff.mpr (List.forall₂_map_right_iff.mpr ?_)
      refine right.returns.imp fun one two agrees => ⟨?_, agrees.2⟩
      exact List.Perm.append_right _ (left.governors.append agrees.1)

theorem Agrees.withArguments
    (agrees : first.Agrees second) (change : Option Expression → Option Expression) :
    (first.withArguments change).Agrees (second.withArguments change) where
  governors := agrees.governors
  returns := by
    refine List.forall₂_map_left_iff.mpr (List.forall₂_map_right_iff.mpr ?_)
    exact agrees.returns.imp fun one two inner => ⟨inner.1, congrArg change inner.2⟩

end

@[simp]
theorem withArguments_passed_nil {α : Type} (reading : Reading α) :
    reading.withArguments (passed []) = reading := by
  have same : (GovernedReturn.withArgument (passed []) : GovernedReturn α → GovernedReturn α) =
      id := rfl
  rw [withArguments, same, List.map_id]

/-- Routing through helpers and then through others is routing through all of them. -/
theorem withArguments_passed_append
    {α : Type} (reading : Reading α) (first second : List Checker) :
    reading.withArguments (passed (first ++ second)) =
      (reading.withArguments (passed first)).withArguments (passed second) := by
  have composed : (GovernedReturn.withArgument (passed (first ++ second)) :
      GovernedReturn α → GovernedReturn α) =
        GovernedReturn.withArgument (passed second) ∘ GovernedReturn.withArgument (passed first) := by
    funext given
    simp [GovernedReturn.withArgument, passed_append]
  simp [withArguments, composed]

@[simp]
theorem handed_empty (parameter : String) : (empty : Reading Checker).handed parameter = empty :=
  rfl

@[simp]
theorem handed_enclosed (parameter : String) (reading : Reading Checker) :
    reading.enclosed.handed parameter = (reading.handed parameter).enclosed :=
  rfl

/-- What governs nothing is followed by what routes its returns. -/
theorem handed_follow
    {parameter : String} {first : Reading Checker} (second : Reading Checker)
    (none : first.governors = []) :
    (first.follow second).handed parameter =
      ((first.handed parameter).withArguments (passed second.governors)).follow
        (second.handed parameter) := by
  simp [follow, handed, withArguments, none, GovernedReturn.handed, GovernedReturn.within,
    GovernedReturn.withArgument, passed_append, Function.comp_def]

/-- A part of a list that governs nothing is walked, and then the rest of the list. -/
theorem agrees_extend
    {parameter : String} {front output walked : Reading Statement} {first second : Reading Checker}
    (none : first.governors = []) (part : walked.Agrees (first.handed parameter))
    (rest : output.Agrees
      (((front.follow walked).withArguments (passed second.governors)).follow
        (second.handed parameter))) :
    output.Agrees
      ((front.withArguments (passed (first.follow second).governors)).follow
        ((first.follow second).handed parameter)) := by
  have governors : (first.follow second).governors = second.governors := by
    rw [follow, none, List.nil_append]
  rw [governors, handed_follow second none, ← follow_assoc]
  rw [withArguments_follow] at rest
  exact rest.trans (((Agrees.refl _).follow (part.withArguments _)).follow (.refl _))

/-- An invariant is attached to the part of a list that is walked and to the one that is not. -/
theorem agrees_attach
    {parameter : String} {front output : Reading Statement} {checker : Checker}
    {rest : Reading Checker}
    (attached : output.Agrees
      ((((governing (checker.declaration parameter)).follow
            (front.withArguments (checker.passing id))).withArguments
          (passed rest.governors)).follow
        ((rest.withArguments (checker.passing id)).handed parameter))) :
    output.Agrees
      ((front.withArguments (passed ((governing checker).follow rest).governors)).follow
        (((governing checker).follow rest).handed parameter)) := by
  refine attached.trans ⟨?_, ?_⟩
  · simp only [follow, withArguments, handed, governing, List.map_cons, List.cons_append]
    exact List.perm_middle.symm
  · simp only [follow, withArguments, handed, governing, List.map_map, List.map_nil,
      List.nil_append, List.singleton_append]
    refine List.rel_append ?_ ?_
    · refine List.forall₂_map_left_iff.mpr (List.forall₂_map_right_iff.mpr ?_)
      refine List.forall₂_same.mpr fun given _ => ⟨?_, rfl⟩
      simpa [GovernedReturn.within, GovernedReturn.withArgument] using List.perm_middle.symm
    · refine List.forall₂_map_left_iff.mpr (List.forall₂_map_right_iff.mpr ?_)
      refine List.forall₂_same.mpr fun given _ => ⟨?_, ?_⟩
      · simpa [GovernedReturn.within, GovernedReturn.withArgument, GovernedReturn.handed] using
          List.perm_middle.symm
      · simp [GovernedReturn.within, GovernedReturn.withArgument, GovernedReturn.handed, passed]

end Reading

/-! ## Helpers of contracts -/

/--
A helper enforces what a body states: its guards are the clauses of the stated
conditions, in which values on entry are replaced by constants.
-/
def Checker.Enforces (context : Context) (kind : Kind) (captured : OldBindings) (body : Statement)
    (checker : Checker) : Prop :=
  ∃ given found,
    conditions ⟨kind, context.owner⟩ body = .ok given ∧
      List.Forall₂ (Condition.CapturedAs captured context.marker?)
        (given.map (Condition.withMessage ⟨kind, context.owner⟩)) found ∧
        checker.guards = found.map (Condition.clause ⟨kind, context.owner⟩)

/-- Guards that are made for a checker enforce the contract. -/
theorem enforces_of_checkedGuards
    {context : Context} {kind : Kind} {body : Statement} {guards : List Statement}
    {pass after : Pass} {captured : OldBindings}
    (outcome : checkedGuards context ⟨kind, context.owner⟩ body pass = .ok (guards, after))
    (late : after.captured.bindings ⊆ captured.bindings) {checker : Checker}
    (same : checker.guards = guards) :
    checker.Enforces context kind captured body := by
  obtain ⟨given, found, capture, states, _, related, rfl, rfl, _, _⟩ := checkedGuards_eq_ok outcome
  exact ⟨given, found, states, related.imp fun _ _ inner => inner.mono late, same⟩

/-- What enforces a routed body enforces the body itself. -/
theorem Checker.Enforces.of_routed
    {context : Context} {kind : Kind} {captured : OldBindings} {body : Statement}
    {checker helper : Checker}
    (enforces : helper.Enforces context kind captured (checker.route body)) :
    helper.Enforces context kind captured body := by
  rcases enforces with ⟨stated, found, states, captured, guards⟩
  exact ⟨stated, found, conditions_of_route body states, captured, guards⟩

/-- Helpers stand at the positions of their invariants, from a given position on. -/
def Assigns (helper : Nat → Checker) (position : Nat) (made : List Checker) : Prop :=
  ∀ index, ∀ checker ∈ made[index]?, helper (position + index) = checker

theorem Assigns.head
    {helper : Nat → Checker} {position : Nat} {checker : Checker} {rest : List Checker}
    (assigns : Assigns helper position (checker :: rest)) : helper position = checker :=
  assigns 0 checker rfl

theorem Assigns.tail
    {helper : Nat → Checker} {position : Nat} {checker : Checker} {rest : List Checker}
    (assigns : Assigns helper position (checker :: rest)) : Assigns helper (position + 1) rest := by
  intro index other member
  rw [Nat.add_assoc, Nat.add_comm 1]
  exact assigns (index + 1) other (by simpa using member)

theorem Assigns.left
    {helper : Nat → Checker} {position : Nat} {first second : List Checker}
    (assigns : Assigns helper position (first ++ second)) : Assigns helper position first := by
  intro index checker member
  refine assigns index checker ?_
  rw [List.getElem?_append_left (List.getElem?_eq_some_iff.mp member).1]
  exact member

theorem Assigns.right
    {helper : Nat → Checker} {position : Nat} {first second : List Checker}
    (assigns : Assigns helper position (first ++ second)) :
    Assigns helper (position + first.length) second := by
  intro index checker member
  rw [Nat.add_assoc]
  refine assigns (first.length + index) checker ?_
  rw [List.getElem?_append_right (Nat.le_add_right _ _), Nat.add_sub_cancel_left]
  exact member

/-- Helpers can always be found by the positions of their invariants. -/
theorem exists_assigns (made : List Checker) : ∃ helper, Assigns helper 0 made := by
  refine ⟨fun index => made[index]?.getD ⟨"", []⟩, fun index checker member => ?_⟩
  simp [Option.mem_def.mp member]

/-- Helpers that a walk makes in a stretch of time, each under a name of its own. -/
structure Arise (last pass after : Pass) (made : List Checker) : Prop where
  out : ∀ checker ∈ made, HandedOut pass.work after.work checker.name
  wired : ∀ checker ∈ made, Wired last checker
  distinct : (made.map Checker.name).Nodup

namespace Arise

variable {last pass between after : Pass} {made more : List Checker}

theorem none (last pass after : Pass) : Arise last pass after [] where
  out := List.forall_mem_nil _
  wired := List.forall_mem_nil _
  distinct := List.nodup_nil

/-- What is made in a part of a stretch of time is made in it. -/
theorem widen (before : pass.Precedes between) (given : Arise last between after made) :
    Arise last pass after made where
  out checker member := before.work.handedOut (given.out checker member) (.refl _)
  wired := given.wired
  distinct := given.distinct

theorem append (first : Arise last pass between made) (second : Arise last between after more)
    (before : pass.Precedes between) (later : between.Precedes after) :
    Arise last pass after (made ++ more) where
  out checker member := by
    rcases List.mem_append.mp member with early | late
    · exact (Work.Precedes.refl _).handedOut (first.out checker early) later.work
    · exact before.work.handedOut (second.out checker late) (.refl _)
  wired checker member := by
    rcases List.mem_append.mp member with early | late
    · exact first.wired checker early
    · exact second.wired checker late
  distinct := by
    rw [List.map_append]
    refine first.distinct.append second.distinct ?_
    intro name early late
    obtain ⟨one, inFirst, rfl⟩ := List.mem_map.mp early
    obtain ⟨two, inSecond, equal⟩ := List.mem_map.mp late
    exact (second.out two inSecond).free (equal ▸ (first.out one inFirst).taken)

/-- It does not matter in which order helpers are listed. -/
theorem perm (given : Arise last pass after made) (same : made.Perm more) :
    Arise last pass after more where
  out checker member := given.out checker (same.mem_iff.mpr member)
  wired checker member := given.wired checker (same.mem_iff.mpr member)
  distinct := (same.map Checker.name).nodup_iff.mp given.distinct

end Arise

/-- The helpers that a walk makes for the invariants with given bodies. -/
structure Made (context : Context) (last pass after : Pass) (bodies : List Statement)
    (made : List Checker) : Prop extends Arise last pass after made where
  enforces : List.Forall₂ (Checker.Enforces context .invariant last.captured) bodies made

namespace Made

variable {context : Context} {last pass between after : Pass} {bodies others : List Statement}
  {made more : List Checker}

theorem none (pass after : Pass) : Made context last pass after [] [] :=
  ⟨.none last pass after, .nil⟩

/-- What is made in a part of a stretch of time is made in it. -/
theorem widen
    (before : pass.Precedes between) (given : Made context last between after bodies made) :
    Made context last pass after bodies made :=
  ⟨given.toArise.widen before, given.enforces⟩

theorem append
    (first : Made context last pass between bodies made)
    (second : Made context last between after others more)
    (before : pass.Precedes between) (later : between.Precedes after) :
    Made context last pass after (bodies ++ others) (made ++ more) :=
  ⟨first.toArise.append second.toArise before later,
    List.rel_append first.enforces second.enforces⟩

/-- Bodies that were routed may be replaced by the bodies themselves. -/
theorem of_routed {checker : Checker}
    (given : Made context last pass after (bodies.map checker.route) made) :
    Made context last pass after bodies made :=
  ⟨given.toArise, (List.forall₂_map_left_iff.mp given.enforces).imp fun _ _ => .of_routed⟩

/-- The helper that a walk makes for an invariant. -/
theorem single {body : Statement} {guards : List Statement} {checker : Checker}
    {guarded named : Pass} (sound : pass.Sound)
    (assembles :
      checkedGuards context ⟨.invariant, context.owner⟩ body pass = .ok (guards, guarded))
    (introduced :
      makeChecker ⟨.invariant, context.owner⟩ "Invariant" guards guarded = .ok (checker, named))
    (late : named.Precedes last) : Made context last pass named [body] [checker] := by
  obtain ⟨guardedSound, plain⟩ := sound_of_checkedGuards sound assembles
  obtain ⟨same, free, rfl⟩ := makeChecker_eq_ok introduced
  have grows := ((Pass.precedes_naming free).trans late).captured
  exact
    { enforces := .cons (enforces_of_checkedGuards assembles grows same) .nil
      out := by
        intro other member
        rw [List.mem_singleton.mp member]
        exact (precedes_of_checkedGuards assembles).work.handedOut ⟨free, List.mem_cons_self⟩
          (.refl _)
      wired := by
        intro other member
        rw [List.mem_singleton.mp member]
        exact wired_of_naming guardedSound free (same ▸ plain) late
      distinct := List.nodup_singleton _ }

end Made

/-! ## Walks -/

/-- Statements that contain no others state no contracts. -/
theorem stated_of_isSimple
    {settings : Settings} {kind : Kind} {statement : Statement}
    (simple : isSimple statement = true) :
    (stated settings kind).ofStatement statement = [] := by
  rw [stated_eq_gathered]
  exact gathered_of_isSimple simple

theorem stated_ofLoopInit (settings : Settings) (kind : Kind) (init : Option LoopInit) :
    (stated settings kind).ofLoopInit init = [] := by
  rw [stated_eq_gathered]
  exact gathered_ofLoopInit init

theorem stated_ofOptional (settings : Settings) (kind : Kind) (expression : Option Expression) :
    (stated settings kind).ofOptional expression = [] := by
  rw [stated_eq_gathered]
  exact gathered_ofOptional expression

/-- A statement that a source can contain declares no helper. -/
theorem declaresHelper_of_avoiding
    {names : List String} {kind : DeclarationKind} {declarators : List Declarator}
    (avoids : (avoiding (· ∉ names)).declared declarators) :
    declaresHelper names (.bindings kind declarators) = false := by
  unfold declaresHelper
  split
  case h_1 _ name _ same =>
    cases same
    simpa using avoids name List.mem_cons_self
  case h_2 => rfl

namespace Stretch

/-- What is read of the part of a stretch that is still to be walked. -/
def reading (settings : Settings) (position : Nat) : Stretch → Reading Nat
  | list _ rest => readSourceAll settings position rest
  | inside statement => readSource settings position false statement
  | slot statement => (readSource settings position false statement).enclosed

/-- What is read of the part of a stretch that has been walked. -/
def front (names : List String) : Stretch → Reading Statement
  | list before _ => readOutputAll names before
  | inside _ | slot _ => .empty

/-- What is read of the result of a stretch. -/
def output (names : List String) (result : List Statement) : Stretch → Reading Statement
  | list _ _ | inside _ => readOutputAll names result
  | slot _ => (readOutputAll names result).enclosed

/-- The statements of a stretch that are still to be walked. -/
def remaining : Stretch → List Statement
  | list _ rest => rest
  | inside statement | slot statement => [statement]

/-- The returns of a stretch are routed through the helpers of what governs them. -/
def Routes (context : Context) (names : List String) (result : List Statement)
    (made : List Checker) (stretch : Stretch) : Prop :=
  ∀ position helper, Assigns helper position made →
    (stretch.output names result).Agrees
      (((stretch.front names).withArguments
          (passed ((stretch.reading context.settings position).map helper).governors)).follow
        (((stretch.reading context.settings position).map helper).handed
          context.settings.tokens.result))

end Stretch

namespace Stretch

section

variable {context : Context} {names : List String} {statement walked : Statement}
  {made : List Checker}

theorem routes_inside :
    (Stretch.inside statement).Routes context names [walked] made ↔
      ∀ position helper, Assigns helper position made →
        (readOutput names walked).Agrees
          (((readSource context.settings position false statement).map helper).handed
            context.settings.tokens.result) := by
  simp [Routes, output, front, reading, readOutputAll_singleton]

theorem routes_slot :
    (Stretch.slot statement).Routes context names [walked] made ↔
      ∀ position helper, Assigns helper position made →
        (readOutput names walked).enclosed.Agrees
          (((readSource context.settings position false statement).map helper).handed
            context.settings.tokens.result).enclosed := by
  simp [Routes, output, front, reading, readOutputAll_singleton]

end

/-- The returns of a stretch are routed through helpers made in a walk for what governs them. -/
def Governs (context : Context) (names : List String) (last pass after : Pass)
    (result : List Statement) (stretch : Stretch) : Prop :=
  ∃ made,
    Made context last pass after (stretch.collected (stated context.settings .invariant)) made ∧
      stretch.Routes context names result made

section

variable {context : Context} {names : List String} {last pass between after : Pass}
  {before front tail result : List Statement} {statement walked : Statement}

/-- A statement that governs nothing and contains no returns can be left out. -/
theorem governs_inert
    (nothing : ∀ position, readSource context.settings position false statement = .empty)
    (none : (stated context.settings .invariant).ofStatement statement = [])
    (same : readOutputAll names front = readOutputAll names before)
    (precedes : pass.Precedes between)
    (rest : (Stretch.list front tail).Governs context names last between after result) :
    (Stretch.list before (statement :: tail)).Governs context names last pass after result := by
  obtain ⟨made, helpers, routes⟩ := rest
  refine ⟨made, ?_, fun position helper assigns => ?_⟩
  · rw [collected, Collection.ofStatements, none, List.nil_append]
    exact helpers.widen precedes
  · have given := routes position helper assigns
    simp only [output, Stretch.front, reading, same] at given ⊢
    rw [readSourceAll_of_inert (nothing position) none]
    exact given

/-- A statement that governs nothing is walked, and then the rest of the list. -/
theorem governs_extend
    {first : List Checker}
    (open' : ∀ position, (readSource context.settings position false statement).governors = [])
    (helpers : Made context last pass between
      ((stated context.settings .invariant).ofStatement statement) first)
    (routes : ∀ position helper, Assigns helper position first →
      (readOutput names walked).Agrees
        (((readSource context.settings position false statement).map helper).handed
          context.settings.tokens.result))
    (before' : pass.Precedes between) (later : between.Precedes after)
    (rest : (Stretch.list (before ++ [walked]) tail).Governs context names last between after
      result) :
    (Stretch.list before (statement :: tail)).Governs context names last pass after result := by
  obtain ⟨made, others, routesRest⟩ := rest
  refine ⟨first ++ made, ?_, fun position helper assigns => ?_⟩
  · rw [collected, Collection.ofStatements]
    exact helpers.append others before' later
  · have part := routes position helper assigns.left
    have given := routesRest (position + first.length) helper assigns.right
    have count : countStated context.settings .invariant [statement] = first.length := by
      rw [countStated_singleton]
      exact helpers.enforces.length_eq
    simp only [output, Stretch.front, reading] at given ⊢
    rw [readOutputAll_append, readOutputAll_singleton] at given
    rw [readSourceAll, count, Reading.map_follow]
    refine Reading.agrees_extend ?_ part given
    rw [Reading.map, open', List.map_nil]

/-- What stands under a label that stays is walked, and then the rest of the list. -/
theorem governs_labeled
    {label : String} {body : Statement}
    (stays : context.settings.roleOf label = .other ∨
      context.settings.roleOf label = .environment ∧ context.settings.actionFor label = .keep)
    (before' : pass.Precedes between) (later : between.Precedes after)
    (first : (Stretch.slot body).Governs context names last pass between [walked])
    (rest : (Stretch.list (before ++ [.labeled label walked]) tail).Governs context names last
      between after result) :
    (Stretch.list before (.labeled label body :: tail)).Governs context names last pass after
      result := by
  obtain ⟨made, helpers, routes⟩ := first
  have enters : context.settings.roleOf label = .other ∨
      context.settings.roleOf label = .environment ∧
        context.settings.actionFor label ≠ .remove :=
    stays.imp id fun given => ⟨given.1, by simp [given.2]⟩
  have made' : Made context last pass between
      ((stated context.settings .invariant).ofStatement (.labeled label body)) made := by
    rw [stated_of_entered enters]
    exact helpers
  refine governs_extend (fun position => ?_) made' (fun position helper assigns => ?_) before' later
    rest
  · rw [readSource_labeled stays, Reading.governors_enclosed]
  · rw [readSource_labeled stays, readOutput]
    exact routes_slot.mp routes position helper assigns

end

end Stretch

/-- A walk routes returns through the helpers that it makes of the invariants that govern them. -/
theorem Walks.governs
    {names : List String} {context : Context} {stretch : Stretch} {pass after last : Pass}
    {result : List Statement} (place : context.place ≠ .topLevel)
    (keeps : context.settings.stripsContracts = false)
    (walks : Walks context stretch pass result after) :
    pass.Sound → pass.work.Sound (· ∈ names) → after.Precedes last →
      (avoiding (· ∉ names)).OnStatements stretch.remaining → stretch.IsOpen context →
        stretch.Governs context names last pass after result := by
  have counted (kind : Kind) : context.ignores kind = false := by simp [Context.ignores, place]
  induction walks with
  | done before pass =>
      intro _ _ _ _ _
      refine ⟨[], ?_, fun position helper _ => ?_⟩
      · simp only [Stretch.collected, Collection.ofStatements]
        exact .none pass pass
      · simp only [Stretch.output, Stretch.front, Stretch.reading, readSourceAll,
          Reading.map_empty, Reading.governors_empty, Reading.withArguments_passed_nil,
          Reading.handed_empty, Reading.follow_empty]
        rfl
  | @ignored _ _ _ _ _ kind _ _ _ ignores =>
      rw [counted kind] at ignores
      cases ignores
  | stripped _ _ strips =>
      rw [keeps] at strips
      cases strips
  | inPlace role _ _ place assembles _ induction =>
      intro sound known late avoids _
      rw [Stretch.remaining, Parts.OnStatements] at avoids
      obtain ⟨found, _, rfl, clean, rfl⟩ := placeGuards_eq_ok assembles
      refine Stretch.governs_inert (fun position => ?_) ?_ ?_ (Pass.precedes_counted _ _)
        (induction (sound.counted _) (known.later (Pass.precedes_counted _ _).work) late avoids.2
          trivial)
      · rcases place with rfl | rfl <;> simp only [readSource, role]
      · rw [stated_of_contract role]
        rcases place with rfl | rfl <;> rfl
      · rw [readOutputAll_append, readOutputAll_guards (isPlainGuard_of_mem_map_clause
          fun condition among => (clean condition among).isPlain none), Reading.follow_empty]
  | postcondition role _ _ assembles names _ induction =>
      intro sound known late avoids _
      rw [Stretch.remaining, Parts.OnStatements] at avoids
      obtain ⟨guarded, plain⟩ := sound_of_checkedGuards sound assembles
      obtain ⟨rfl, free, rfl⟩ := makeChecker_eq_ok names
      have precedes := (precedes_of_checkedGuards assembles).trans
        (Pass.precedes_withPostcondition free)
      refine Stretch.governs_inert (fun position => ?_) ?_ rfl precedes
        (induction (guarded.withPostcondition free plain) (known.later precedes.work) late avoids.2
          trivial)
      · simp only [readSource, role]
      · rw [stated_of_contract role]
        rfl
  | @invariant before tail _ _ label body checker pass guarded named after role _ _ assembles introduced
      rest induction =>
      intro sound known late avoids _
      rw [Stretch.remaining, Parts.OnStatements] at avoids
      obtain ⟨guardedSound, _⟩ := sound_of_checkedGuards sound assembles
      have fromNamed : named.Precedes after := (Pass.precedes_counted _ _).trans rest.precedes
      have single := Made.single sound assembles introduced (fromNamed.trans late)
      obtain ⟨_, free, rfl⟩ := makeChecker_eq_ok introduced
      have toGuarded := precedes_of_checkedGuards assembles
      have toNamed := toGuarded.trans (Pass.precedes_naming free)
      have unknown : checker.name ∉ names := fun member =>
        free.free ((known.later toGuarded.work).known member).1
      have routesTail := (avoiding_routes (· ∉ names) checker)
      obtain ⟨made, helpers, routes⟩ := induction ((guardedSound.naming free).counted _)
        (known.later (toNamed.trans (Pass.precedes_counted _ _)).work) late
        (Parts.onStatements_append.mpr
          ⟨Parts.onStatements_routeAll routesTail _ avoids.2,
            Parts.onStatements_exitCheck routesTail _⟩) trivial
      have statedRoutes := stated_routes context.settings .invariant checker
      simp only [Stretch.collected, Collection.ofStatements_append,
        Collection.ofStatements_routeAll statedRoutes,
        Collection.ofStatements_exitCheck statedRoutes, List.append_nil] at helpers
      refine ⟨checker :: made, ?_, fun position helper assigns => ?_⟩
      · rw [Stretch.collected, Collection.ofStatements, stated_of_contract role, if_pos rfl]
        exact single.append (helpers.of_routed.widen (Pass.precedes_counted _ _)) toNamed fromNamed
      · have given := routes (position + 1) helper assigns.tail
        simp only [Stretch.output, Stretch.front, Stretch.reading, readOutputAll_append,
          readOutputAll_entry unknown, readOutputAll_routeAll, readSourceAll_append,
          readSourceAll_routeAll, readSourceAll_exitCheck, Reading.follow_empty,
          Reading.map_withArguments] at given ⊢
        have counts : countStated context.settings .invariant [.labeled label body] = 1 := by
          rw [countStated_singleton, stated_of_contract role, if_pos rfl]
          rfl
        have here : readSource context.settings position false (.labeled label body) =
            .governing position := by
          simp only [readSource, role]
        rw [readSourceAll, counts, here, Reading.map_follow]
        have governing : (Reading.governing position).map helper = .governing checker := by
          rw [← assigns.head]
          rfl
        rw [governing]
        exact Reading.agrees_attach given
  | kept role action first rest firstInduction induction =>
      intro sound known late avoids _
      rw [Stretch.remaining, Parts.OnStatements, Parts.OnStatement] at avoids
      exact Stretch.governs_labeled (.inr ⟨role, action⟩) first.precedes rest.precedes
        (firstInduction sound known (rest.precedes.trans late)
          (Parts.onStatements_singleton.mpr avoids.1) trivial)
        (induction (first.sound sound) (known.later first.precedes.work) late avoids.2 trivial)
  | other role first rest firstInduction induction =>
      intro sound known late avoids _
      rw [Stretch.remaining, Parts.OnStatements, Parts.OnStatement] at avoids
      exact Stretch.governs_labeled (.inl role) first.precedes rest.precedes
        (firstInduction sound known (rest.precedes.trans late)
          (Parts.onStatements_singleton.mpr avoids.1) trivial)
        (induction (first.sound sound) (known.later first.precedes.work) late avoids.2 trivial)
  | removed role action _ induction =>
      intro sound known late avoids _
      rw [Stretch.remaining, Parts.OnStatements] at avoids
      refine Stretch.governs_inert (fun position => ?_) (stated_of_removed role action _) rfl
        (Pass.precedes_counted _ _) (induction (sound.counted _)
          (known.later (Pass.precedes_counted _ _).work) late avoids.2 trivial)
      simp only [readSource, role, action]
  | inlined role action _ induction =>
      intro sound known late avoids _
      rw [Stretch.remaining, Parts.OnStatements] at avoids
      obtain ⟨made, helpers, routes⟩ := induction (sound.counted _)
        (known.later (Pass.precedes_counted _ _).work) late
        (Parts.onStatements_append.mpr ⟨(Parts.onStatements_unlabeled _ _).mpr avoids.1, avoids.2⟩)
        trivial
      have entered := @stated_of_entered context.settings _ .invariant
        (.inr ⟨role, by simp [action]⟩)
      refine ⟨made, ?_, fun position helper assigns => ?_⟩
      · simp only [Stretch.collected, Collection.ofStatements_append,
          Collection.ofStatements_unlabeled] at helpers
        rw [Stretch.collected, Collection.ofStatements, entered]
        exact helpers.widen (Pass.precedes_counted _ _)
      · have given := routes position helper assigns
        simp only [Stretch.output, Stretch.front, Stretch.reading] at given ⊢
        rw [readSourceAll_append, readSourceAll_unlabeled role action, countStated,
          Collection.ofStatements_unlabeled, ← entered, ← countStated_singleton] at given
        rw [readSourceAll]
        exact given
  | unlabeled plain first rest firstInduction induction =>
      intro sound known late avoids _
      rw [Stretch.remaining, Parts.OnStatements] at avoids
      obtain ⟨made, helpers, routes⟩ := firstInduction sound known (rest.precedes.trans late)
        (Parts.onStatements_singleton.mpr avoids.1)
        (by simp [Stretch.IsOpen, Context.recognizes, plain])
      exact Stretch.governs_extend (governors_readSource plain) helpers
        (Stretch.routes_inside.mp routes) first.precedes rest.precedes
        (induction (first.sound sound) (known.later first.precedes.work) late avoids.2 trivial)
  | @simple statement pass simple =>
      intro _ _ _ avoids _
      refine ⟨[], ?_, Stretch.routes_inside.mpr fun position helper _ => ?_⟩
      · rw [Stretch.collected, stated_of_isSimple simple]
        exact .none pass pass
      · cases statement with
        | block | labeled | branch | whileLoop | doWhileLoop | forLoop => cases simple
        | giveBack argument =>
            rw [readSource, readOutput]
            rfl
        | bindings kind declarators =>
            rw [Stretch.remaining, Parts.onStatements_singleton, Parts.OnStatement] at avoids
            rw [readSource, readOutput, declaresHelper_of_avoiding avoids]
            rfl
        | _ =>
            rw [readSource, readOutput]
            rfl
  | block _ induction =>
      intro sound known late avoids _
      rw [Stretch.remaining, Parts.onStatements_singleton, Parts.OnStatement] at avoids
      obtain ⟨made, helpers, routes⟩ := induction sound known late avoids trivial
      refine ⟨made, helpers, Stretch.routes_inside.mpr fun position helper assigns => ?_⟩
      rw [readOutput, readSource]
      have given := routes position helper assigns
      simp only [Stretch.output, Stretch.front, Stretch.reading, readOutputAll,
        Reading.withArguments_empty, Reading.empty_follow] at given
      exact given.enclosed
  | @labeled label _ _ _ _ _ induction =>
      intro sound known late avoids unknown
      have role : context.settings.roleOf label = .other := by
        simpa [Stretch.IsOpen, Context.recognizes, Statement.label?] using unknown
      rw [Stretch.remaining, Parts.onStatements_singleton, Parts.OnStatement] at avoids
      obtain ⟨made, helpers, routes⟩ := induction sound known late
        (Parts.onStatements_singleton.mpr avoids) trivial
      refine ⟨made, ?_, Stretch.routes_inside.mpr fun position helper assigns => ?_⟩
      · rw [Stretch.collected, stated_of_entered (.inl role)]
        exact helpers
      · rw [readOutput, readSource_labeled (.inl role)]
        exact Stretch.routes_slot.mp routes position helper assigns
  | branch _ induction =>
      intro sound known late avoids _
      rw [Stretch.remaining, Parts.onStatements_singleton, Parts.OnStatement] at avoids
      obtain ⟨made, helpers, routes⟩ := induction sound known late
        (Parts.onStatements_singleton.mpr avoids.2.1) trivial
      refine ⟨made, ?_, Stretch.routes_inside.mpr fun position helper assigns => ?_⟩
      · simp only [Stretch.collected] at helpers ⊢
        rw [Collection.ofStatement, Collection.ofAlternate, List.append_nil]
        exact helpers
      · rw [readOutput, readSource, readOutputAlternate, readSourceAlternate, Reading.follow_empty,
          Reading.follow_empty]
        exact Stretch.routes_slot.mp routes position helper assigns
  | branches first second firstInduction secondInduction =>
      intro sound known late avoids _
      rw [Stretch.remaining, Parts.onStatements_singleton, Parts.OnStatement,
        Parts.OnAlternate] at avoids
      obtain ⟨made, helpers, routes⟩ := firstInduction sound known (second.precedes.trans late)
        (Parts.onStatements_singleton.mpr avoids.2.1) trivial
      obtain ⟨more, others, routesOther⟩ := secondInduction (first.sound sound)
        (known.later first.precedes.work) late (Parts.onStatements_singleton.mpr avoids.2.2)
        trivial
      refine ⟨made ++ more, ?_, Stretch.routes_inside.mpr fun position helper assigns => ?_⟩
      · simp only [Stretch.collected] at helpers others ⊢
        rw [Collection.ofStatement, Collection.ofAlternate]
        exact helpers.append others first.precedes second.precedes
      · have count := helpers.enforces.length_eq
        rw [Stretch.collected, ← countStated_singleton] at count
        rw [readOutput, readSource, readOutputAlternate, readSourceAlternate, Reading.map_follow,
          Reading.handed_follow _ rfl, count, Reading.map_enclosed, Reading.map_enclosed,
          Reading.governors_enclosed, Reading.withArguments_passed_nil]
        exact (Stretch.routes_slot.mp routes position helper assigns.left).follow
          (Stretch.routes_slot.mp routesOther _ helper assigns.right)
  | whileLoop _ induction =>
      intro sound known late avoids _
      rw [Stretch.remaining, Parts.onStatements_singleton, Parts.OnStatement] at avoids
      obtain ⟨made, helpers, routes⟩ := induction sound known late
        (Parts.onStatements_singleton.mpr avoids.2) trivial
      refine ⟨made, helpers, Stretch.routes_inside.mpr fun position helper assigns => ?_⟩
      rw [readOutput, readSource]
      exact Stretch.routes_slot.mp routes position helper assigns
  | doWhileLoop _ induction =>
      intro sound known late avoids _
      rw [Stretch.remaining, Parts.onStatements_singleton, Parts.OnStatement] at avoids
      obtain ⟨made, helpers, routes⟩ := induction sound known late
        (Parts.onStatements_singleton.mpr avoids.2) trivial
      refine ⟨made, ?_, Stretch.routes_inside.mpr fun position helper assigns => ?_⟩
      · simp only [Stretch.collected] at helpers ⊢
        rw [Collection.ofStatement]
        exact (List.append_nil _).symm ▸ helpers
      · rw [readOutput, readSource]
        exact Stretch.routes_slot.mp routes position helper assigns
  | forLoop _ induction =>
      intro sound known late avoids _
      rw [Stretch.remaining, Parts.onStatements_singleton, Parts.OnStatement] at avoids
      obtain ⟨made, helpers, routes⟩ := induction sound known late
        (Parts.onStatements_singleton.mpr avoids.2.2.2) trivial
      refine ⟨made, ?_, Stretch.routes_inside.mpr fun position helper assigns => ?_⟩
      · simp only [Stretch.collected] at helpers ⊢
        rw [Collection.ofStatement, stated_ofLoopInit, stated_ofOptional, stated_ofOptional]
        exact helpers
      · rw [readOutput, readSource]
        exact Stretch.routes_slot.mp routes position helper assigns
  | wrapped _ _ induction =>
      intro sound known late avoids _
      obtain ⟨made, helpers, routes⟩ := induction sound known late avoids trivial
      refine ⟨made, ?_, Stretch.routes_slot.mpr fun position helper assigns => ?_⟩
      · rw [Stretch.collected, Collection.ofStatements_singleton] at helpers
        exact helpers
      · have given := routes position helper assigns
        simp only [Stretch.output, Stretch.front, Stretch.reading, readOutputAll,
          Reading.withArguments_empty, Reading.empty_follow, readSourceAll_singleton] at given
        rw [readOutput]
        exact given.enclosed
  | bare unknown _ induction =>
      intro sound known late avoids _
      obtain ⟨made, helpers, routes⟩ := induction sound known late avoids unknown
      refine ⟨made, helpers, Stretch.routes_slot.mpr fun position helper assigns => ?_⟩
      exact (Stretch.routes_inside.mp routes position helper assigns).enclosed

end Covenant.Contract
