import Covenant.Proofs.Undone

/-!
# The ledger of a walk

While a walk goes on, its summary counts the guards, the checkers and the
routed returns that are added.  Given a worth for each of them, the summary
gains what the statements gain: the count of what the walk leaves grows by the
worth of what has been counted, except for checkers that are still to be
declared and for routings that have been undone.
-/

namespace Covenant

open Contract

/-! ## What is worth how much -/

/-- What each kind of thing that a summary counts is worth. -/
structure Weights where
  /-- A function with a block, be it walked over or a checker's. -/
  function : Nat
  /-- The declaration of a checker. -/
  helper : Nat
  /-- A guard. -/
  guard : Nat
  /-- A constant for a value on entry. -/
  old : Nat
  /-- The routing of a return through a checker. -/
  route : Nat

namespace Weights

variable (weights : Weights)

/-- What everything is worth that a summary counts as added. -/
def worth (summary : Summary) : Nat :=
  weights.function * (summary.functions + summary.helpers) + weights.helper * summary.helpers +
      weights.guard * summary.guards + weights.old * summary.oldBindings +
    weights.route * summary.returnsRouted

/-- What a checker is worth, with its function and the guards in it. -/
def ofChecker (checker : Checker) : Nat :=
  weights.function + weights.helper + weights.guard * checker.guards.length

/-- What checkers are worth. -/
def ofCheckers (checkers : List Checker) : Nat :=
  (checkers.map weights.ofChecker).sum

theorem worth_addGuards (guards : Nat) (summary : Summary) :
    weights.worth (summary.addGuards guards) = weights.worth summary + weights.guard * guards := by
  simp only [worth, Summary.addGuards, Nat.mul_add]
  omega

theorem worth_addRouted (returns : Nat) (summary : Summary) :
    weights.worth (summary.addRouted returns) =
      weights.worth summary + weights.route * returns := by
  simp only [worth, Summary.addRouted, Nat.mul_add]
  omega

theorem worth_naming (pass : Pass) (name : String) :
    weights.worth (pass.naming name).work.summary =
      weights.worth pass.work.summary + weights.function + weights.helper := by
  simp only [worth, Pass.naming, Nat.mul_add, Nat.mul_one]
  omega

theorem worth_withPostcondition (pass : Pass) (checker : Checker) :
    weights.ofCheckers ((pass.naming checker.name).withPostcondition checker).postconditions +
        weights.worth pass.work.summary =
      weights.ofCheckers pass.postconditions + weights.guard * checker.guards.length +
        weights.worth ((pass.naming checker.name).withPostcondition checker).work.summary := by
  have named := weights.worth_naming pass checker.name
  have more :
      weights.ofCheckers ((pass.naming checker.name).withPostcondition checker).postconditions =
        weights.ofCheckers pass.postconditions + weights.ofChecker checker := by
    simp [ofCheckers, Pass.withPostcondition, Pass.naming]
  rw [ofChecker] at more
  simp only [Pass.withPostcondition] at named more ⊢
  omega

theorem worth_of_placeGuards {site : Site} {body : Statement} {guards : List Statement}
    {pass after : Pass} (outcome : placeGuards site body pass = .ok (guards, after)) :
    weights.worth after.work.summary =
        weights.worth pass.work.summary + weights.guard * guards.length ∧
      after.postconditions = pass.postconditions ∧
        ∀ guard ∈ guards, IsPlainGuard true guard := by
  obtain ⟨_, _, rfl, clean, rfl⟩ := placeGuards_eq_ok outcome
  exact ⟨weights.worth_addGuards _ _, rfl, isPlainGuard_of_mem_map_clause
    fun condition among => (clean condition among).isPlain none⟩

theorem worth_of_checkedGuards {context : Context} {site : Site} {body : Statement}
    {guards : List Statement} {pass after : Pass}
    (outcome : checkedGuards context site body pass = .ok (guards, after)) :
    weights.worth after.work.summary =
        weights.worth pass.work.summary + weights.guard * guards.length ∧
      after.postconditions = pass.postconditions := by
  obtain ⟨_, _, _, _, _, _, _, rfl, _, _⟩ := checkedGuards_eq_ok outcome
  exact ⟨weights.worth_addGuards _ _, rfl⟩

end Weights

/-! ## What a walk adds -/

/-- A tally charges what a walk adds at its worth; the names are those of the program. -/
structure Tally.Charges (tally : Tally) (weights : Weights) (names : List String) : Prop where
  guard {calls : Bool} {guard : Statement} :
    IsPlainGuard calls guard → tally.ofStatement guard = weights.guard
  check (checker : Checker) : tally.ofStatement checker.check = 0
  declaration {checker : Checker} (parameter : String) : checker.name ∉ names →
    (∀ guard ∈ checker.guards, IsPlainGuard true guard) →
      tally.ofStatement (checker.declaration parameter) = weights.ofChecker checker
  constant {binding : OldBinding} : binding.name ∉ names →
    binding.init.isPlain none true = true →
      tally.ofStatement (.bindings .constant [⟨binding.name, some binding.init⟩]) = weights.old
  routed {checker : Checker} : checker.name ∉ names →
    Tally.Routed checker weights.route tally .returns
  labeled (label : String) (body : Statement) : tally.labeled label body = none

section

variable {tally : Tally} {weights : Weights} {names : List String}
  (charges : tally.Charges weights names)

include charges

theorem Tally.Charges.guards {calls : Bool} {guards : List Statement}
    (plain : ∀ guard ∈ guards, IsPlainGuard calls guard) :
    tally.ofStatements guards = weights.guard * guards.length :=
  Tally.ofStatements_of_each fun guard member => charges.guard (plain guard member)

section

variable {checker : Checker} (unknown : checker.name ∉ names)

include unknown

/-- What an invariant puts before the statements that it governs is charged as its checker. -/
theorem Tally.Charges.entry (plain : ∀ guard ∈ checker.guards, IsPlainGuard true guard)
    (parameter : String) :
    tally.ofStatements (checker.entry parameter) = weights.ofChecker checker := by
  rw [Checker.entry, Tally.ofStatements, Tally.ofStatements_singleton,
    charges.declaration parameter unknown plain, charges.check, Nat.add_zero]

/-- Routing charges every return. -/
theorem Tally.Charges.routeAll (statements : List Statement) :
    tally.ofStatements (checker.routeAll statements) =
      tally.ofStatements statements + weights.route * countReturnsOfAll statements := by
  rw [Tally.ofStatements_routeAll (charges.routed unknown), Tally.ofStatements_returns]

end

end

namespace Contract

section

variable {tally : Tally} {weights : Weights} {names : List String}

/-- What a stretch counts for: what has been walked, and what is left of the rest. -/
def Stretch.counted (context : Context) (tally : Tally) : Stretch → Nat
  | list before rest =>
    tally.ofStatements before + (tally.left context.settings context.place).ofStatements rest
  | inside statement | slot statement =>
    (tally.left context.settings context.place).ofStatement statement

/-- How many routings are undone in a stretch. -/
def Stretch.undone (context : Context) : Stretch → Nat
  | list _ rest => undoneOfAll context.settings context.place 0 rest
  | inside statement | slot statement =>
    Covenant.undone context.settings context.place 0 statement

section

variable {context : Context} {before rest : List Statement} {statement : Statement}

theorem Stretch.counted_cons :
    Stretch.counted context tally (.list before (statement :: rest)) =
      tally.ofStatements before +
          (tally.left context.settings context.place).ofStatement statement +
        (tally.left context.settings context.place).ofStatements rest := by
  rw [Stretch.counted, Tally.ofStatements, Nat.add_assoc]

theorem Stretch.counted_snoc :
    Stretch.counted context tally (.list (before ++ [statement]) rest) =
      tally.ofStatements before + tally.ofStatement statement +
        (tally.left context.settings context.place).ofStatements rest := by
  rw [Stretch.counted, Tally.ofStatements_append, Tally.ofStatements_singleton]

theorem Stretch.counted_nil (rest : List Statement) :
    Stretch.counted context tally (.list [] rest) =
      (tally.left context.settings context.place).ofStatements rest := by
  rw [Stretch.counted, Tally.ofStatements, Nat.zero_add]

theorem Stretch.undone_cons :
    Stretch.undone context (.list before (statement :: rest)) =
      Covenant.undone context.settings context.place
          ((Tally.removed context.settings context.place).ofStatements rest) statement +
        undoneOfAll context.settings context.place 0 rest := by
  rw [Stretch.undone, undoneOfAll, Nat.add_zero]

section

variable {label : String} {body : Statement} {kind : Kind}
  (role : context.settings.roleOf label = .contract kind)

include role

/-- A contract that counts is not left. -/
theorem Stretch.counted_contract (counts : context.ignores kind = false) :
    Stretch.counted context tally (.list before (.labeled label body :: rest)) =
      Stretch.counted context tally (.list before rest) := by
  have heeded : ¬ context.place.ignores kind = true := Bool.eq_false_iff.mp counts
  rw [Stretch.counted_cons, Tally.left_of_contract role, if_neg heeded, Nat.add_zero,
    Stretch.counted]

/-- Contracts that attach nothing undo nothing. -/
theorem Stretch.undone_contract
    (idle : kind ≠ .invariant ∨ context.ignores kind = true ∨
      context.settings.stripsContracts = true) :
    Stretch.undone context (.list before (.labeled label body :: rest)) =
      undoneOfAll context.settings context.place 0 rest := by
  have attached : ¬ (kind = .invariant ∧ context.place.ignores kind = false ∧
      context.settings.stripsContracts = false) := by
    rintro ⟨invariant, counts, keeps⟩
    rcases idle with other | ignores | strips
    · exact other invariant
    · exact Bool.eq_false_iff.mp counts ignores
    · exact Bool.eq_false_iff.mp keeps strips
  rw [Stretch.undone_cons, undone_of_contract role, if_neg attached, Nat.zero_add]

end

/-- An invariant undoes the routings of the returns behind it that will be removed. -/
theorem Stretch.undone_invariant {label : String} {body : Statement}
    (role : context.settings.roleOf label = .contract .invariant)
    (counts : context.ignores .invariant = false)
    (keeps : context.settings.stripsContracts = false) :
    Stretch.undone context (.list before (.labeled label body :: rest)) =
      (Tally.removed context.settings context.place).ofStatements rest +
        undoneOfAll context.settings context.place 0 rest := by
  have heeded : context.place.ignores .invariant = false := counts
  rw [Stretch.undone_cons, undone_of_contract role, if_pos ⟨rfl, heeded, keeps⟩]

end

/--
An invariant charges its checker and the returns before and behind it, except
for those that will be removed.
-/
theorem Stretch.counted_attached {tail : List Statement} {checker : Checker}
    (charges : tally.Charges weights names) (counts : context.ignores .invariant = false)
    (unknown : checker.name ∉ names) (plain : ∀ guard ∈ checker.guards, IsPlainGuard true guard)
    (parameter : String) (statements : List Statement) :
    Stretch.counted context tally
          (.list (checker.entry parameter ++ checker.routeAll before)
            (checker.routeAll tail ++ checker.exitCheck statements)) +
        weights.route *
          (Tally.removed context.settings context.place).ofStatements tail =
      Stretch.counted context tally (.list before tail) + weights.ofChecker checker +
        weights.route * countReturnsOfAll (before ++ tail) := by
  obtain ⟨name, place⟩ : ∃ name, context.place = .function name := by
    cases given : context.place with
    | topLevel => simp [Context.ignores, given] at counts
    | function name => exact ⟨name, rfl⟩
  have routed := @Tally.Routed.left context.settings tally checker weights.route name
    (charges.routed unknown)
  have returns : countReturnsOfAll (before ++ tail) =
      countReturnsOfAll before + countReturnsOfAll tail := by
    simp only [← Tally.ofStatements_returns, Tally.ofStatements_append]
  have split := Tally.countReturns_eq_left_add_removed context.settings context.place tail
  rw [place] at split
  simp only [Stretch.counted, Tally.ofStatements_append, place, Tally.left_exitCheck (charges.check checker),
    Tally.ofStatements_routeAll routed, charges.entry unknown plain,
    charges.routeAll unknown, returns, split, Nat.mul_add]
  omega

/--
What a walk leaves, with the checkers that are still to be declared and the
routings that have been undone, counts for what there was before it and for
what it has added.
-/
theorem Walks.balance
    {context : Context} {stretch : Stretch} {pass after : Pass} {result : List Statement}
    (charges : tally.Charges weights names) (walks : Walks context stretch pass result after) :
    pass.Sound → pass.work.Sound (· ∈ names) → stretch.IsOpen context →
      tally.ofStatements result + weights.ofCheckers after.postconditions +
          weights.route * stretch.undone context + weights.worth pass.work.summary =
        stretch.counted context tally + weights.ofCheckers pass.postconditions +
          weights.worth after.work.summary := by
  induction walks with
  | done before pass =>
      intro _ _ _
      simp [Stretch.undone, Stretch.counted, undoneOfAll, Tally.ofStatements]
  | ignored role ignores _ induction =>
      intro sound known _
      have ignored : context.place.ignores _ = true := ignores
      have rest := induction sound known trivial
      rw [Stretch.counted_snoc, Tally.ofStatement_labeled (charges.labeled _ _)] at rest
      rw [Stretch.counted_cons, Tally.left_of_contract role, if_pos ignored,
        Stretch.undone_contract role (.inr (.inl ignores))]
      exact rest
  | stripped role counts strips _ induction =>
      intro sound known _
      have rest := induction (sound.counted _)
        (known.later (Pass.precedes_counted _ _).work) trivial
      rw [Stretch.counted_contract role counts, Stretch.undone_contract role (.inr (.inr strips))]
      exact rest
  | @inPlace _ _ _ _ _ _ kind _ _ _ role counts keeps place assembles _ induction =>
      intro sound known _
      have other : kind ≠ .invariant := by rcases place with rfl | rfl <;> simp
      obtain ⟨worth, same, plain⟩ := weights.worth_of_placeGuards assembles
      obtain ⟨_, _, _, _, rfl⟩ := placeGuards_eq_ok assembles
      have rest := induction (sound.counted _)
        (known.later (Pass.precedes_counted _ _).work) trivial
      rw [worth, same, Stretch.counted, Tally.ofStatements_append, charges.guards plain] at rest
      rw [Stretch.counted_contract role counts, Stretch.undone_contract role (.inl other),
        Stretch.counted]
      simp only [Stretch.undone] at rest
      omega
  | @postcondition _ _ _ _ _ _ checker _ guarded _ _ role counts keeps assembles introduced _ induction =>
      intro sound known _
      obtain ⟨worth, same⟩ := weights.worth_of_checkedGuards assembles
      obtain ⟨ready, plain⟩ := sound_of_checkedGuards sound assembles
      obtain ⟨rfl, free, rfl⟩ := makeChecker_eq_ok introduced
      have rest := induction (ready.withPostcondition free plain)
        (known.later ((precedes_of_checkedGuards assembles).trans
          (Pass.precedes_withPostcondition free)).work) trivial
      have declared := weights.worth_withPostcondition guarded checker
      rw [same, worth] at declared
      rw [Stretch.counted_contract role counts, Stretch.undone_contract role (.inl (by simp))]
      simp only [Stretch.undone] at rest
      omega
  | @invariant before tail _ _ _ _ checker _ guarded _ _ role counts keeps assembles introduced _
      induction =>
      intro sound known _
      obtain ⟨worth, same⟩ := weights.worth_of_checkedGuards assembles
      obtain ⟨ready, plain⟩ := sound_of_checkedGuards sound assembles
      obtain ⟨rfl, free, rfl⟩ := makeChecker_eq_ok introduced
      have between := known.later (precedes_of_checkedGuards assembles).work
      have unknown : checker.name ∉ names := fun member =>
        free.free (between.known member).1
      have rest := induction ((ready.naming free).counted _)
        (between.later ((Pass.precedes_naming free).trans (Pass.precedes_counted _ _)).work) trivial
      have attached := @Stretch.counted_attached _ _ _ context before tail checker charges counts
        unknown plain context.settings.tokens.result
        (checker.entry context.settings.tokens.result ++ checker.routeAll before ++
          checker.routeAll tail)
      have named := weights.worth_naming guarded checker.name
      rw [Stretch.counted_contract role counts, Stretch.undone_invariant role counts keeps,
        Nat.mul_add]
      rw [Weights.ofChecker] at attached
      simp only [Stretch.undone, undoneOfAll_append, undoneOfAll_exitCheck, undoneOfAll_routeAll,
        Tally.removed_exitCheck, Pass.counted, weights.worth_addRouted, Nat.add_zero] at rest
      have kept : (guarded.naming checker.name).postconditions = guarded.postconditions := rfl
      rw [kept, same] at rest
      omega
  | kept role action first _ firstInduction induction =>
      intro sound known _
      have inner := firstInduction sound known trivial
      have rest := induction (first.sound sound) (known.later first.precedes.work) trivial
      rw [Stretch.counted_snoc, Tally.ofStatement_labeled (charges.labeled _ _)] at rest
      rw [Stretch.counted_cons, Stretch.undone_cons, undone_of_entered (.inr ⟨role, action⟩),
        Tally.left_of_entered (.inr ⟨role, by simp [action]⟩), Nat.mul_add]
      simp only [Stretch.counted, Stretch.undone, Tally.ofStatements_singleton] at inner rest ⊢
      omega
  | other role first _ firstInduction induction =>
      intro sound known _
      have inner := firstInduction sound known trivial
      have rest := induction (first.sound sound) (known.later first.precedes.work) trivial
      rw [Stretch.counted_snoc, Tally.ofStatement_labeled (charges.labeled _ _)] at rest
      rw [Stretch.counted_cons, Stretch.undone_cons, undone_of_entered (.inl role),
        Tally.left_of_entered (.inl role), Nat.mul_add]
      simp only [Stretch.counted, Stretch.undone, Tally.ofStatements_singleton] at inner rest ⊢
      omega
  | removed role action _ induction =>
      intro sound known _
      have rest := induction (sound.counted _)
        (known.later (Pass.precedes_counted _ _).work) trivial
      rw [Stretch.counted_cons, Tally.left_of_removed role action, Stretch.undone_cons,
        undone_of_removed role action, Nat.zero_add]
      exact rest
  | inlined role action _ induction =>
      intro sound known _
      have rest := induction (sound.counted _)
        (known.later (Pass.precedes_counted _ _).work) trivial
      rw [Stretch.counted_cons, Tally.left_of_entered (.inr ⟨role, by simp [action]⟩),
        Stretch.undone_cons, undone_of_inlined role action]
      simp only [Stretch.counted, Stretch.undone, Tally.ofStatements_append,
        Tally.ofStatements_unlabeled, undoneOfAll_append, Nat.add_zero] at rest
      rw [← Nat.add_assoc (tally.ofStatements _)] at rest
      exact rest
  | unlabeled plain first _ firstInduction induction =>
      intro sound known _
      have inner := firstInduction sound known (by simp [Stretch.IsOpen, Context.recognizes, plain])
      have rest := induction (first.sound sound) (known.later first.precedes.work) trivial
      rw [Stretch.counted_snoc] at rest
      rw [Stretch.counted_cons, Stretch.undone_cons, undone_of_unlabeled plain, Nat.mul_add]
      simp only [Stretch.counted, Stretch.undone, Tally.ofStatements_singleton] at inner rest ⊢
      omega
  | simple simple =>
      intro _ _ _
      rw [Tally.ofStatements_singleton, Stretch.undone, Stretch.counted,
        undone_of_isSimple simple, Tally.left_of_isSimple simple, Nat.mul_zero, Nat.add_zero]
  | block _ induction =>
      intro sound known _
      have inner := induction sound known trivial
      rw [Stretch.counted_nil] at inner
      rw [Tally.ofStatements_singleton, Tally.ofStatement]
      exact inner
  | @labeled label _ _ _ _ _ induction =>
      intro sound known unknown
      have role : context.settings.roleOf label = .other := by
        simpa [Stretch.IsOpen, Context.recognizes, Statement.label?] using unknown
      have inner := induction sound known trivial
      simp only [Stretch.counted, Stretch.undone, Tally.ofStatements_singleton,
        Tally.ofStatement_labeled (charges.labeled _ _), undone_of_entered (.inl role),
        Tally.left_of_entered (.inl role)] at inner ⊢
      exact inner
  | branch _ induction =>
      intro sound known _
      have inner := induction sound known trivial
      simp only [Stretch.counted, Stretch.undone, Tally.ofStatements_singleton, Tally.ofStatement,
        Tally.ofAlternate, Covenant.undone, undoneOfAlternate, Tally.left_branch,
        Tally.left_expression, Nat.add_zero] at inner ⊢
      omega
  | branches first _ firstInduction secondInduction =>
      intro sound known _
      have inner := firstInduction sound known trivial
      have other := secondInduction (first.sound sound) (known.later first.precedes.work) trivial
      simp only [Stretch.counted, Stretch.undone, Tally.ofStatements_singleton, Tally.ofStatement,
        Tally.ofAlternate, Covenant.undone, undoneOfAlternate, Tally.left_branch,
        Tally.left_expression, Nat.mul_add] at inner other ⊢
      omega
  | whileLoop _ induction | doWhileLoop _ induction =>
      intro sound known _
      have inner := induction sound known trivial
      simp only [Stretch.counted, Stretch.undone, Tally.ofStatements_singleton, Tally.ofStatement,
        Covenant.undone, Tally.left_expression] at inner ⊢
      omega
  | forLoop _ induction =>
      intro sound known _
      have inner := induction sound known trivial
      simp only [Stretch.counted, Stretch.undone, Tally.ofStatements_singleton, Tally.ofStatement,
        Covenant.undone, Tally.left_ofLoopInit, Tally.left_ofOptional] at inner ⊢
      omega
  | wrapped _ _ induction =>
      intro sound known _
      have inner := induction sound known trivial
      rw [Stretch.counted_nil, Tally.ofStatements_singleton, Stretch.undone,
        undoneOfAll_singleton] at inner
      rw [Tally.ofStatements_singleton, Tally.ofStatement]
      exact inner
  | bare unknown _ induction => exact fun sound known _ => induction sound known unknown

/-! ## Finishing -/

variable (charges : tally.Charges weights names)

include charges

/-- Postconditions charge the returns that they route. -/
theorem balance_applyPostconditions {checkers : List Checker}
    (unknown : ∀ checker ∈ checkers, checker.name ∉ names) (statements : List Statement) :
    tally.ofStatements (checkers.foldl applyPostcondition statements) =
      tally.ofStatements statements + weights.route * countRouted statements checkers := by
  induction checkers generalizing statements with
  | nil => rfl
  | cons checker rest induction =>
      have exit : tally.ofStatements (checker.exitCheck (checker.routeAll statements)) = 0 := by
        unfold Checker.exitCheck
        split
        · rfl
        · rw [Tally.ofStatements_singleton, charges.check]
      rw [List.foldl_cons,
        induction (fun other member => unknown other (List.mem_cons_of_mem _ member)),
        applyPostcondition, Checker.appendExitCheck, Tally.ofStatements_append, exit,
        charges.routeAll (unknown checker List.mem_cons_self), countRouted, Nat.mul_add]
      simp only [applyPostcondition, Checker.appendExitCheck]
      omega

theorem balance_declarations {parameter : String} {checkers : List Checker}
    (unknown : ∀ checker ∈ checkers, checker.name ∉ names)
    (plain : ∀ checker ∈ checkers, ∀ guard ∈ checker.guards, IsPlainGuard true guard) :
    tally.ofStatements (checkers.map (·.declaration parameter)) = weights.ofCheckers checkers := by
  induction checkers with
  | nil => rfl
  | cons checker rest induction =>
      rw [List.map_cons, Tally.ofStatements,
        charges.declaration parameter (unknown checker List.mem_cons_self)
          (plain checker List.mem_cons_self),
        induction (fun other member => unknown other (List.mem_cons_of_mem _ member))
          (fun other member => plain other (List.mem_cons_of_mem _ member))]
      rfl

theorem balance_constants {bindings : List OldBinding}
    (unknown : ∀ binding ∈ bindings, binding.name ∉ names)
    (plain : ∀ binding ∈ bindings, binding.init.isPlain none true = true) :
    tally.ofStatements (OldBindings.declarations ⟨bindings⟩) = weights.old * bindings.length := by
  induction bindings with
  | nil => rfl
  | cons binding rest induction =>
      have others := induction (fun other member => unknown other (List.mem_cons_of_mem _ member))
        (fun other member => plain other (List.mem_cons_of_mem _ member))
      simp only [OldBindings.declarations] at others ⊢
      rw [List.map_cons, Tally.ofStatements,
        charges.constant (unknown binding List.mem_cons_self) (plain binding List.mem_cons_self),
        others, List.length_cons, Nat.mul_add]
      omega

/-- What is left of a function when it is finished counts for all that has been added to it. -/
theorem balance_finish {work : Work} {pass : Pass} (sound : pass.Sound)
    (known : work.Sound (· ∈ names)) (precedes : work.start.Precedes pass) (parameter : String)
    (walked : List Statement) :
    tally.ofStatements (finish parameter pass walked) + weights.worth pass.work.summary =
      tally.ofStatements walked + weights.ofCheckers pass.postconditions +
        weights.worth (finishWork pass walked).summary := by
  have checkers : ∀ checker ∈ pass.postconditions, checker.name ∉ names := by
    intro checker member among
    have later := known.later (work.precedes_start.trans precedes.work)
    exact (later.known among).2 (sound.checkers checker member).1
  have constants : ∀ binding ∈ pass.captured.bindings, binding.name ∉ names := by
    intro binding member among
    rcases precedes.capturing binding member with absurd | out
    · cases absurd
    · exact out.free (known.known among).1
  have prologue : tally.ofStatements (prologue parameter pass) =
      weights.ofCheckers pass.postconditions + weights.old * pass.captured.bindings.length := by
    rw [Contract.prologue, Tally.ofStatements_append,
      balance_declarations charges checkers fun checker member =>
        (sound.checkers checker member).2,
      balance_constants charges constants fun binding member =>
        (sound.captured binding member).2.2]
  have worth : weights.worth (finishWork pass walked).summary =
      weights.worth pass.work.summary + weights.old * pass.captured.bindings.length +
        weights.route * countRouted walked pass.postconditions := by
    simp only [finishWork, Weights.worth, Nat.mul_add]
    omega
  rw [finish, Tally.ofStatements_append, prologue,
    balance_applyPostconditions charges checkers, worth]
  omega

end

end Contract

end Covenant
