import Covenant.Proofs.Establish

/-!
# Where labeled jumps lead

A `break` or `continue` with a label leads to a statement with that label
around it, in the same function.  A transformation keeps it so, with one
exception: where extraction drops an environment label from its code, the
jumps to that label lose what they lead to.

Jumps are looked at together with the labels that are in sight of them; labels
that are dropped count as in sight everywhere.
-/

namespace Covenant

mutual

/-- Whether the labeled jumps in a statement lead to labels around them or to labels in sight. -/
def Statement.jumpsWithin (sight : String → Bool) : Statement → Bool
  | .labeled label body => body.jumpsWithin fun name => name == label || sight name
  | .block statements => jumpsWithinAll sight statements
  | .branch _ consequent alternate =>
    consequent.jumpsWithin sight && jumpsWithinAlternate sight alternate
  | .whileLoop _ body | .doWhileLoop body _ | .forLoop _ _ _ body => body.jumpsWithin sight
  | .breakOut (some label) | .continueLoop (some label) => sight label
  | _ => true

/-- The same of a statement that may be missing. -/
def jumpsWithinAlternate (sight : String → Bool) : Option Statement → Bool
  | none => true
  | some statement => statement.jumpsWithin sight

/-- The same of statements in turn. -/
def jumpsWithinAll (sight : String → Bool) : List Statement → Bool
  | [] => true
  | statement :: rest => statement.jumpsWithin sight && jumpsWithinAll sight rest

end

/--
Whether the labeled jumps of a program lead to labels around them, in the same
function or outside functions.  Jumps to labels that are `lost` do not count.
-/
def Program.jumpsWithin (lost : String → Bool) (program : Program) : Bool :=
  jumpsWithinAll lost program.statements &&
    program.functions.all fun function =>
      match function.body with
      | .block statements => jumpsWithinAll lost statements
      | .result _ => true

namespace Contract

theorem jumpsWithin_iff {lost : String → Bool} {program : Program} :
    program.jumpsWithin lost = true ↔
      jumpsWithinAll lost program.statements = true ∧
        ∀ function ∈ program.functions,
          Own (fun statements => jumpsWithinAll lost statements = true) function := by
  rw [Program.jumpsWithin, Bool.and_eq_true, List.all_eq_true]
  refine and_congr_right fun _ => forall₂_congr fun function _ => ?_
  cases shape : function.body <;> simp [Own, shape]

@[simp]
theorem jumpsWithinAll_append {sight : String → Bool} {first second : List Statement} :
    jumpsWithinAll sight (first ++ second) =
      (jumpsWithinAll sight first && jumpsWithinAll sight second) := by
  induction first with
  | nil => simp [jumpsWithinAll]
  | cons statement rest induction => simp [jumpsWithinAll, induction, Bool.and_assoc]

theorem jumpsWithinAll_iff {sight : String → Bool} {statements : List Statement} :
    jumpsWithinAll sight statements = true ↔
      ∀ statement ∈ statements, statement.jumpsWithin sight = true := by
  induction statements with
  | nil => simp [jumpsWithinAll]
  | cons statement rest induction => simp [jumpsWithinAll, induction]

mutual

/-- Jumps lead somewhere also if more labels are in sight. -/
theorem jumpsWithin_mono {sight wider : String → Bool}
    (widens : ∀ label, sight label = true → wider label = true) : (statement : Statement) →
      statement.jumpsWithin sight = true → statement.jumpsWithin wider = true
  | .labeled own body, leads => by
      rw [Statement.jumpsWithin] at leads ⊢
      refine jumpsWithin_mono ?_ body leads
      intro label inSight
      rw [Bool.or_eq_true] at inSight ⊢
      exact inSight.imp_right (widens label)
  | .block statements, leads => by
      rw [Statement.jumpsWithin] at leads ⊢
      exact jumpsWithinAll_mono widens statements leads
  | .branch _ consequent alternate, leads => by
      rw [Statement.jumpsWithin, Bool.and_eq_true] at leads ⊢
      exact ⟨jumpsWithin_mono widens consequent leads.1,
        jumpsWithinAlternate_mono widens alternate leads.2⟩
  | .whileLoop _ body, leads | .doWhileLoop body _, leads | .forLoop _ _ _ body, leads => by
      rw [Statement.jumpsWithin] at leads ⊢
      exact jumpsWithin_mono widens body leads
  | .breakOut (some label), leads | .continueLoop (some label), leads => by
      rw [Statement.jumpsWithin] at leads ⊢
      exact widens label leads
  | .breakOut none, _ | .continueLoop none, _ | .evaluate _, _ | .giveBack _, _
  | .bindings _ _, _ | .declare _, _ | .raise _, _ | .empty, _ => by simp [Statement.jumpsWithin]

theorem jumpsWithinAlternate_mono {sight wider : String → Bool}
    (widens : ∀ label, sight label = true → wider label = true) :
      (alternate : Option Statement) →
        jumpsWithinAlternate sight alternate = true → jumpsWithinAlternate wider alternate = true
  | none, _ => by rw [jumpsWithinAlternate]
  | some statement, leads => by
      rw [jumpsWithinAlternate] at leads ⊢
      exact jumpsWithin_mono widens statement leads

/-- Jumps in statements lead somewhere also if more labels are in sight. -/
theorem jumpsWithinAll_mono {sight wider : String → Bool}
    (widens : ∀ label, sight label = true → wider label = true) :
      (statements : List Statement) →
        jumpsWithinAll sight statements = true → jumpsWithinAll wider statements = true
  | [], _ => by rw [jumpsWithinAll]
  | statement :: rest, leads => by
      rw [jumpsWithinAll, Bool.and_eq_true] at leads ⊢
      exact ⟨jumpsWithin_mono widens statement leads.1, jumpsWithinAll_mono widens rest leads.2⟩

end

/-! ## What a walk does to jumps -/

mutual

/-- Routing returns through a checker does not change where jumps lead. -/
@[simp]
theorem jumpsWithin_route (checker : Checker) (sight : String → Bool) : (statement : Statement) →
    (checker.route statement).jumpsWithin sight = statement.jumpsWithin sight
  | .labeled label body => by
      rw [Checker.route, Statement.jumpsWithin, Statement.jumpsWithin,
        jumpsWithin_route checker _ body]
  | .block statements => by
      rw [Checker.route, Statement.jumpsWithin, Statement.jumpsWithin,
        jumpsWithinAll_routeAll checker sight statements]
  | .branch _ consequent alternate => by
      rw [Checker.route, Statement.jumpsWithin, Statement.jumpsWithin,
        jumpsWithin_route checker sight consequent,
        jumpsWithinAlternate_route checker sight alternate]
  | .whileLoop _ body | .doWhileLoop body _ | .forLoop _ _ _ body => by
      rw [Checker.route, Statement.jumpsWithin, Statement.jumpsWithin,
        jumpsWithin_route checker sight body]
  | .giveBack _ => by simp [Checker.route, Statement.jumpsWithin]
  | .evaluate _ | .bindings _ _ | .declare _ | .raise _ | .breakOut _ | .continueLoop _
  | .empty => by simp [Checker.route]

theorem jumpsWithinAlternate_route (checker : Checker) (sight : String → Bool) :
    (alternate : Option Statement) →
      jumpsWithinAlternate sight (checker.routeAlternate alternate) =
        jumpsWithinAlternate sight alternate
  | none => by rw [Checker.routeAlternate]
  | some statement => by
      rw [Checker.routeAlternate, jumpsWithinAlternate, jumpsWithinAlternate,
        jumpsWithin_route checker sight statement]

/-- Routing the returns of statements does not change where their jumps lead. -/
@[simp]
theorem jumpsWithinAll_routeAll (checker : Checker) (sight : String → Bool) :
    (statements : List Statement) →
      jumpsWithinAll sight (checker.routeAll statements) = jumpsWithinAll sight statements
  | [] => by rw [Checker.routeAll]
  | statement :: rest => by
      rw [Checker.routeAll, jumpsWithinAll, jumpsWithinAll,
        jumpsWithin_route checker sight statement, jumpsWithinAll_routeAll checker sight rest]

end

section

variable {sight : String → Bool}

@[simp]
theorem jumpsWithinAll_exitCheck (checker : Checker) (statements : List Statement) :
    jumpsWithinAll sight (checker.exitCheck statements) = true := by
  unfold Checker.exitCheck
  split <;> simp [jumpsWithinAll, Checker.check, Statement.jumpsWithin]

@[simp]
theorem jumpsWithinAll_entry (checker : Checker) (parameter : String) :
    jumpsWithinAll sight (checker.entry parameter) = true := by
  simp [Checker.entry, jumpsWithinAll, Checker.declaration, Checker.check, Statement.jumpsWithin]

/-- There are no jumps in guards. -/
@[simp]
theorem jumpsWithinAll_clauses (site : Site) (found : List Condition) :
    jumpsWithinAll sight (found.map (Condition.clause site)) = true := by
  refine jumpsWithinAll_iff.mpr fun guard member => ?_
  obtain ⟨condition, _, rfl⟩ := List.mem_map.mp member
  simp [Condition.clause, guardClause, Statement.jumpsWithin, jumpsWithinAll,
    jumpsWithinAlternate]

/-- Without its label a statement has the same jumps, with the label in sight of them. -/
theorem jumpsWithinAll_unlabeled
    {label : String} {body : Statement} (seen : sight label = true)
    (leads : (Statement.labeled label body).jumpsWithin sight = true) :
    jumpsWithinAll sight (Statement.labeled label body).unlabeled = true := by
  rw [Statement.jumpsWithin] at leads
  have bare : body.jumpsWithin sight = true := by
    refine jumpsWithin_mono ?_ body leads
    intro name inSight
    rcases Bool.or_eq_true_iff.mp inSight with own | other
    · rwa [beq_iff_eq.mp own]
    · exact other
  cases body with
  | block statements => rwa [Statement.jumpsWithin] at bare
  | _ => simp only [Statement.unlabeled, jumpsWithinAll, bare, Bool.and_true]

end

/-- Whether a label is dropped from its code. -/
def Settings.drops (settings : Settings) (label : String) : Bool :=
  settings.roleOf label == .environment && settings.actionFor label == .inline

/-- After a walk jumps lead to where they led, if dropped labels are in sight everywhere. -/
theorem Walks.jumpsWithin
    {context : Context} {stretch : Stretch} {pass after : Pass} {result : List Statement}
    (walks : Walks context stretch pass result after) :
    ∀ sight : String → Bool, (∀ label, context.settings.drops label = true → sight label = true) →
      jumpsWithinAll sight stretch.statements = true → jumpsWithinAll sight result = true := by
  induction walks with
  | done before pass =>
      intro sight _ leads
      simpa [Stretch.statements] using leads
  | ignored _ _ _ induction =>
      intro sight seen leads
      exact induction sight seen (by simpa [Stretch.statements] using leads)
  | stripped _ _ _ _ induction | removed _ _ _ induction =>
      intro sight seen leads
      refine induction sight seen ?_
      simp only [Stretch.statements, jumpsWithinAll_append, jumpsWithinAll, Bool.and_eq_true]
        at leads ⊢
      exact ⟨leads.1, leads.2.2⟩
  | inPlace _ _ _ _ assembles _ induction =>
      intro sight seen leads
      obtain ⟨found, _, rfl, _, _⟩ := placeGuards_eq_ok assembles
      refine induction sight seen ?_
      simp only [Stretch.statements, jumpsWithinAll_append, jumpsWithinAll, Bool.and_eq_true,
        jumpsWithinAll_clauses, and_true] at leads ⊢
      exact ⟨leads.1, leads.2.2⟩
  | postcondition _ _ _ _ _ _ induction =>
      intro sight seen leads
      refine induction sight seen ?_
      simp only [Stretch.statements, jumpsWithinAll_append, jumpsWithinAll, Bool.and_eq_true]
        at leads ⊢
      exact ⟨leads.1, leads.2.2⟩
  | invariant _ _ _ _ _ _ induction =>
      intro sight seen leads
      refine induction sight seen ?_
      simp only [Stretch.statements, jumpsWithinAll_append, jumpsWithinAll, Bool.and_eq_true,
        jumpsWithinAll_entry, jumpsWithinAll_routeAll, jumpsWithinAll_exitCheck, and_true,
        true_and] at leads ⊢
      exact ⟨leads.1, leads.2.2⟩
  | kept _ _ _ _ firstInduction induction | other _ _ _ firstInduction induction =>
      intro sight seen leads
      simp only [Stretch.statements, jumpsWithinAll_append, jumpsWithinAll, Bool.and_eq_true,
        Statement.jumpsWithin, and_true] at leads firstInduction induction
      refine induction sight seen ⟨⟨leads.1, firstInduction _ ?_ leads.2.1⟩, leads.2.2⟩
      intro name dropped
      simp [seen name dropped]
  | @inlined before tail _ label _ _ _ role action _ induction =>
      intro sight seen leads
      refine induction sight seen ?_
      simp only [Stretch.statements, jumpsWithinAll_append, jumpsWithinAll, Bool.and_eq_true]
        at leads ⊢
      have dropped : sight label = true := seen label (by simp [Settings.drops, role, action])
      exact ⟨leads.1, jumpsWithinAll_unlabeled dropped leads.2.1, leads.2.2⟩
  | unlabeled _ _ _ firstInduction induction =>
      intro sight seen leads
      simp only [Stretch.statements, jumpsWithinAll_append, jumpsWithinAll, Bool.and_eq_true,
        and_true] at leads firstInduction induction
      exact induction sight seen ⟨⟨leads.1, firstInduction sight seen leads.2.1⟩, leads.2.2⟩
  | simple _ =>
      intro sight _ leads
      exact leads
  | block _ induction | wrapped _ _ induction | whileLoop _ induction | doWhileLoop _ induction
  | forLoop _ induction =>
      intro sight seen leads
      simp only [Stretch.statements, List.nil_append, jumpsWithinAll, Statement.jumpsWithin,
        Bool.and_true] at leads induction ⊢
      exact induction sight seen leads
  | labeled _ induction =>
      intro sight seen leads
      simp only [Stretch.statements, jumpsWithinAll, Statement.jumpsWithin, Bool.and_true]
        at leads induction ⊢
      refine induction _ ?_ leads
      intro name dropped
      simp [seen name dropped]
  | branch _ induction =>
      intro sight seen leads
      simp only [Stretch.statements, jumpsWithinAll, Statement.jumpsWithin,
        jumpsWithinAlternate, Bool.and_true] at leads induction ⊢
      exact induction sight seen leads
  | branches _ _ firstInduction secondInduction =>
      intro sight seen leads
      simp only [Stretch.statements, jumpsWithinAll, Statement.jumpsWithin,
        jumpsWithinAlternate, Bool.and_true, Bool.and_eq_true]
        at leads firstInduction secondInduction ⊢
      exact ⟨firstInduction sight seen leads.1, secondInduction sight seen leads.2⟩
  | bare _ _ induction => exact induction

/-- Finishing a walk adds no jumps. -/
theorem jumpsWithinAll_finish (sight : String → Bool) (parameter : String) (pass : Pass)
    (statements : List Statement) :
    jumpsWithinAll sight (finish parameter pass statements) =
      jumpsWithinAll sight statements := by
  have plain : jumpsWithinAll sight (prologue parameter pass) = true := by
    refine jumpsWithinAll_iff.mpr fun statement member => ?_
    rcases List.mem_append.mp member with among | among
    · obtain ⟨checker, _, rfl⟩ := List.mem_map.mp among
      simp [Checker.declaration, Statement.jumpsWithin]
    · obtain ⟨binding, _, rfl⟩ := List.mem_map.mp among
      simp [Statement.jumpsWithin]
  have routed : ∀ (checkers : List Checker) (statements : List Statement),
      jumpsWithinAll sight (checkers.foldl applyPostcondition statements) =
        jumpsWithinAll sight statements := by
    intro checkers
    induction checkers with
    | nil => exact fun _ => rfl
    | cons checker rest induction =>
        intro statements
        rw [List.foldl_cons, induction, applyPostcondition, Checker.appendExitCheck,
          jumpsWithinAll_append, jumpsWithinAll_routeAll, jumpsWithinAll_exitCheck, Bool.and_true]
  rw [finish, jumpsWithinAll_append, plain, routed, Bool.true_and]

section

set_option linter.unusedSectionVars false

variable {transform : Function → Transforming Function} {earliest latest : Work}

mutual

/-- Transforming the functions in a statement does not change where its jumps lead. -/
theorem jumpsWithin_of_exchange {sight : String → Bool} : {source target : Statement} →
    (nestedExchange transform earliest latest).OnStatement source target →
      target.jumpsWithin sight = source.jumpsWithin sight
  | _, _, .exchanged given => by rw [given.1]
  | _, _, .labeled inner => by
      rw [Statement.jumpsWithin, Statement.jumpsWithin, jumpsWithin_of_exchange inner]
  | _, _, .block inner => by
      rw [Statement.jumpsWithin, Statement.jumpsWithin, jumpsWithinAll_of_exchange inner]
  | _, _, .branch _ consequent alternate => by
      rw [Statement.jumpsWithin, Statement.jumpsWithin, jumpsWithin_of_exchange consequent,
        jumpsWithinAlternate_of_exchange alternate]
  | _, _, .whileLoop _ body | _, _, .doWhileLoop body _ | _, _, .forLoop _ _ _ body => by
      rw [Statement.jumpsWithin, Statement.jumpsWithin, jumpsWithin_of_exchange body]
  | _, _, .breakOut _ | _, _, .continueLoop _ | _, _, .empty => rfl
  | _, _, .evaluate _ | _, _, .giveBack _ | _, _, .bindings _ | _, _, .declare _
  | _, _, .raise _ => by simp [Statement.jumpsWithin]

theorem jumpsWithinAlternate_of_exchange {sight : String → Bool} :
    {source target : Option Statement} →
      (nestedExchange transform earliest latest).OnAlternate source target →
        jumpsWithinAlternate sight target = jumpsWithinAlternate sight source
  | _, _, .none => rfl
  | _, _, .some inner => by
      rw [jumpsWithinAlternate, jumpsWithinAlternate, jumpsWithin_of_exchange inner]

/-- Transforming the functions in statements does not change where their jumps lead. -/
theorem jumpsWithinAll_of_exchange {sight : String → Bool} : {source target : List Statement} →
    (nestedExchange transform earliest latest).OnStatements source target →
      jumpsWithinAll sight target = jumpsWithinAll sight source
  | _, _, .nil => rfl
  | _, _, .cons head rest => by
      rw [jumpsWithinAll, jumpsWithinAll, jumpsWithin_of_exchange head,
        jumpsWithinAll_of_exchange rest]

end

end

/-! ## Whole programs -/

/-- The jumps of functions lead to where they led, but for those to dropped labels. -/
theorem establishes_jumpsWithin (settings : Settings) :
    Establishes settings (fun statements => jumpsWithinAll settings.drops statements = true)
      (fun statements => jumpsWithinAll settings.drops statements = true) where
  checker := by
    intro checker parameter plain
    rw [Checker.statements, jumpsWithinAll_append, Bool.and_eq_true]
    refine ⟨jumpsWithinAll_iff.mpr fun guard member => ?_, by
      simp [jumpsWithinAll, Statement.jumpsWithin]⟩
    obtain ⟨test, message, rfl, _, _⟩ := plain guard member
    simp [guardClause, Statement.jumpsWithin, jumpsWithinAll, jumpsWithinAlternate]
  finish := by
    intro scopes function work pass statements walked _ walks leads
    rw [jumpsWithinAll_finish]
    exact walks.jumpsWithin settings.drops (fun _ dropped => dropped) leads
  exchange := by
    intro transform earliest latest source target related leads
    rw [jumpsWithinAll_of_exchange related]
    exact leads

/--
If the labeled jumps of a program lead to labels around them, then so do those
of the transformed program, but for jumps to an environment label that
extraction drops from its code.
-/
theorem jumpsWithin_of_transform
    {settings : Settings} {program output : Program} {summary : Summary}
    (leads : program.jumpsWithin (fun _ => false) = true)
    (outcome : program.transform settings = .ok (output, summary)) :
    output.jumpsWithin settings.drops = true := by
  have wider {statements : List Statement}
      (holds : jumpsWithinAll (fun _ => false) statements = true) :
      jumpsWithinAll settings.drops statements = true :=
    jumpsWithinAll_mono (by simp) statements holds
  obtain ⟨outside, inside⟩ := jumpsWithin_iff.mp leads
  refine jumpsWithin_iff.mpr ⟨?_, ?_⟩
  · obtain ⟨work, statements, _⟩ := transform_eq_ok.mp outcome
    obtain ⟨walked, pass, walks, nested⟩ := transformStatements_eq_ok.mp statements
    obtain ⟨_, related⟩ :=
      nestedFunctions_onStatements (transformFunction_advances settings _ _) nested
    rw [jumpsWithinAll_of_exchange related]
    exact walks.jumpsWithin settings.drops (fun _ dropped => dropped) (wider outside)
  · refine (establishes_jumpsWithin settings).functions ?_ outcome
    exact fun function member statements shape => wider (inside function member statements shape)

/-- A loop left by a jump to its label, which names the environment that is kept. -/
def leftLoop : Program :=
  ⟨[.declare
    ⟨some "leave", ["x"],
      .block
        [.labeled "dev" (.whileLoop (.identifier "x") (.breakOut (some "dev"))),
          .labeled "again" (.whileLoop (.identifier "x") (.continueLoop (some "again"))),
          .giveBack (some (.identifier "x"))],
      false, false, false⟩]⟩

/-- The label of the environment that is kept is dropped also from loops that jumps lead out of. -/
theorem jump_to_dropped_label_lost :
    ∃ output summary,
      leftLoop.jumpsWithin (fun _ => false) = true ∧
        leftLoop.transform .extracting = .ok (output, summary) ∧
          output.jumpsWithin (fun _ => false) = false := by
  have lost :
      (leftLoop.transform .extracting).toOption.map
        (fun done => done.1.jumpsWithin fun _ => false) = some false := by
    decide +kernel
  cases outcome : leftLoop.transform .extracting with
  | error reason =>
      rw [outcome] at lost
      cases lost
  | ok done =>
      rw [outcome] at lost
      exact ⟨done.1, done.2, by decide +kernel, rfl, Option.some.inj lost⟩

theorem jumpsWithin_of_transform_leftLoop :
    ∃ output summary,
      leftLoop.transform .extracting = .ok (output, summary) ∧
        output.jumpsWithin Settings.extracting.drops = true := by
  cases outcome : leftLoop.transform .extracting with
  | error reason =>
      have accepted : (leftLoop.transform .extracting).toBool = true := by
        decide +kernel
      rw [outcome] at accepted
      cases accepted
  | ok done =>
      exact ⟨done.1, done.2, rfl, jumpsWithin_of_transform (by decide +kernel) outcome⟩

end Contract

end Covenant
