import Covenant.Proofs.Establish

/-!
# Labels that are gone

A transformation leaves no label that has a meaning where it stands.  In
functions every contract counts, so no contract keyword is left there; outside
functions only assertions count, and the other contracts stay with whatever is
beneath them.  Labels of environments are left just if nothing is extracted.

The labels of a tree are listed with functions not entered, since every
function is looked at by itself, and without those beneath a label that covers
them.
-/

namespace Covenant

mutual

/-- The labels in a statement that are not beneath a label that covers them. -/
def Statement.exposedLabels (covers : String → Bool) : Statement → List String
  | .labeled label body => label :: if covers label then [] else body.exposedLabels covers
  | .block statements => exposedLabelsOf covers statements
  | .branch _ consequent alternate =>
    consequent.exposedLabels covers ++ exposedLabelsOfAlternate covers alternate
  | .whileLoop _ body | .doWhileLoop body _ | .forLoop _ _ _ body => body.exposedLabels covers
  | _ => []

/-- Those labels in a statement that may be missing. -/
def exposedLabelsOfAlternate (covers : String → Bool) : Option Statement → List String
  | none => []
  | some statement => statement.exposedLabels covers

/-- Those labels in statements in turn. -/
def exposedLabelsOf (covers : String → Bool) : List Statement → List String
  | [] => []
  | statement :: rest => statement.exposedLabels covers ++ exposedLabelsOf covers rest

end

namespace Contract

/-- Whether a label states a contract that does not count outside functions. -/
def Settings.countsInside (settings : Settings) (label : String) : Bool :=
  match settings.roleOf label with
  | .contract kind => kind != .assertion
  | _ => false

/-- Whether a label has nothing to do where it stands. -/
def Settings.leaves (settings : Settings) (place : Place) (label : String) : Prop :=
  match settings.roleOf label with
  | .contract kind => place.ignores kind = true
  | .environment => settings.actionFor label = .keep
  | .other => True

/-- No label of an environment is kept in extraction. -/
theorem Settings.actionFor_ne_keep
    {settings : Settings} (extracts : settings.extractsEnvironment = true) (label : String) :
    settings.actionFor label ≠ .keep := by
  unfold Settings.actionFor
  simp only [extracts, Bool.not_true, Bool.false_eq_true, if_false]
  split <;> simp

section

set_option linter.unusedSectionVars false

variable {settings : Settings} {place : Place} {covers : String → Bool}
  (covered : ∀ {label kind}, settings.roleOf label = .contract kind →
    place.ignores kind = true → covers label = true)

include covered

mutual

/-- The labels in a settled statement are left where they stand. -/
theorem leaves_of_settled {alone : Bool} : (statement : Statement) →
    Settled settings place alone statement →
      ∀ label ∈ statement.exposedLabels covers, settings.leaves place label
  | .labeled own body, settled, label, member => by
      rw [Statement.exposedLabels, List.mem_cons] at member
      rw [Settled] at settled
      cases role : settings.roleOf own with
      | contract kind =>
          simp only [role] at settled
          rw [if_pos (covered role settled.2)] at member
          rcases member with rfl | absurd
          · simpa only [Settings.leaves, role] using settled.2
          · cases absurd
      | environment =>
          simp only [role] at settled
          rcases member with rfl | inside
          · simpa only [Settings.leaves, role] using settled.2.1
          · split at inside
            · cases inside
            · exact leaves_of_settled body settled.2.2 label inside
      | other =>
          simp only [role] at settled
          rcases member with rfl | inside
          · simp only [Settings.leaves, role]
          · split at inside
            · cases inside
            · exact leaves_of_settled body settled label inside
  | .block statements, settled, label, member => by
      rw [Settled] at settled
      rw [Statement.exposedLabels] at member
      exact leaves_of_settledAll statements settled label member
  | .branch _ consequent alternate, settled, label, member => by
      rw [Settled] at settled
      rw [Statement.exposedLabels, List.mem_append] at member
      rcases member with first | second
      · exact leaves_of_settled consequent settled.1 label first
      · exact leaves_of_settledAlternate alternate settled.2 label second
  | .whileLoop _ body, settled, label, member | .doWhileLoop body _, settled, label, member
  | .forLoop _ _ _ body, settled, label, member => by
      rw [Settled] at settled
      rw [Statement.exposedLabels] at member
      exact leaves_of_settled body settled label member

theorem leaves_of_settledAlternate : (alternate : Option Statement) →
    SettledAlternate settings place alternate →
      ∀ label ∈ exposedLabelsOfAlternate covers alternate, settings.leaves place label
  | some statement, settled, label, member => by
      rw [SettledAlternate] at settled
      rw [exposedLabelsOfAlternate] at member
      exact leaves_of_settled statement settled label member

/-- The labels in settled statements are left where they stand. -/
theorem leaves_of_settledAll : (statements : List Statement) →
    SettledAll settings place statements →
      ∀ label ∈ exposedLabelsOf covers statements, settings.leaves place label
  | statement :: rest, settled, label, member => by
      rw [SettledAll] at settled
      rw [exposedLabelsOf, List.mem_append] at member
      rcases member with first | second
      · exact leaves_of_settled statement settled.1 label first
      · exact leaves_of_settledAll rest settled.2 label second

end

end

/-- Whether statements are settled in some function. -/
def SettledInside (settings : Settings) (statements : List Statement) : Prop :=
  ∃ name, SettledAll settings (.function name) statements

/-- Walks over the statements of functions settle them. -/
theorem establishes_settledInside (settings : Settings) :
    Establishes settings (fun _ => True) (SettledInside settings) where
  checker := by
    intro checker parameter plain
    refine ⟨none, ?_⟩
    rw [Checker.statements, settledAll_append]
    refine ⟨settledAll_iff.mpr fun guard member => ?_, by simp [SettledAll, Settled]⟩
    obtain ⟨test, message, rfl, _, _⟩ := plain guard member
    simp [guardClause, Settled, SettledAll, SettledAlternate]
  finish := by
    intro scopes function work pass statements walked _ walks _
    exact ⟨function.name, settledAll_finish (walks.settles (by simp [SettledAll]))⟩
  exchange := by
    rintro transform earliest latest source target related ⟨name, settled⟩
    exact ⟨name, settledAll_of_exchange related settled⟩

/-- The statements outside the functions of a transformed program are settled. -/
theorem settledAll_of_transform
    {settings : Settings} {program output : Program} {summary : Summary}
    (outcome : program.transform settings = .ok (output, summary)) :
    SettledAll settings .topLevel output.statements := by
  obtain ⟨work, statements, _⟩ := transform_eq_ok.mp outcome
  obtain ⟨walked, pass, walks, nested⟩ := transformStatements_eq_ok.mp statements
  obtain ⟨_, related⟩ :=
    nestedFunctions_onStatements (transformFunction_advances settings _ _) nested
  exact settledAll_of_exchange related (walks.settles (by simp [SettledAll]))

/-- In a function, a label that is left states no contract, and in extraction none is an environment's. -/
theorem roleOf_of_leaves_function
    {settings : Settings} {name : Option String} {label : String}
    (left : settings.leaves (.function name) label) :
    (∀ kind, settings.roleOf label ≠ .contract kind) ∧
      (settings.extractsEnvironment = true → settings.roleOf label ≠ .environment) := by
  constructor
  · intro kind role
    simp only [Settings.leaves, role] at left
    cases left
  · intro extracts role
    simp only [Settings.leaves, role] at left
    exact Settings.actionFor_ne_keep extracts label left

/-- Outside functions, a label that is left states no assertion, and in extraction none is an environment's. -/
theorem roleOf_of_leaves_topLevel
    {settings : Settings} {label : String} (left : settings.leaves .topLevel label) :
    settings.roleOf label ≠ .contract .assertion ∧
      (settings.extractsEnvironment = true → settings.roleOf label ≠ .environment) := by
  constructor
  · intro role
    simp only [Settings.leaves, role] at left
    cases left
  · intro extracts role
    simp only [Settings.leaves, role] at left
    exact Settings.actionFor_ne_keep extracts label left

/--
No label with a meaning survives.  In no function of the result, at whatever
depth, is there a label that states a contract.  Outside functions there is
none that states an assertion, unless it is beneath another contract, which is
left alone there.  And if environments are extracted, then there is no label
of an environment in either place.
-/
theorem transform_clears_labels
    {settings : Settings} {program output : Program} {summary : Summary}
    (outcome : program.transform settings = .ok (output, summary)) :
    (∀ function ∈ output.functions, ∀ statements, function.body = .block statements →
      ∀ label ∈ exposedLabelsOf (fun _ => false) statements,
        (∀ kind, settings.roleOf label ≠ .contract kind) ∧
          (settings.extractsEnvironment = true → settings.roleOf label ≠ .environment)) ∧
      ∀ label ∈ exposedLabelsOf settings.countsInside output.statements,
        settings.roleOf label ≠ .contract .assertion ∧
          (settings.extractsEnvironment = true → settings.roleOf label ≠ .environment) := by
  constructor
  · intro function member statements shape label found
    obtain ⟨name, settled⟩ :=
      (establishes_settledInside settings).functions (fun _ _ _ _ => trivial) outcome function
        member statements shape
    refine @roleOf_of_leaves_function settings name label
      (leaves_of_settledAll ?_ _ settled label found)
    intro label kind _ ignored
    cases ignored
  · intro label found
    refine roleOf_of_leaves_topLevel
      (leaves_of_settledAll ?_ _ (settledAll_of_transform outcome) label found)
    intro label kind role ignored
    simpa [Settings.countsInside, role, Place.ignores] using ignored

/--
Assertions under an environment label in the place of a single statement, and
in a function an invariant in code for another environment.
-/
def guardedLoop : Program :=
  ⟨[.labeled "pre" (.labeled "assert" (.evaluate (.identifier "ready"))),
    .declare
      ⟨some "count", ["x"],
        .block
          [.whileLoop (.identifier "x")
            (.labeled "dev" (.labeled "assert" (.evaluate (.identifier "x")))),
            .labeled "test" (.block [.labeled "invariant" (.evaluate (.identifier "x"))]),
            .giveBack (some (.identifier "x"))],
        false, false, false⟩]⟩

theorem transform_clears_labels_of_guardedLoop :
    ∃ output summary,
      guardedLoop.transform .extracting = .ok (output, summary) ∧
        (∀ function ∈ output.functions, ∀ statements, function.body = .block statements →
          ∀ label ∈ exposedLabelsOf (fun _ => false) statements,
            Settings.extracting.roleOf label = .other) ∧
          ∀ label ∈ exposedLabelsOf Settings.extracting.countsInside output.statements,
            Settings.extracting.roleOf label ≠ .contract .assertion ∧
              Settings.extracting.roleOf label ≠ .environment := by
  cases outcome : guardedLoop.transform .extracting with
  | error reason =>
      have accepted : (guardedLoop.transform .extracting).toBool = true := by
        decide +kernel
      rw [outcome] at accepted
      cases accepted
  | ok done =>
      obtain ⟨inside, outside⟩ := transform_clears_labels outcome
      refine ⟨done.1, done.2, rfl, ?_, ?_⟩
      · intro function member statements shape label found
        obtain ⟨noContract, noEnvironment⟩ := inside function member statements shape label found
        cases role : Settings.extracting.roleOf label with
        | contract kind => exact (noContract kind role).elim
        | environment => exact (noEnvironment rfl role).elim
        | other => rfl
      · intro label found
        exact ⟨(outside label found).1, (outside label found).2 rfl⟩

end Contract

end Covenant
