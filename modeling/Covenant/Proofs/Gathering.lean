import Covenant.Proofs.Collection
import Covenant.Proofs.Progress

/-!
# What a walk gathers from contracts

A walk meets the contracts of statements in source order.  Something may be
gathered from each that survives: one that stands outside nested functions and
not in code for another environment.  If passes are related step by step by
what the contracts give that are met in between, then the passes before and
after a walk are related by all that is gathered from its statements.
-/

namespace Covenant.Contract

variable {α : Type}

/-- What the contracts in statements give that survive, each by its kind and its body. -/
def gathered (settings : Settings) (give : Kind → Statement → List α) : Collection α where
  expression _ := []
  function _ := []
  declared _ := []
  labeled label body :=
    match settings.roleOf label with
    | .contract kind => some (give kind body)
    | .environment => if settings.actionFor label = .remove then some [] else none
    | .other => none

section

variable {settings : Settings} {give : Kind → Statement → List α}

theorem gathered_of_contract
    {label : String} {kind : Kind} (role : settings.roleOf label = .contract kind)
    (body : Statement) :
    (gathered settings give).ofStatement (.labeled label body) = give kind body := by
  simp only [Collection.ofStatement, gathered, role]

theorem gathered_of_removed
    {label : String} (role : settings.roleOf label = .environment)
    (action : settings.actionFor label = .remove) (body : Statement) :
    (gathered settings give).ofStatement (.labeled label body) = [] := by
  simp only [Collection.ofStatement, gathered, role, action, if_true]

/-- Code that stays gives the same with its label as without it. -/
theorem gathered_of_entered
    {label : String}
    (enters : settings.roleOf label = .other ∨
      settings.roleOf label = .environment ∧ settings.actionFor label ≠ .remove)
    (body : Statement) :
    (gathered settings give).ofStatement (.labeled label body) =
      (gathered settings give).ofStatement body := by
  have inside : (gathered settings give).labeled label body = none := by
    rcases enters with role | ⟨role, action⟩
    · simp only [gathered, role]
    · simp only [gathered, role, action, if_false]
  rw [Collection.ofStatement, inside]

/-- Statements that contain no others give nothing. -/
theorem gathered_of_isSimple {statement : Statement} (simple : isSimple statement = true) :
    (gathered settings give).ofStatement statement = [] := by
  cases statement with
  | block | labeled | branch | whileLoop | doWhileLoop | forLoop => cases simple
  | giveBack argument => cases argument <;> rfl
  | _ => rfl

theorem gathered_ofLoopInit (init : Option LoopInit) :
    (gathered settings give).ofLoopInit init = [] := by
  cases init with
  | none => rfl
  | some init => cases init <;> rfl

theorem gathered_ofOptional (expression : Option Expression) :
    (gathered settings give).ofOptional expression = [] := by
  cases expression <;> rfl

/-- Routing changes what is gathered if it changes what each body gives. -/
theorem gathered_routes {checker : Checker} {change : α → α}
    (routed : ∀ kind body, give kind (checker.route body) = (give kind body).map change) :
    (gathered settings give).Routes checker change where
  expression _ := rfl
  argument _ := rfl
  bare := rfl
  check := rfl
  function _ := rfl
  declared _ := rfl
  labeled label body := by
    simp only [gathered]
    split
    · rw [routed]
      rfl
    · split <;> rfl
    · rfl

end

/-- What is collected from the part of a stretch that is still to be walked. -/
def Stretch.collected (collection : Collection α) : Stretch → List α
  | list _ rest => collection.ofStatements rest
  | inside statement | slot statement => collection.ofStatement statement

/-- Whether a stretch is allowed for statements that are looked into as they are. -/
def Stretch.IsOpen (context : Context) : Stretch → Prop
  | inside statement => context.recognizes statement = false
  | list _ _ | slot _ => True

/-- A relation of passes that the steps of a walk keep, by what contracts give. -/
structure Gathers (context : Context) (give : Kind → Statement → List α)
    (relates : List α → Pass → Pass → Prop) : Prop where
  counted (pass : Pass) (change : Summary → Summary) : relates [] pass (pass.counted change)
  append {first second : List α} {pass between after : Pass} :
    relates first pass between → relates second between after →
      relates (first ++ second) pass after
  inPlace {kind : Kind} (body : Statement) :
    kind = .precondition ∨ kind = .assertion → give kind body = []
  postcondition {body : Statement} {guards : List Statement} {checker : Checker}
    {pass guarded named : Pass} :
    checkedGuards context ⟨.postcondition, context.owner⟩ body pass = .ok (guards, guarded) →
      makeChecker ⟨.postcondition, context.owner⟩ "Postcondition" guards guarded =
          .ok (checker, named) →
        relates (give .postcondition body) pass (named.withPostcondition checker)
  invariant {body : Statement} {guards : List Statement} {checker : Checker}
    {pass guarded named : Pass} :
    checkedGuards context ⟨.invariant, context.owner⟩ body pass = .ok (guards, guarded) →
      makeChecker ⟨.invariant, context.owner⟩ "Invariant" guards guarded = .ok (checker, named) →
        relates (give .invariant body) pass named
  /-- Bodies that were routed may be replaced by the bodies themselves. -/
  routed (checker : Checker) : ∃ change,
    (∀ kind body, give kind (checker.route body) = (give kind body).map change) ∧
      ∀ {elements : List α} {pass after : Pass},
        relates (elements.map change) pass after → relates elements pass after

namespace Gathers

variable {context : Context} {give : Kind → Statement → List α}
  {relates : List α → Pass → Pass → Prop} (gathers : Gathers context give relates)

include gathers

theorem refl (pass : Pass) : relates [] pass pass :=
  gathers.counted pass id

/-- What only counts before a walk changes nothing. -/
theorem after_counted {elements : List α} {pass after : Pass} {change : Summary → Summary}
    (related : relates elements (pass.counted change) after) : relates elements pass after :=
  gathers.append (gathers.counted pass change) related

/-- Passes before and after a walk are related by what is gathered from its statements. -/
theorem walks
    {stretch : Stretch} {pass after : Pass} {result : List Statement}
    (place : context.place ≠ .topLevel) (keeps : context.settings.stripsContracts = false)
    (walks : Walks context stretch pass result after) :
    stretch.IsOpen context →
      relates (stretch.collected (gathered context.settings give)) pass after := by
  have heeded (kind : Kind) : context.ignores kind = false := by simp [Context.ignores, place]
  induction walks with
  | done before pass => exact fun _ => gathers.refl pass
  | @ignored _ _ _ _ _ kind _ _ _ ignores =>
      rw [heeded kind] at ignores
      cases ignores
  | stripped _ _ strips =>
      rw [keeps] at strips
      cases strips
  | inPlace role _ _ place assembles _ induction =>
      intro _
      rcases placeGuards_eq_ok assembles with ⟨_, _, rfl, _, rfl⟩
      rw [Stretch.collected, Collection.ofStatements, gathered_of_contract role,
        gathers.inPlace _ place]
      exact gathers.after_counted (induction trivial)
  | postcondition role _ _ assembles names _ induction =>
      intro _
      rw [Stretch.collected, Collection.ofStatements, gathered_of_contract role]
      exact gathers.append (gathers.postcondition assembles names) (induction trivial)
  | @invariant _ _ _ _ _ _ checker _ _ _ _ role _ _ assembles names _ induction =>
      intro _
      rcases gathers.routed checker with ⟨change, routed, unrouted⟩
      have routes := @gathered_routes _ context.settings _ _ _ routed
      have rest := induction trivial
      rw [Stretch.collected, Collection.ofStatements_append,
        Collection.ofStatements_routeAll routes, Collection.ofStatements_exitCheck routes,
        List.append_nil] at rest
      rw [Stretch.collected, Collection.ofStatements, gathered_of_contract role]
      exact gathers.append (gathers.invariant assembles names)
        (unrouted (gathers.after_counted rest))
  | kept role action _ _ firstInduction induction =>
      intro _
      rw [Stretch.collected, Collection.ofStatements,
        gathered_of_entered (.inr ⟨role, by simp [action]⟩)]
      exact gathers.append (firstInduction trivial) (induction trivial)
  | other role _ _ firstInduction induction =>
      intro _
      rw [Stretch.collected, Collection.ofStatements, gathered_of_entered (.inl role)]
      exact gathers.append (firstInduction trivial) (induction trivial)
  | removed role action _ induction =>
      intro _
      rw [Stretch.collected, Collection.ofStatements, gathered_of_removed role action]
      exact gathers.after_counted (induction trivial)
  | inlined role action _ induction =>
      intro _
      have rest := induction trivial
      rw [Stretch.collected, Collection.ofStatements_append,
        Collection.ofStatements_unlabeled] at rest
      rw [Stretch.collected, Collection.ofStatements,
        gathered_of_entered (.inr ⟨role, by simp [action]⟩)]
      exact gathers.after_counted rest
  | unlabeled plain _ _ firstInduction induction =>
      intro _
      rw [Stretch.collected, Collection.ofStatements]
      exact gathers.append
        (firstInduction (by simp [Stretch.IsOpen, Context.recognizes, plain]))
        (induction trivial)
  | simple simple =>
      intro _
      rw [Stretch.collected, gathered_of_isSimple simple]
      exact gathers.refl _
  | block _ induction =>
      intro _
      rw [Stretch.collected, Collection.ofStatement]
      exact induction trivial
  | @labeled label _ _ _ _ _ induction =>
      intro unknown
      have role : context.settings.roleOf label = .other := by
        simpa [Stretch.IsOpen, Context.recognizes, Statement.label?] using unknown
      rw [Stretch.collected, gathered_of_entered (.inl role)]
      exact induction trivial
  | branch _ induction =>
      intro _
      rw [Stretch.collected, Collection.ofStatement, Collection.ofAlternate, List.append_nil]
      exact induction trivial
  | branches _ _ firstInduction secondInduction =>
      intro _
      rw [Stretch.collected, Collection.ofStatement, Collection.ofAlternate]
      exact gathers.append (firstInduction trivial) (secondInduction trivial)
  | whileLoop _ induction =>
      intro _
      rw [Stretch.collected, Collection.ofStatement]
      exact induction trivial
  | doWhileLoop _ induction =>
      intro _
      rw [Stretch.collected, Collection.ofStatement]
      exact (List.append_nil _).symm ▸ induction trivial
  | forLoop _ induction =>
      intro _
      rw [Stretch.collected, Collection.ofStatement, gathered_ofLoopInit, gathered_ofOptional,
        gathered_ofOptional]
      exact induction trivial
  | wrapped _ _ induction =>
      intro _
      have rest := induction trivial
      rw [Stretch.collected, Collection.ofStatements_singleton] at rest
      exact rest
  | bare unknown _ induction => exact fun _ => induction unknown

end Gathers

end Covenant.Contract
