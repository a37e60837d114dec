import Covenant.Proofs.Parts
import Covenant.Proofs.Progress

/-!
# The parts of walked statements

What is required of the parts of statements is carried through a walk if it is
met by everything that a walk may add: guards, checkers, and routed returns.
-/

namespace Covenant.Contract

/-- The statements that a stretch of a walk starts with. -/
def Stretch.statements : Stretch → List Statement
  | list before rest => before ++ rest
  | inside statement | slot statement => [statement]

/-- The requirements allow what a walk may add up to a moment. -/
structure Admits (parts : Parts) (parameter : String) (last : Pass) : Prop where
  guard {guard : Statement} : IsPlainGuard true guard → parts.OnStatement guard
  routes {checker : Checker} : Wired last checker → parts.Routes checker
  declaration {checker : Checker} :
    Wired last checker → parts.OnStatement (checker.declaration parameter)

/-- Whatever is required of the parts of statements still holds after a walk. -/
theorem Walks.parts
    {context : Context} {stretch : Stretch} {pass after last : Pass} {result : List Statement}
    {parts : Parts} (admits : Admits parts context.settings.tokens.result last)
    (walks : Walks context stretch pass result after) :
    pass.Sound → after.Precedes last → parts.OnStatements stretch.statements →
      parts.OnStatements result := by
  induction walks with
  | done before pass =>
      intro _ _ holds
      simpa [Stretch.statements] using holds
  | ignored _ _ _ induction =>
      intro sound late holds
      exact induction sound late (by simpa [Stretch.statements] using holds)
  | stripped _ _ _ _ induction | removed _ _ _ induction =>
      intro sound late holds
      refine induction (sound.counted _) late ?_
      simp only [Stretch.statements, Parts.onStatements_append, Parts.OnStatements] at holds ⊢
      exact ⟨holds.1, holds.2.2⟩
  | inPlace _ _ _ _ assembles _ induction =>
      intro sound late holds
      obtain ⟨found, _, rfl, clean, rfl⟩ := placeGuards_eq_ok assembles
      refine induction (sound.counted _) late ?_
      simp only [Stretch.statements, Parts.onStatements_append, Parts.OnStatements] at holds ⊢
      refine ⟨⟨holds.1, ?_⟩, holds.2.2⟩
      refine Parts.onStatements_iff.mpr fun guard member => admits.guard ?_
      exact isPlainGuard_of_mem_map_clause
        (fun condition among => (clean condition among).isPlain none) guard member
  | postcondition _ _ _ assembles names _ induction =>
      intro sound late holds
      obtain ⟨guarded, plain⟩ := sound_of_checkedGuards sound assembles
      obtain ⟨rfl, free, rfl⟩ := makeChecker_eq_ok names
      refine induction (guarded.withPostcondition free plain) late ?_
      simp only [Stretch.statements, Parts.onStatements_append, Parts.OnStatements] at holds ⊢
      exact ⟨holds.1, holds.2.2⟩
  | @invariant _ _ _ _ _ _ checker _ _ _ _ _ _ _ assembles names rest induction =>
      intro sound late holds
      obtain ⟨guarded, plain⟩ := sound_of_checkedGuards sound assembles
      obtain ⟨rfl, free, rfl⟩ := makeChecker_eq_ok names
      have wired : Wired last checker :=
        wired_of_naming guarded free plain
          (((Pass.precedes_counted _ _).trans rest.precedes).trans late)
      refine induction ((guarded.naming free).counted _) late ?_
      have routes := admits.routes wired
      simp only [Stretch.statements, Parts.onStatements_append, Parts.OnStatements] at holds ⊢
      refine ⟨⟨?_, Parts.onStatements_routeAll routes _ holds.1⟩,
        Parts.onStatements_routeAll routes _ holds.2.2, Parts.onStatements_exitCheck routes _⟩
      simp only [Checker.entry, Parts.OnStatements, and_true]
      refine ⟨admits.declaration wired, ?_⟩
      rw [Checker.check, Parts.OnStatement]
      exact routes.check
  | kept _ _ first rest firstInduction induction | other _ first rest firstInduction induction =>
      intro sound late holds
      simp only [Stretch.statements, Parts.onStatements_append, Parts.OnStatements,
        Parts.OnStatement, and_true] at holds firstInduction induction
      exact induction (first.sound sound) late
        ⟨⟨holds.1, firstInduction sound (rest.precedes.trans late) holds.2.1⟩, holds.2.2⟩
  | inlined _ _ _ induction =>
      intro sound late holds
      refine induction (sound.counted _) late ?_
      simp only [Stretch.statements, Parts.onStatements_append, Parts.OnStatements,
        Parts.onStatements_unlabeled] at holds ⊢
      exact ⟨holds.1, holds.2.1, holds.2.2⟩
  | unlabeled _ first rest firstInduction induction =>
      intro sound late holds
      simp only [Stretch.statements, Parts.onStatements_append, Parts.OnStatements,
        and_true] at holds firstInduction induction
      exact induction (first.sound sound) late
        ⟨⟨holds.1, firstInduction sound (rest.precedes.trans late) holds.2.1⟩, holds.2.2⟩
  | simple _ =>
      intro _ _ holds
      exact holds
  | block _ induction | labeled _ induction | wrapped _ _ induction =>
      intro sound late holds
      simp only [Stretch.statements, Parts.OnStatements, Parts.OnStatement, and_true,
        List.nil_append] at holds induction ⊢
      exact induction sound late holds
  | branch _ induction =>
      intro sound late holds
      simp only [Stretch.statements, Parts.OnStatements, Parts.OnStatement, and_true]
        at holds induction ⊢
      exact ⟨holds.1, induction sound late holds.2.1, holds.2.2⟩
  | branches first second firstInduction secondInduction =>
      intro sound late holds
      simp only [Stretch.statements, Parts.OnStatements, Parts.OnStatement, Parts.OnAlternate,
        and_true] at holds firstInduction secondInduction ⊢
      exact ⟨holds.1, firstInduction sound (second.precedes.trans late) holds.2.1,
        secondInduction (first.sound sound) late holds.2.2⟩
  | whileLoop _ induction | doWhileLoop _ induction =>
      intro sound late holds
      simp only [Stretch.statements, Parts.OnStatements, Parts.OnStatement, and_true]
        at holds induction ⊢
      exact ⟨holds.1, induction sound late holds.2⟩
  | forLoop _ induction =>
      intro sound late holds
      simp only [Stretch.statements, Parts.OnStatements, Parts.OnStatement, and_true]
        at holds induction ⊢
      exact ⟨holds.1, holds.2.1, holds.2.2.1, induction sound late holds.2.2.2⟩
  | bare _ _ induction => exact induction

end Covenant.Contract
