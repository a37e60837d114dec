import Covenant.Proofs.Governed

/-!
# Governing invariants in order

The invariants that govern a return of a source are among those that survive,
in source order, and each of them governs it once.
-/

namespace Covenant.Contract

namespace Reading

variable {α β : Type} {whole first second : List α} {reading left right : Reading α}

/-- What governs, in a reading, is in order among given ones. -/
structure Among (whole : List α) (reading : Reading α) : Prop where
  governors : reading.governors.Sublist whole
  returns : ∀ given ∈ reading.returns, given.governors.Sublist whole

theorem Among.empty (whole : List α) : Among whole empty :=
  ⟨List.nil_sublist _, nofun⟩

theorem Among.returning (whole : List α) (argument : Option Expression) :
    Among whole (returning argument) where
  governors := List.nil_sublist _
  returns given member := by
    rw [List.mem_singleton.mp member]
    exact List.nil_sublist _

theorem Among.governing (governor : α) : Among [governor] (governing governor) :=
  ⟨List.Sublist.refl _, nofun⟩

theorem Among.enclosed (among : Among whole reading) : Among whole reading.enclosed :=
  ⟨List.nil_sublist _, among.returns⟩

theorem Among.follow (before : Among first left) (after : Among second right) :
    Among (first ++ second) (left.follow right) where
  governors := before.governors.append after.governors
  returns given member := by
    rcases List.mem_append.mp member with early | late
    · obtain ⟨inner, inside, rfl⟩ := List.mem_map.mp early
      exact (before.returns inner inside).append after.governors
    · obtain ⟨inner, inside, rfl⟩ := List.mem_map.mp late
      rw [GovernedReturn.within, List.append_nil]
      exact before.governors.append (after.returns inner inside)

theorem Among.map (among : Among whole reading) (change : α → β) :
    Among (whole.map change) (reading.map change) where
  governors := among.governors.map change
  returns given member := by
    obtain ⟨inner, inside, rfl⟩ := List.mem_map.mp member
    exact (among.returns inner inside).map change

end Reading

section

variable {settings : Settings}

/-- The positions of the invariants that survive in a statement, counted from a given one. -/
def positions (settings : Settings) (position : Nat) (stated : List Statement) : List Nat :=
  List.range' position (countStated settings .invariant stated)

theorem positions_append (position : Nat) (first second : List Statement) :
    positions settings position (first ++ second) =
      positions settings position first ++
        positions settings (position + countStated settings .invariant first) second := by
  rw [positions, positions, positions, countStated_append, List.range'_append_1]

theorem positions_congr
    {position : Nat} {first second : List Statement}
    (same : (stated settings .invariant).ofStatements first =
      (stated settings .invariant).ofStatements second) :
    positions settings position first = positions settings position second := by
  rw [positions, positions, countStated, countStated, same]

mutual

/-- The invariants that govern the returns of a statement are in order among those in it. -/
theorem among_readSource (position : Nat) (spliced : Bool) : (statement : Statement) →
    (readSource settings position spliced statement).Among (positions settings position [statement])
  | .giveBack argument => by
      rw [readSource]
      exact .returning _ argument
  | .block statements => by
      have inner := among_readSourceAll position statements
      have same : positions settings position [.block statements] =
          positions settings position statements := by
        refine positions_congr ?_
        rw [Collection.ofStatements_singleton, Collection.ofStatement]
      rw [readSource, same]
      split
      · exact inner
      · exact inner.enclosed
  | .labeled label body => by
      have inner (spliced : Bool) := among_readSource position spliced body
      rw [readSource]
      split
      next role =>
        have single : positions settings position [.labeled label body] = [position] := by
          rw [positions, countStated_singleton, stated_of_contract role, if_pos rfl]
          rfl
        rw [single]
        exact .governing position
      next => exact .empty _
      next role =>
        have same (action : settings.actionFor label ≠ .remove) :
            positions settings position [.labeled label body] =
              positions settings position [body] := by
          refine positions_congr ?_
          rw [Collection.ofStatements_singleton, Collection.ofStatements_singleton,
            stated_of_entered (.inr ⟨role, action⟩)]
        split
        next action =>
          rw [same (by simp [action])]
          exact (inner false).enclosed
        next => exact .empty _
        next action =>
          rw [same (by simp [action])]
          exact inner true
      next role =>
        have same : positions settings position [.labeled label body] =
            positions settings position [body] := by
          refine positions_congr ?_
          rw [Collection.ofStatements_singleton, Collection.ofStatements_singleton,
            stated_of_entered (.inl role)]
        rw [same]
        exact (inner false).enclosed
  | .branch test consequent alternate => by
      have same : positions settings position [.branch test consequent alternate] =
          positions settings position ([consequent] ++ alternate.toList) := by
        refine positions_congr ?_
        cases alternate <;>
          simp [Collection.ofStatements, Collection.ofStatement, Collection.ofAlternate, stated]
      rw [readSource, same, positions_append]
      exact (among_readSource position false consequent).enclosed.follow
        (among_readSourceAlternate _ alternate)
  | .whileLoop test body => by
      have same : positions settings position [.whileLoop test body] =
          positions settings position [body] := by
        refine positions_congr ?_
        simp [Collection.ofStatements, Collection.ofStatement, stated]
      rw [readSource, same]
      exact (among_readSource position false body).enclosed
  | .doWhileLoop body test => by
      have same : positions settings position [.doWhileLoop body test] =
          positions settings position [body] := by
        refine positions_congr ?_
        simp [Collection.ofStatements, Collection.ofStatement, stated]
      rw [readSource, same]
      exact (among_readSource position false body).enclosed
  | .forLoop init test update body => by
      have same : positions settings position [.forLoop init test update body] =
          positions settings position [body] := by
        refine positions_congr ?_
        rw [Collection.ofStatements_singleton, Collection.ofStatements_singleton,
          Collection.ofStatement, stated_ofLoopInit, stated_ofOptional, stated_ofOptional]
        rfl
      rw [readSource, same]
      exact (among_readSource position false body).enclosed
  | .evaluate _ | .bindings _ _ | .declare _ | .raise _ | .breakOut _ | .continueLoop _
  | .empty => by
      rw [readSource]
      exact .empty _

theorem among_readSourceAlternate (position : Nat) : (alternate : Option Statement) →
    (readSourceAlternate settings position alternate).Among
      (positions settings position alternate.toList)
  | none => by
      rw [readSourceAlternate]
      exact .empty _
  | some statement => by
      rw [readSourceAlternate]
      exact (among_readSource position false statement).enclosed

/-- The invariants that govern the returns of a list are in order among those in it. -/
theorem among_readSourceAll (position : Nat) : (statements : List Statement) →
    (readSourceAll settings position statements).Among (positions settings position statements)
  | [] => by
      rw [readSourceAll]
      exact .empty _
  | statement :: rest => by
      have parts : positions settings position (statement :: rest) =
          positions settings position [statement] ++
            positions settings (position + countStated settings .invariant [statement]) rest :=
        positions_append position [statement] rest
      rw [readSourceAll, parts]
      exact (among_readSource position false statement).follow (among_readSourceAll _ rest)

end

/-- Helpers stand in order at the positions of their invariants. -/
theorem map_positions
    {helper : Nat → Checker} {made : List Checker} {statements : List Statement}
    (count : countStated settings .invariant statements = made.length) :
    ∀ {position : Nat}, Assigns helper position made →
      (positions settings position statements).map helper = made := by
  intro position assigns
  rw [positions, count]
  clear count
  induction made generalizing position with
  | nil => rfl
  | cons checker rest induction =>
      rw [List.length_cons, List.range'_succ, List.map_cons, assigns.head, induction assigns.tail]

end

end Covenant.Contract
