import Covenant.Proofs.Quiet
import Covenant.Proofs.Routed
import Covenant.Proofs.Settled

/-!
# What a walk weaves

A walk that keeps contracts and one that removes them go over the same
statements in step: they meet the same labels, and what the first one makes is
woven from what the second one makes.  All that is asked for is that the
contracts which survive state no calls.

The statements that the first walk has not come to yet are those of the second
one, with their returns passing through checkers, and after them the checks at
the end of invariants.
-/

namespace Covenant.Contract

open Machine
open Woven (Passes itself)

/-- The same settings, but contracts are removed. -/
def Settings.stripping (settings : Settings) : Settings :=
  { settings with stripsContracts := true }

/-- A context in which contracts are removed. -/
def Context.stripping (context : Context) : Context :=
  { context with settings := context.settings.stripping }

/-! ## Checks without calls -/

/-- What a pass has remembered evaluates no calls. -/
structure Pass.Mute (pass : Pass) : Prop where
  captured : pass.capture.InitsArePlain false
  checkers : ∀ checker ∈ pass.postconditions, ∀ guard ∈ checker.guards, IsPlainGuard false guard

theorem Pass.Mute.withPostcondition
    {pass : Pass} (mute : pass.Mute) {checker : Checker}
    (plain : ∀ guard ∈ checker.guards, IsPlainGuard false guard) :
    ((pass.naming checker.name).withPostcondition checker).Mute where
  captured := mute.captured
  checkers := by
    intro other member
    rcases List.mem_append.mp member with old | new
    · exact mute.checkers other old
    · rw [List.mem_singleton.mp new]
      exact plain

/-- Guards in the place of a contract without calls evaluate none. -/
theorem plain_of_placeGuards
    {context : Context} {kind : Kind} {body : Statement} {guards : List Statement}
    {pass after : Pass} (place : kind = .precondition ∨ kind = .assertion)
    (free : context.StatesNoCalls kind body)
    {change : Option Expression → Option Expression}
    (outcome : placeGuards ⟨kind, context.owner⟩ (mapReturns change body) pass =
      .ok (guards, after)) :
    (∀ guard ∈ guards, IsPlainGuard false guard) ∧
      after = pass.counted (.addGuards guards.length) := by
  obtain ⟨found, states, rfl, clean, rfl⟩ := placeGuards_eq_ok outcome
  have marker : context.markerFor kind = none := by
    rcases place with rfl | rfl <;> rfl
  have plain := free.isPlain (conditions_of_mapReturns body states) clean
  rw [marker] at plain
  exact ⟨isPlainGuard_of_mem_map_clause plain, rfl⟩

/-- Guards of a checker for a contract without calls evaluate none. -/
theorem mute_of_checkedGuards
    {context : Context} {kind : Kind} {body : Statement} {guards : List Statement}
    {pass after : Pass} (place : kind = .postcondition ∨ kind = .invariant)
    (free : context.StatesNoCalls kind body)
    {change : Option Expression → Option Expression} (mute : pass.Mute)
    (outcome : checkedGuards context ⟨kind, context.owner⟩ (mapReturns change body) pass =
      .ok (guards, after)) :
    (∀ guard ∈ guards, IsPlainGuard false guard) ∧ after.Mute := by
  obtain ⟨found, captured, capture, states, clean, _, rfl, rfl, _, plain⟩ :=
    checkedGuards_eq_ok outcome
  have marker : context.markerFor kind = context.marker? := by
    rcases place with rfl | rfl <;> rfl
  have plainly := free.isPlain (conditions_of_mapReturns body states) clean
  rw [marker] at plainly
  obtain ⟨capturedPlain, initsPlain⟩ := plain false plainly
  exact ⟨isPlainGuard_of_mem_map_clause capturedPlain, initsPlain mute.captured, mute.checkers⟩

/-! ## Walking in step -/

/-- The checks of checkers as statements. -/
def checksOf (checkers : List Checker) : List Statement :=
  checkers.map Checker.check

theorem routeAll_append (checker : Checker) (first second : List Statement) :
    checker.routeAll (first ++ second) = checker.routeAll first ++ checker.routeAll second := by
  induction first with
  | nil => rw [List.nil_append, Checker.routeAll, List.nil_append]
  | cons statement rest induction =>
      rw [List.cons_append, Checker.routeAll, Checker.routeAll, induction, List.cons_append]

theorem routeAll_checksOf (checker : Checker) (checkers : List Checker) :
    checker.routeAll (checksOf checkers) = checksOf checkers := by
  induction checkers with
  | nil => rw [checksOf, List.map_nil, Checker.routeAll]
  | cons first rest induction =>
      rw [checksOf, List.map_cons, ← checksOf, Checker.routeAll, induction, Checker.check,
        Checker.route]
      all_goals simp

theorem exitCheck_eq_checksOf (checker : Checker) (statements : List Statement) :
    ∃ checkers ⊆ [checker], checker.exitCheck statements = checksOf checkers := by
  unfold Checker.exitCheck
  split
  · exact ⟨[], List.nil_subset _, rfl⟩
  · exact ⟨[checker], List.Subset.refl _, rfl⟩

/-- A labeled statement that is not walked over yet is one of the source. -/
theorem exists_of_labeled_cons
    {change : Option Expression → Option Expression} {checkers : List Checker} {label : String}
    {body : Statement} {tail others : List Statement}
    (equal : .labeled label body :: tail = mapReturnsOfAll change others ++ checksOf checkers) :
    ∃ inner rest, others = .labeled label inner :: rest ∧ body = mapReturns change inner ∧
      tail = mapReturnsOfAll change rest ++ checksOf checkers := by
  cases others with
  | nil =>
      rw [mapReturnsOfAll, List.nil_append] at equal
      cases checkers <;> simp [checksOf, Checker.check] at equal
  | cons statement rest =>
      rw [mapReturnsOfAll, List.cons_append, List.cons.injEq] at equal
      obtain ⟨inner, rfl, body⟩ := exists_of_mapReturns_labeled change equal.1
      exact ⟨inner, rest, rfl, body, equal.2⟩

/-- A branch whose returns are changed is a branch. -/
theorem exists_of_mapReturns_branch
    {change : Option Expression → Option Expression} {test : Expression}
    {consequent other : Statement}
    (equal : .branch test consequent none = mapReturns change other) :
    ∃ inner, other = .branch test inner none ∧ consequent = mapReturns change inner := by
  cases other with
  | branch condition inner alternate =>
      cases alternate <;> simp_all [mapReturns, mapReturnsOfAlternate]
  | _ => simp [mapReturns] at equal

/-- The same of a branch with an alternate. -/
theorem exists_of_mapReturns_branches
    {change : Option Expression → Option Expression} {test : Expression}
    {consequent alternate other : Statement}
    (equal : .branch test consequent (some alternate) = mapReturns change other) :
    ∃ inner second, other = .branch test inner (some second) ∧
      consequent = mapReturns change inner ∧ alternate = mapReturns change second := by
  cases other with
  | branch condition inner alternate =>
      cases alternate <;> simp_all [mapReturns, mapReturnsOfAlternate]
  | _ => simp [mapReturns] at equal

/-- A label that the walk does not know is an ordinary one. -/
theorem Context.role_of_not_recognizes
    {context : Context} {label : String} {body : Statement}
    (unknown : context.recognizes (.labeled label body) = false) :
    context.settings.roleOf label = .other := by
  cases role : context.settings.roleOf label <;>
    simp_all [Context.recognizes, Statement.label?]

/-- A walk leaves a simple statement alone. -/
theorem eq_of_walks_simple
    {context : Context} {statement walked : Statement} {pass after : Pass}
    (simple : isSimple statement = true)
    (walks : Walks context (.inside statement) pass [walked] after) :
    walked = statement ∧ after = pass := by
  have outcome := Stretch.perform_inside_eq_ok.mp walks.perform
  rw [walkChildren_simple context simple] at outcome
  cases outcome
  exact ⟨rfl, rfl⟩

section

variable {code : Correspondence}

/-- What a walk that removes contracts makes in step with another walk. -/
def Stretch.Weaves (code : Correspondence) (context : Context) (result : List Statement)
    (after : Pass) : Stretch → Prop
  | list before rest =>
    ∀ change checkers others remaining (start : Pass), Passes code change →
      (∀ checker ∈ checkers, code.checker checker.name) →
        Woven.OnStatements code before others →
          rest = mapReturnsOfAll change remaining ++ checksOf checkers →
            QuietAll context (itself code) remaining →
              after.Mute ∧ ∃ walked final,
                Walks context.stripping (.list others remaining) start walked final ∧
                  Woven.OnStatements code result walked
  | inside statement =>
    ∀ change other (start : Pass), Passes code change → context.recognizes other = false →
      statement = mapReturns change other → Quiet context (itself code) other →
        after.Mute ∧ ∃ walked final,
          Walks context.stripping (.inside other) start [walked] final ∧
            ∀ made ∈ result, Woven.OnStatement code made walked
  | slot statement =>
    ∀ change other (start : Pass), Passes code change → statement = mapReturns change other →
      Quiet context (itself code) other →
        after.Mute ∧ ∃ walked final,
          Walks context.stripping (.slot other) start [walked] final ∧
            ∀ made ∈ result, Woven.OnStatement code made walked

/-- What a walk that keeps contracts makes is woven from what one makes that removes them. -/
theorem Walks.weaves
    {context : Context} {stretch : Stretch} {pass after last : Pass} {result : List Statement}
    (helpers : ∀ name ∈ last.work.helperNames, code.checker name)
    (keeps : context.settings.stripsContracts = false)
    (walks : Walks context stretch pass result after) :
    after.Precedes last → pass.Mute → stretch.Weaves code context result after := by
  induction walks with
  | done before pass =>
      intro _ mute change checkers others remaining start _ _ woven equal _
      cases remaining with
      | nil => exact ⟨mute, others, start, .done others start, woven⟩
      | cons statement rest =>
          rw [mapReturnsOfAll] at equal
          cases equal
  | ignored role ignores _ induction =>
      intro late mute change checkers others remaining start passes named woven equal quiet
      obtain ⟨inner, tail, rfl, rfl, rfl⟩ := exists_of_labeled_cons equal
      rw [QuietAll, Quiet] at quiet
      simp only [role, ignores, if_true] at quiet
      obtain ⟨final, walked, finish, stripped, related⟩ :=
        induction late mute change checkers _ tail start passes named
          (woven.concat (.labeled (Woven.onStatement_mapReturns passes inner quiet.1))) rfl quiet.2
      exact ⟨final, walked, finish, .ignored role ignores stripped, related⟩
  | stripped _ _ strips _ _ =>
      rw [keeps] at strips
      cases strips
  | inPlace role counts _ place assembles _ induction =>
      intro late mute change checkers others remaining start passes named woven equal quiet
      obtain ⟨inner, tail, rfl, rfl, rfl⟩ := exists_of_labeled_cons equal
      rw [QuietAll, Quiet] at quiet
      simp only [role, counts, Bool.false_eq_true, if_false] at quiet
      obtain ⟨plain, rfl⟩ := plain_of_placeGuards place quiet.1 assembles
      obtain ⟨final, walked, finish, stripped, related⟩ :=
        induction late ⟨mute.captured, mute.checkers⟩ change checkers others tail _ passes named
          (woven.follow fun guard member => .guard (plain guard member)) rfl quiet.2
      exact ⟨final, walked, finish, .stripped role counts rfl stripped, related⟩
  | postcondition role counts _ assembles names _ induction =>
      intro late mute change checkers others remaining start passes named woven equal quiet
      obtain ⟨inner, tail, rfl, rfl, rfl⟩ := exists_of_labeled_cons equal
      rw [QuietAll, Quiet] at quiet
      simp only [role, counts, Bool.false_eq_true, if_false] at quiet
      obtain ⟨plain, guarded⟩ := mute_of_checkedGuards (.inl rfl) quiet.1 mute assembles
      obtain ⟨rfl, _, rfl⟩ := makeChecker_eq_ok names
      obtain ⟨final, walked, finish, stripped, related⟩ :=
        induction late (guarded.withPostcondition plain) change checkers others tail _ passes named
          woven rfl quiet.2
      exact ⟨final, walked, finish, .stripped role counts rfl stripped, related⟩
  | @invariant before tail' _ _ _ _ checker _ _ _ _ role counts _ assembles names rest induction =>
      intro late mute change checkers others remaining start passes named woven equal quiet
      obtain ⟨inner, tail, rfl, rfl, rfl⟩ := exists_of_labeled_cons equal
      rw [QuietAll, Quiet] at quiet
      simp only [role, counts, Bool.false_eq_true, if_false] at quiet
      obtain ⟨plain, guarded⟩ := mute_of_checkedGuards (.inr rfl) quiet.1 mute assembles
      obtain ⟨rfl, _, rfl⟩ := makeChecker_eq_ok names
      have own : code.checker checker.name :=
        helpers _ ((rest.precedes.trans late).work.helpers List.mem_cons_self)
      obtain ⟨ends, among, exits⟩ := exitCheck_eq_checksOf checker
        (checker.entry context.settings.tokens.result ++ checker.routeAll before ++
          checker.routeAll (mapReturnsOfAll change tail ++ checksOf checkers))
      have entered : Woven.OnStatements code
          (checker.entry context.settings.tokens.result ++ checker.routeAll before) others := by
        refine (Woven.onStatements_routeAll own woven).precede fun statement member => ?_
        rcases List.mem_cons.mp member with rfl | second
        · exact .declaration _ own plain
        · rw [List.mem_singleton.mp second]
          exact .check own
      have owned : ∀ other ∈ checkers ++ ends, code.checker other.name := by
        intro other member
        rcases List.mem_append.mp member with old | new
        · exact named other old
        · rw [List.mem_singleton.mp (among new)]
          exact own
      have ahead :
          checker.routeAll (mapReturnsOfAll change tail ++ checksOf checkers) ++
              checker.exitCheck
                (checker.entry context.settings.tokens.result ++ checker.routeAll before ++
                  checker.routeAll (mapReturnsOfAll change tail ++ checksOf checkers)) =
            mapReturnsOfAll (checker.passing change) tail ++ checksOf (checkers ++ ends) := by
        rw [exits, routeAll_append, routeAll_mapReturns, routeAll_checksOf, List.append_assoc,
          checksOf, checksOf, checksOf, List.map_append]
      obtain ⟨final, walked, finish, stripped, related⟩ :=
        induction late ⟨guarded.captured, guarded.checkers⟩ (checker.passing change)
          (checkers ++ ends) others tail _ (passes.passing own) owned entered ahead quiet.2
      exact ⟨final, walked, finish, .stripped role counts rfl stripped, related⟩
  | kept role action _ rest firstInduction induction =>
      intro late mute change checkers others remaining start passes named woven equal quiet
      obtain ⟨inner, tail, rfl, rfl, rfl⟩ := exists_of_labeled_cons equal
      rw [QuietAll, Quiet] at quiet
      simp only [role] at quiet
      obtain ⟨mute, walked, between, slot, made⟩ :=
        firstInduction (rest.precedes.trans late) mute change inner start passes rfl
          (quiet.1 (by simp [action]))
      obtain ⟨final, result, finish, stripped, related⟩ :=
        induction late mute change checkers _ tail between passes named
          (woven.concat (.labeled (made _ List.mem_cons_self))) rfl quiet.2
      exact ⟨final, result, finish, .kept role action slot stripped, related⟩
  | removed role action _ induction =>
      intro late mute change checkers others remaining start passes named woven equal quiet
      obtain ⟨inner, tail, rfl, rfl, rfl⟩ := exists_of_labeled_cons equal
      rw [QuietAll] at quiet
      obtain ⟨final, walked, finish, stripped, related⟩ :=
        induction late ⟨mute.captured, mute.checkers⟩ change checkers others tail _ passes named
          woven rfl quiet.2
      exact ⟨final, walked, finish, .removed role action stripped, related⟩
  | inlined role action _ induction =>
      intro late mute change checkers others remaining start passes named woven equal quiet
      obtain ⟨inner, tail, rfl, rfl, rfl⟩ := exists_of_labeled_cons equal
      rw [QuietAll, Quiet] at quiet
      simp only [role] at quiet
      obtain ⟨final, walked, finish, stripped, related⟩ :=
        induction late ⟨mute.captured, mute.checkers⟩ change checkers others _ _ passes named
          woven (by rw [unlabeled_mapReturns, mapReturnsOfAll_append, List.append_assoc])
          (quietAll_append.mpr ⟨quietAll_unlabeled (quiet.1 (by simp [action])), quiet.2⟩)
      exact ⟨final, walked, finish, .inlined role action stripped, related⟩
  | other role _ rest firstInduction induction =>
      intro late mute change checkers others remaining start passes named woven equal quiet
      obtain ⟨inner, tail, rfl, rfl, rfl⟩ := exists_of_labeled_cons equal
      rw [QuietAll, Quiet] at quiet
      simp only [role] at quiet
      obtain ⟨mute, walked, between, slot, made⟩ :=
        firstInduction (rest.precedes.trans late) mute change inner start passes rfl quiet.1
      obtain ⟨final, result, finish, stripped, related⟩ :=
        induction late mute change checkers _ tail between passes named
          (woven.concat (.labeled (made _ List.mem_cons_self))) rfl quiet.2
      exact ⟨final, result, finish, .other role slot stripped, related⟩
  | @unlabeled _ _ _ statement walked pass _ _ plain first rest firstInduction induction =>
      intro late mute change checkers others remaining start passes named woven equal quiet
      cases remaining with
      | cons other tail =>
          rw [mapReturnsOfAll, List.cons_append, List.cons.injEq] at equal
          obtain ⟨rfl, rfl⟩ := equal
          rw [label?_mapReturns] at plain
          rw [QuietAll] at quiet
          obtain ⟨mute, walked, between, inside, made⟩ :=
            firstInduction (rest.precedes.trans late) mute change other start passes
              (by simp [Context.recognizes, plain]) rfl quiet.1
          obtain ⟨final, result, finish, stripped, related⟩ :=
            induction late mute change checkers _ tail between passes named
              (woven.concat (made _ List.mem_cons_self)) rfl quiet.2
          exact ⟨final, result, finish, .unlabeled plain inside stripped, related⟩
      | nil =>
          -- Only the checks at the end are left, and they are no statements of the other walk.
          rw [mapReturnsOfAll, List.nil_append] at equal
          cases checkers with
          | nil => cases equal
          | cons checker more =>
              rw [checksOf, List.map_cons, ← checksOf, List.cons.injEq] at equal
              obtain ⟨rfl, rfl⟩ := equal
              obtain ⟨rfl, rfl⟩ := eq_of_walks_simple rfl first
              refine induction late mute change more others [] start passes
                (fun other member => named other (List.mem_cons_of_mem _ member)) ?_ rfl quiet
              refine woven.follow fun statement member => ?_
              rw [List.mem_singleton.mp member]
              exact .check (named checker List.mem_cons_self)
  | simple simple =>
      intro _ mute change other start passes _ equal quiet
      subst equal
      rw [isSimple_mapReturns] at simple
      refine ⟨mute, other, start, .simple simple, fun made member => ?_⟩
      rw [List.mem_singleton.mp member]
      exact Woven.onStatement_mapReturns passes other ((quiet_of_isSimple simple).mp quiet)
  | block _ induction =>
      intro late mute change other start passes _ equal quiet
      cases other <;> simp [mapReturns] at equal
      subst equal
      rw [Quiet] at quiet
      obtain ⟨final, walked, finish, stripped, related⟩ :=
        induction late mute change [] [] _ start passes (by simp) .nil (by simp [checksOf]) quiet
      refine ⟨final, _, finish, .block stripped, fun made member => ?_⟩
      rw [List.mem_singleton.mp member]
      exact .block related
  | labeled _ induction =>
      intro late mute change other start passes unknown equal quiet
      obtain ⟨inner, rfl, rfl⟩ := exists_of_mapReturns_labeled change equal
      have role := Context.role_of_not_recognizes unknown
      rw [Quiet] at quiet
      simp only [role] at quiet
      obtain ⟨final, walked, finish, stripped, related⟩ :=
        induction late mute change _ start passes rfl quiet
      refine ⟨final, _, finish, .labeled stripped, fun made member => ?_⟩
      rw [List.mem_singleton.mp member]
      exact .labeled (related _ List.mem_cons_self)
  | branch _ induction =>
      intro late mute change other start passes _ equal quiet
      obtain ⟨inner, rfl, rfl⟩ := exists_of_mapReturns_branch equal
      rw [Quiet, QuietAlternate] at quiet
      obtain ⟨final, walked, finish, stripped, related⟩ :=
        induction late mute change _ start passes rfl quiet.2.1
      refine ⟨final, _, finish, .branch stripped, fun made member => ?_⟩
      rw [List.mem_singleton.mp member]
      exact .branch quiet.1 (related _ List.mem_cons_self) .none
  | branches _ second firstInduction secondInduction =>
      intro late mute change other start passes _ equal quiet
      obtain ⟨inner, alternate, rfl, rfl, rfl⟩ := exists_of_mapReturns_branches equal
      rw [Quiet, QuietAlternate] at quiet
      obtain ⟨between, walked, half, first, related⟩ :=
        firstInduction (second.precedes.trans late) mute change _ start passes rfl quiet.2.1
      obtain ⟨final, walkedToo, finish, stripped, relatedToo⟩ :=
        secondInduction late between change _ half passes rfl quiet.2.2
      refine ⟨final, _, finish, .branches first stripped, fun made member => ?_⟩
      rw [List.mem_singleton.mp member]
      exact .branch quiet.1 (related _ List.mem_cons_self) (.some (relatedToo _ List.mem_cons_self))
  | whileLoop _ induction =>
      intro late mute change other start passes _ equal quiet
      cases other <;> simp [mapReturns] at equal
      obtain ⟨rfl, rfl⟩ := equal
      rw [Quiet] at quiet
      obtain ⟨final, walked, finish, stripped, related⟩ :=
        induction late mute change _ start passes rfl quiet.2
      refine ⟨final, _, finish, .whileLoop stripped, fun made member => ?_⟩
      rw [List.mem_singleton.mp member]
      exact .whileLoop quiet.1 (related _ List.mem_cons_self)
  | doWhileLoop _ induction =>
      intro late mute change other start passes _ equal quiet
      cases other <;> simp [mapReturns] at equal
      obtain ⟨rfl, rfl⟩ := equal
      rw [Quiet] at quiet
      obtain ⟨final, walked, finish, stripped, related⟩ :=
        induction late mute change _ start passes rfl quiet.2
      refine ⟨final, _, finish, .doWhileLoop stripped, fun made member => ?_⟩
      rw [List.mem_singleton.mp member]
      exact .doWhileLoop (related _ List.mem_cons_self) quiet.1
  | forLoop _ induction =>
      intro late mute change other start passes _ equal quiet
      cases other <;> simp [mapReturns] at equal
      obtain ⟨rfl, rfl, rfl, rfl⟩ := equal
      rw [Quiet] at quiet
      obtain ⟨final, walked, finish, stripped, related⟩ :=
        induction late mute change _ start passes rfl quiet.2.2.2
      refine ⟨final, _, finish, .forLoop stripped, fun made member => ?_⟩
      rw [List.mem_singleton.mp member]
      exact .forLoop (Woven.onLoopInit_itself quiet.1) (Woven.onOptional_itself quiet.2.1)
        (Woven.onOptional_itself quiet.2.2.1) (related _ List.mem_cons_self)
  | wrapped recognized _ induction =>
      intro late mute change other start passes equal quiet
      subst equal
      rw [recognizes_mapReturns] at recognized
      obtain ⟨final, walked, finish, stripped, related⟩ :=
        induction late mute change [] [] [other] start passes (by simp) .nil
          (by simp [checksOf, mapReturnsOfAll]) ⟨quiet, trivial⟩
      refine ⟨final, _, finish, .wrapped recognized stripped, fun made member => ?_⟩
      rw [List.mem_singleton.mp member]
      exact .block related
  | bare unknown _ induction =>
      intro late mute change other start passes equal quiet
      have bare := unknown
      rw [equal, recognizes_mapReturns] at bare
      obtain ⟨final, walked, finish, stripped, related⟩ :=
        induction late mute change other start passes bare equal quiet
      exact ⟨final, walked, finish, .bare bare stripped, related⟩

end

end Covenant.Contract
