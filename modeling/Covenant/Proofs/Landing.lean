import Covenant.Proofs.Evaluation

/-!
# Where jumps land

A jump without a label lands at the innermost loop around it, a `break` with a
label at a statement that carries the label, and a `continue` with a label at a
loop that carries it.  If every jump in the body of a function has such a
target in the function, then a run of the body reaches its end or returns, or
it has no result at all: no jump leaves the function.

A loop carries the label that stands directly in front of it.  It does not
carry those in front of that one, and a `continue` to one of them leaves the
function.
-/

namespace Covenant

/-- Where jumps in a statement may land. -/
structure Targets where
  /-- Whether there is a loop around the statement. -/
  inLoop : Bool
  /-- The labels of the statements around the statement. -/
  labels : List String
  /-- The labels that loops around the statement carry. -/
  loops : List String

namespace Targets

/-- Nothing is around a statement of a function body. -/
def outermost : Targets :=
  ⟨false, [], []⟩

/-- Inside a statement with a label. -/
def under (targets : Targets) (label : String) : Targets :=
  { targets with labels := label :: targets.labels }

/-- Inside a loop that carries labels. -/
def inside (targets : Targets) (carried : List String) : Targets :=
  { targets with inLoop := true, loops := carried ++ targets.loops }

end Targets

mutual

/--
Whether all jumps in a statement land at targets around them.  The labels in
front of the statement are carried by it, if it is a loop: the last one, or all
of them if labels count when they are `stacked`.
-/
def Statement.jumpsLand (stacked : Bool) (targets : Targets) (carried : List String) :
    Statement → Bool
  | .labeled label body =>
    body.jumpsLand stacked (targets.under label) (label :: if stacked then carried else [])
  | .block statements => jumpsLandAll stacked targets statements
  | .branch _ consequent alternate =>
    consequent.jumpsLand stacked targets [] && jumpsLandAlternate stacked targets alternate
  | .whileLoop _ body | .doWhileLoop body _ | .forLoop _ _ _ body =>
    body.jumpsLand stacked (targets.inside carried) []
  | .breakOut none | .continueLoop none => targets.inLoop
  | .breakOut (some label) => targets.labels.contains label
  | .continueLoop (some label) => targets.loops.contains label
  | .evaluate _ | .giveBack _ | .bindings _ _ | .declare _ | .raise _ | .empty => true

/-- The same of a statement that may be missing. -/
def jumpsLandAlternate (stacked : Bool) (targets : Targets) : Option Statement → Bool
  | none => true
  | some statement => statement.jumpsLand stacked targets []

/-- The same of statements in turn. -/
def jumpsLandAll (stacked : Bool) (targets : Targets) : List Statement → Bool
  | [] => true
  | statement :: rest => statement.jumpsLand stacked targets [] && jumpsLandAll stacked targets rest

end

end Covenant

namespace Covenant.Machine

namespace Completion

/-- Control goes on with what follows or to a target, or it leaves the function by a return. -/
def Lands (targets : Targets) : Completion → Prop
  | finished | returned _ => True
  | broken none | continued none => targets.inLoop = true
  | broken (some label) => label ∈ targets.labels
  | continued (some label) => label ∈ targets.loops

variable {targets : Targets} {completion : Completion}

/-- Outside loops and labeled statements no jump has a target. -/
theorem lands_outermost :
    completion.Lands .outermost ↔ completion = finished ∨ ∃ value, completion = returned value := by
  cases completion with
  | finished | returned value => simp [Lands]
  | broken target | continued target => cases target <;> simp [Lands, Targets.outermost]

/-- A labeled statement catches the jumps that leave it by its label. -/
theorem Lands.afterLabel {label : String} (lands : completion.Lands (targets.under label)) :
    (completion.afterLabel label).Lands targets := by
  cases completion with
  | finished | returned value => trivial
  | continued target => cases target <;> exact lands
  | broken target =>
      cases target with
      | none => exact lands
      | some target =>
          rw [Completion.afterLabel]
          split
          · trivial
          case isFalse other => exact (List.mem_cons.mp lands).resolve_left other

/-- A loop catches the jumps without a label and those by a label that it carries. -/
theorem Lands.afterRound {label : Option String} {ending : Completion}
    (lands : completion.Lands (targets.inside label.toList))
    (ends : completion.afterRound label = some ending) : ending.Lands targets := by
  cases completion with
  | finished => cases ends
  | returned value =>
      cases ends
      trivial
  | broken target =>
      cases target with
      | none =>
          cases ends
          trivial
      | some target =>
          rw [Completion.afterRound] at ends
          split at ends
          · cases ends
            trivial
          · cases ends
            exact lands
  | continued target =>
      cases target with
      | none => cases ends
      | some target =>
          rw [Completion.afterRound] at ends
          split at ends
          · cases ends
          case isFalse other =>
            cases ends
            -- The label is not the one the loop carries, so it stands in front of another loop.
            refine (List.mem_append.mp lands).resolve_left fun carried => other ?_
            exact Option.mem_toList.mp carried

end Completion

/-- An action lands all jumps that it ends with. -/
def Action.Lands (targets : Targets) (action : Action Completion) : Prop :=
  ∀ machine completion after, action machine = .ok completion after → completion.Lands targets

namespace Action.Lands

variable {targets : Targets}

theorem pure {completion : Completion} (lands : completion.Lands targets) :
    Action.Lands targets (pure completion) := by
  intro machine result after outcome
  cases outcome
  exact lands

theorem exhausted : Action.Lands targets (throw .exhausted) :=
  nofun

/-- Where an action ends is decided by what comes last in it. -/
theorem bind {α : Type} {first : Action α} {next : α → Action Completion}
    (lands : ∀ result, (next result).Lands targets) : (first >>= next).Lands targets := by
  intro machine completion final outcome
  obtain ⟨result, between, _, rest⟩ := Action.bind_eq_ok.mp outcome
  exact lands result between completion final rest

/-- What goes on with a completion may use where it lands. -/
theorem follow {inner : Targets} {first : Action Completion} {next : Completion → Action Completion}
    (lands : first.Lands inner)
    (goesOn : ∀ completion, completion.Lands inner → (next completion).Lands targets) :
    (first >>= next).Lands targets := by
  intro machine ending final outcome
  obtain ⟨completion, between, begun, rest⟩ := Action.bind_eq_ok.mp outcome
  exact goesOn completion (lands machine completion between begun) between ending final rest

theorem inTurn {execute : Statement → Action Completion} : (statements : List Statement) →
    (∀ statement ∈ statements, (execute statement).Lands targets) →
      (Machine.inTurn execute statements).Lands targets
  | [], _ => .pure trivial
  | statement :: rest, lands => by
      rw [Machine.inTurn]
      refine (lands statement List.mem_cons_self).follow fun completion own => ?_
      cases completion with
      | finished => exact inTurn rest fun other member => lands other (List.mem_cons_of_mem _ member)
      | returned | broken | continued => exact .pure own

end Action.Lands

theorem jumpsLandAll_iff {stacked : Bool} {targets : Targets} {statements : List Statement} :
    jumpsLandAll stacked targets statements = true ↔
      ∀ statement ∈ statements, statement.jumpsLand stacked targets [] = true := by
  induction statements with
  | nil => simp [jumpsLandAll]
  | cons statement rest induction => simp [jumpsLandAll, induction]

/-! ## Runs -/

/-- Statements with jumps that land do so when they are executed with some fuel. -/
structure LandsWith (fuel : Nat) : Prop where
  execute {targets : Targets} {label : Option String} {statement : Statement} (scope : Scope) :
    statement.jumpsLand false targets label.toList = true →
      (execute fuel scope label statement).Lands targets
  executeAll {targets : Targets} {statements : List Statement} (scope : Scope) :
    jumpsLandAll false targets statements = true → (executeAll fuel scope statements).Lands targets
  rounds {targets : Targets} {label : Option String} {body : Statement} (scope : Scope)
    (test step : Option Expression) :
    body.jumpsLand false (targets.inside label.toList) [] = true →
      (rounds fuel scope label test step body).Lands targets

namespace LandsWith

variable {fuel : Nat} {targets : Targets} {label : Option String} {body : Statement}

theorem zero : LandsWith 0 where
  execute _ _ := by
    rw [Machine.execute]
    exact .exhausted
  executeAll _ _ := by
    rw [Machine.executeAll]
    exact .exhausted
  rounds _ _ _ _ := by
    rw [Machine.rounds]
    exact .exhausted

/-- A loop goes on or ends behind a round. -/
theorem afterRound {completion : Completion} {goesOn : Action Completion}
    (lands : completion.Lands (targets.inside label.toList)) (further : goesOn.Lands targets) :
    Action.Lands targets
      (match completion.afterRound label with
        | some ending => pure ending
        | none => goesOn) := by
  cases ends : completion.afterRound label with
  | some ending => exact .pure (lands.afterRound ends)
  | none => exact further

variable (less : LandsWith fuel)

include less

theorem execute_succ {statement : Statement} (scope : Scope)
    (jumps : statement.jumpsLand false targets label.toList = true) :
    (Machine.execute (fuel + 1) scope label statement).Lands targets := by
  cases statement with
  | evaluate expression | bindings kind declarators =>
      rw [Machine.execute]
      exact .bind fun _ => .pure trivial
  | declare function | empty =>
      rw [Machine.execute]
      exact .pure trivial
  | raise argument =>
      rw [Machine.execute]
      exact .bind fun _ => nofun
  | giveBack argument =>
      rw [execute_giveBack]
      exact .bind fun _ => .pure trivial
  | breakOut target =>
      rw [Machine.execute]
      cases target with
      | none => exact .pure jumps
      | some target => exact .pure (List.contains_iff_mem.mp jumps)
  | continueLoop target =>
      rw [Machine.execute]
      cases target with
      | none => exact .pure jumps
      | some target => exact .pure (List.contains_iff_mem.mp jumps)
  | block statements =>
      rw [Machine.execute]
      exact .bind fun inner => less.executeAll inner jumps
  | labeled own body =>
      rw [Machine.execute]
      have lands := @LandsWith.execute _ less _ (some own) body scope jumps
      exact lands.follow fun completion own => .pure own.afterLabel
  | branch test consequent alternate =>
      rw [Statement.jumpsLand, Bool.and_eq_true] at jumps
      rw [execute_branch]
      refine .bind fun chosen => ?_
      split
      · exact less.execute scope jumps.1
      · cases alternate with
        | none => exact .pure trivial
        | some alternate => exact less.execute scope jumps.2
  | whileLoop test body =>
      rw [Machine.execute]
      exact less.rounds scope _ _ jumps
  | doWhileLoop body test =>
      rw [Machine.execute]
      refine (@LandsWith.execute _ less _ none body scope jumps).follow fun completion lands => ?_
      exact afterRound lands (less.rounds scope _ _ jumps)
  | forLoop init test step body =>
      rw [execute_forLoop]
      exact .bind fun inner => .bind fun _ => less.rounds inner _ _ jumps

theorem executeAll_succ {statements : List Statement} (scope : Scope)
    (jumps : jumpsLandAll false targets statements = true) :
    (Machine.executeAll (fuel + 1) scope statements).Lands targets := by
  rw [Machine.executeAll]
  refine .bind fun _ => .inTurn statements fun statement member => ?_
  exact less.execute scope (jumpsLandAll_iff.mp jumps statement member)

theorem rounds_succ (scope : Scope) (test step : Option Expression)
    (jumps : body.jumpsLand false (targets.inside label.toList) [] = true) :
    (Machine.rounds (fuel + 1) scope label test step body).Lands targets := by
  rw [Machine.rounds_succ]
  refine .bind fun goesOn => ?_
  split
  · refine (@LandsWith.execute _ less _ none body scope jumps).follow fun completion lands => ?_
    exact afterRound lands (.bind fun _ => less.rounds scope test step jumps)
  · exact .pure trivial

end LandsWith

/-- Jumps land where they have targets, with any fuel. -/
theorem landsWith : (fuel : Nat) → LandsWith fuel
  | 0 => .zero
  | fuel + 1 => ⟨(landsWith fuel).execute_succ, (landsWith fuel).executeAll_succ,
      (landsWith fuel).rounds_succ⟩

/--
If every jump in a function body has a target there, loops carrying the labels
directly in front of them, then the body is left at its end or by a return.
-/
theorem finished_or_returned {fuel : Nat} {scope : Scope} {statements : List Statement}
    {machine after : Machine} {completion : Completion}
    (jumps : jumpsLandAll false .outermost statements = true)
    (outcome : executeAll fuel scope statements machine = .ok completion after) :
    completion = .finished ∨ ∃ value, completion = .returned value :=
  Completion.lands_outermost.mp ((landsWith fuel).executeAll scope jumps machine completion after
    outcome)

/-- A loop with two labels that goes on by the first one. -/
def stackedLabels : List Statement :=
  [.labeled "a" (.labeled "b" (.whileLoop (.literal (.bool true)) (.continueLoop (some "a"))))]

/-- A jump to a label in front of the label of a loop leaves the function. -/
theorem continued_of_stackedLabels (fuel : Nat) (scope : Scope) (machine : Machine) :
    jumpsLandAll true .outermost stackedLabels = true ∧
      executeAll (fuel + 6) scope stackedLabels machine = .ok (.continued (some "a")) machine :=
  ⟨by decide, rfl⟩

end Covenant.Machine
