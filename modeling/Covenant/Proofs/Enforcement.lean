import Covenant.Proofs.Routing

/-!
# Postconditions at the end of a run

The statements of a function with postconditions declare the checkers, and
then run as the statements without the postconditions do, up to their end.
Where they return a value or fall off their end, every checker is then called
in order; where a jump leaves them, nothing more happens.
-/

namespace Covenant.Machine

/-- The value that a function gives back if its statements end so; a jump gives none. -/
def Completion.exit? : Completion → Option Value
  | .returned value => some value
  | .finished => some .undefined
  | .broken _ | .continued _ => none

theorem inTurn_append_eq_ok
    {execute : Statement → Action Completion} {last : List Statement} {after : Machine}
    {completion : Completion} :
    {first : List Statement} → {machine : Machine} →
      (inTurn execute (first ++ last) machine = .ok completion after ↔
        (∃ between,
          inTurn execute first machine = .ok .finished between ∧
            inTurn execute last between = .ok completion after) ∨
          (completion ≠ .finished ∧ inTurn execute first machine = .ok completion after))
  | [], machine => by
      constructor
      · intro outcome
        exact .inl ⟨machine, rfl, outcome⟩
      · rintro (⟨between, first, outcome⟩ | ⟨unfinished, first⟩)
        · cases first
          exact outcome
        · cases first
          exact (unfinished rfl).elim
  | statement :: rest, machine => by
      rw [List.cons_append, inTurn, inTurn, Action.bind_apply, Action.bind_apply]
      cases begun : execute statement machine with
      | error stop final => simp
      | ok step between =>
          cases step with
          | finished => exact inTurn_append_eq_ok
          | returned value | broken label | continued label =>
              constructor
              · intro outcome
                cases outcome
                exact .inr ⟨by simp, rfl⟩
              · rintro (⟨between, first, _⟩ | ⟨_, first⟩)
                · cases first
                · exact first

/-- Statements in a row are finished in turn. -/
theorem inTurn_append_eq_finished
    {execute : Statement → Action Completion} {first last : List Statement}
    {machine after : Machine} :
    inTurn execute (first ++ last) machine = .ok .finished after ↔
      ∃ between,
        inTurn execute first machine = .ok .finished between ∧
          inTurn execute last between = .ok .finished after := by
  rw [inTurn_append_eq_ok]
  exact or_iff_left fun left => left.1 rfl

theorem hoist_append (scope : Scope) (first last : List Statement) :
    hoist scope (first ++ last) = (do hoist scope first; hoist scope last) :=
  List.forM_append

end Covenant.Machine

namespace Covenant.Contract

open Machine

/-! ## One postcondition -/

/-- What follows at the end of a function: a check of the value that it gives back. -/
def Exits (check : Value → Machine → Machine → Prop) (completion : Completion)
    (machine after : Machine) : Prop :=
  match completion.exit? with
  | some value => check value machine after
  | none => after = machine

/-- Control never falls off statements that end in a return. -/
theorem inTurn_of_endsInReturn
    {fuel : Nat} {scope : Scope} {statements : List Statement} {machine after : Machine}
    (ends : endsInReturn statements = true) :
    inTurn (execute fuel scope none) statements machine ≠ .ok .finished after := by
  intro outcome
  unfold endsInReturn at ends
  split at ends
  case h_2 => cases ends
  case h_1 last found =>
    obtain ⟨before, rfl⟩ := List.getLast?_eq_some_iff.mp found
    rcases inTurn_append_eq_ok.mp outcome with ⟨between, _, given⟩ | ⟨unfinished, _⟩
    · obtain ⟨completion, final, returned, given⟩ := Action.bind_eq_ok.mp given
      cases last with
      | giveBack argument =>
          cases fuel with
          | zero => cases returned
          | succ fuel =>
              cases argument with
              | none =>
                  rw [execute] at returned
                  cases returned
                  cases given
              | some argument =>
                  rw [execute] at returned
                  obtain ⟨value, _, _, returned⟩ := Action.bind_eq_ok.mp returned
                  cases returned
                  cases given
      | _ => cases ends
    · exact unfinished rfl

/-- Applying a postcondition keeps the functions that statements declare. -/
theorem hoist_applyPostcondition
    (checker : Checker) (scope : Scope) (statements : List Statement) :
    hoist scope (applyPostcondition statements checker) = hoist scope statements := by
  rw [applyPostcondition, Checker.appendExitCheck, hoist_append, hoist_routeAll]
  have nothing : hoist scope (checker.exitCheck (checker.routeAll statements)) = pure () := by
    unfold Checker.exitCheck
    split <;> rfl
  rw [nothing]
  exact bind_pure_unit

theorem hoist_applyPostconditions (checkers : List Checker) (scope : Scope) :
    ∀ statements,
      hoist scope (checkers.foldl applyPostcondition statements) = hoist scope statements := by
  induction checkers with
  | nil => exact fun _ => rfl
  | cons checker rest induction =>
      intro statements
      rw [List.foldl_cons, induction, hoist_applyPostcondition]

/-- What avoids some names avoids each of them. -/
theorem avoiding_within {names other : String → Prop} (within : ∀ name, other name → names name) :
    (avoiding names).Implies (avoiding other) where
  expression := fun _ => trivial
  function := fun avoids name member is => avoids name member (within name is)
  declared := fun avoids name member is => avoids name member (within name is)

/-- Applying a postcondition adds no declarations. -/
theorem avoiding_applyPostcondition
    {names : String → Prop} {statements : List Statement} (checker : Checker)
    (avoids : (avoiding names).OnStatements statements) :
    (avoiding names).OnStatements (applyPostcondition statements checker) := by
  rw [applyPostcondition, Checker.appendExitCheck, Parts.onStatements_append]
  have routes := avoiding_routes names checker
  exact ⟨Parts.onStatements_routeAll routes statements avoids,
    Parts.onStatements_exitCheck routes _⟩

/-- Statements with a postcondition run as they do without it, and then it is checked. -/
theorem exits_of_applyPostcondition
    {checker : Checker} {found : List Condition} (checks : checker.Checks found)
    {parameter : String} {home scope : Scope} {fuel : Nat} {statements : List Statement}
    {machine after : Machine} {completion : Completion}
    (reaches : Reaches checker parameter home scope machine.store)
    (avoids : (avoiding (· = checker.name)).OnStatements statements)
    (outcome : inTurn (execute fuel scope none) (applyPostcondition statements checker) machine =
      .ok completion after) :
    ∃ between,
      inTurn (execute fuel scope none) statements machine = .ok completion between ∧
        Exits (Checked parameter home (found.map Condition.test)) completion between after := by
  have follows := follows_inTurn (runsRouted checks fuel).execute statements machine reaches avoids
  rcases inTurn_append_eq_ok.mp outcome with ⟨fallen, routed, exit⟩ | ⟨unfinished, routed⟩
  · obtain ⟨between, own, same⟩ := follows .finished fallen routed
    cases same
    unfold Checker.exitCheck at exit
    split at exit
    case isTrue ends => exact (inTurn_of_endsInReturn ends routed).elim
    case isFalse =>
      obtain ⟨step, final, checked, ends⟩ := Action.bind_eq_ok.mp exit
      obtain ⟨rfl, passes⟩ :=
        checked_of_check checks (reaches.after_inTurn avoids own) checked
      cases ends
      exact ⟨fallen, own, passes⟩
  · obtain ⟨between, own, passes⟩ := follows completion after routed
    refine ⟨between, own, ?_⟩
    cases completion with
    | finished => exact (unfinished rfl).elim
    | returned value => exact passes
    | broken label | continued label => exact passes

/-! ## All postconditions -/

/-- Checks of conditions one after the other, all of the same value. -/
inductive CheckedInTurn (parameter : String) (home : Scope) (value : Value) :
    List (List Expression) → Machine → Machine → Prop where
  | done (machine : Machine) : CheckedInTurn parameter home value [] machine machine
  | next {tests : List Expression} {rest : List (List Expression)}
      {machine between after : Machine} :
      Checked parameter home tests value machine between →
        CheckedInTurn parameter home value rest between after →
          CheckedInTurn parameter home value (tests :: rest) machine after

/-- The expressions that postconditions evaluate, in order. -/
def testsOf (found : List (List Condition)) : List (List Expression) :=
  found.map fun conditions => conditions.map Condition.test

/-- Statements with postconditions run as they do without them, and then all are checked. -/
theorem exits_of_applyPostconditions
    {parameter : String} {home scope : Scope} {fuel : Nat} {machine : Machine}
    {completion : Completion} {checkers : List Checker} {found : List (List Condition)}
    (checks : List.Forall₂ Checker.Checks checkers found) :
    ∀ {statements after},
      (∀ checker ∈ checkers, Reaches checker parameter home scope machine.store) →
        (avoiding (· ∈ checkers.map Checker.name)).OnStatements statements →
          inTurn (execute fuel scope none) (checkers.foldl applyPostcondition statements) machine =
              .ok completion after →
            ∃ between,
              inTurn (execute fuel scope none) statements machine = .ok completion between ∧
                Exits (fun value => CheckedInTurn parameter home value (testsOf found))
                  completion between after := by
  induction checks with
  | nil =>
      intro statements after _ _ outcome
      refine ⟨after, outcome, ?_⟩
      unfold Exits
      cases completion.exit? with
      | none => rfl
      | some value => exact .done after
  | @cons checker conditions rest others first _ induction =>
      intro statements after reaches avoids outcome
      obtain ⟨middle, ran, checked⟩ := induction
        (fun other member => reaches other (List.mem_cons_of_mem _ member))
        (avoiding_applyPostcondition checker
          (Parts.OnStatements.imp (avoiding_within fun name => List.mem_cons_of_mem _) statements avoids))
        outcome
      obtain ⟨between, own, passes⟩ := exits_of_applyPostcondition first
        (reaches checker List.mem_cons_self)
        (Parts.OnStatements.imp (avoiding_within fun name same => same ▸ List.mem_cons_self)
          statements avoids) ran
      refine ⟨between, own, ?_⟩
      unfold Exits at checked passes ⊢
      cases exits : completion.exit? with
      | none =>
          rw [exits] at checked passes
          exact checked.trans passes
      | some value =>
          rw [exits] at checked passes
          exact .next passes checked

/-! ## Declarations in front -/

/-- Declarations of variables let control go on. -/
theorem completion_of_bindings
    {fuel : Nat} {scope : Scope} {label : Option String} {kind : DeclarationKind}
    {declarators : List Declarator} {machine after : Machine} {completion : Completion}
    (outcome : execute fuel scope label (.bindings kind declarators) machine =
      .ok completion after) :
    completion = .finished := by
  cases fuel with
  | zero => cases outcome
  | succ fuel =>
      rw [execute] at outcome
      obtain ⟨_, _, _, ends⟩ := Action.bind_eq_ok.mp outcome
      cases ends
      rfl

/-- Statements that declare variables and nothing else. -/
def DeclaresVariables (statements : List Statement) : Prop :=
  ∀ statement ∈ statements, ∃ kind declarators, statement = .bindings kind declarators

theorem completion_of_inTurn
    {fuel : Nat} {scope : Scope} {completion : Completion} {after : Machine} :
    {statements : List Statement} → {machine : Machine} → DeclaresVariables statements →
      inTurn (execute fuel scope none) statements machine = .ok completion after →
        completion = .finished
  | [], machine, _, outcome => by
      cases outcome
      rfl
  | statement :: rest, machine, declares, outcome => by
      obtain ⟨step, between, begun, outcome⟩ := Action.bind_eq_ok.mp outcome
      obtain ⟨kind, declarators, rfl⟩ := declares statement List.mem_cons_self
      cases completion_of_bindings begun
      exact completion_of_inTurn
        (fun other member => declares other (List.mem_cons_of_mem _ member)) outcome

section

variable {parameter : String} {address : FrameAddress} {outer : Scope} {fuel : Nat}

/-- The store after the declaration of a checker. -/
def declaring (checker : Checker) (parameter : String) (address : FrameAddress) (outer : Scope)
    (store : Store) : Store :=
  (store.addClosure ⟨checker.function parameter, address :: outer⟩).2.putBinding address
    checker.name ⟨.closure ⟨store.closures.size⟩, false⟩

/-- A declaration of a checker makes a closure and binds it as a constant. -/
theorem execute_declaration
    (checker : Checker) (label : Option String) (machine : Machine) :
    execute (fuel + 2) (address :: outer) label (checker.declaration parameter) machine =
      .ok .finished
        { machine with store := declaring checker parameter address outer machine.store } := by
  rw [Checker.declaration, execute, declareVariables, List.forM]
  rfl

/-- A declaration of a checker lets control go on, with the checker in the store. -/
theorem eq_of_declaration
    {checker : Checker} {label : Option String} {machine after : Machine}
    {completion : Completion}
    (outcome : execute fuel (address :: outer) label (checker.declaration parameter) machine =
      .ok completion after) :
    completion = .finished ∧
      after =
        { machine with store := declaring checker parameter address outer machine.store } := by
  have more := ((moreFuel_of_le (Nat.le_add_right fuel 2)).execute _ _ _).of_ok outcome
  rw [execute_declaration] at more
  cases more
  exact ⟨rfl, rfl⟩

/-- A checker is in reach once it has been declared. -/
theorem reaches_of_declaration
    {checker : Checker} {label : Option String} {machine after : Machine}
    {completion : Completion}
    (wellScoped : machine.store.WellScoped) (sees : machine.store.Sees (address :: outer))
    (outcome : execute fuel (address :: outer) label (checker.declaration parameter) machine =
      .ok completion after) :
    Reaches checker parameter (address :: outer) (address :: outer) after.store := by
  obtain ⟨rfl, rfl⟩ := eq_of_declaration outcome
  have withClosure : (machine.store.addClosure
      ⟨checker.function parameter, address :: outer⟩).2.WellScoped :=
    scoping.addClosure wellScoped sees
  have size : (declaring checker parameter address outer machine.store).frames.size =
      machine.store.frames.size :=
    Store.size_putBinding _ _ _ _
  refine ⟨withClosure.mono rfl (Nat.le_of_eq size.symm), sees.mono (Nat.le_of_eq size.symm),
    address, ⟨machine.store.closures.size⟩, ?_, ?_⟩
  · have bound : ((declaring checker parameter address outer machine.store).frame
        address).lookup checker.name = some ⟨.closure ⟨machine.store.closures.size⟩, false⟩ := by
      have present : address.index < (machine.store.addClosure
          ⟨checker.function parameter, address :: outer⟩).2.frames.size :=
        sees address List.mem_cons_self
      rw [declaring, Store.frame_putBinding _ present, Entries.lookup_put, if_pos rfl]
    rw [Store.nearest?, bound]
  · simp [Store.closure?, declaring, Store.putBinding, Store.addClosure]

/-- Checkers with different names are all in reach once they have been declared. -/
theorem reaches_of_declarations {completion : Completion} {after : Machine} :
    {checkers : List Checker} → {machine : Machine} →
      (checkers.map Checker.name).Nodup → machine.store.WellScoped →
        machine.store.Sees (address :: outer) →
          inTurn (execute fuel (address :: outer) none)
              (checkers.map (·.declaration parameter)) machine = .ok completion after →
            ∀ checker ∈ checkers,
              Reaches checker parameter (address :: outer) (address :: outer) after.store
  | [], _, _, _, _, _ => by
      intro checker member
      cases member
  | first :: rest, machine, distinct, wellScoped, sees, outcome => by
      rw [List.map_cons, List.nodup_cons] at distinct
      obtain ⟨step, between, declared, ran⟩ := Action.bind_eq_ok.mp outcome
      have reaches := reaches_of_declaration wellScoped sees declared
      cases completion_of_bindings declared
      intro checker member
      rcases List.mem_cons.mp member with rfl | later
      · refine reaches.after_inTurn ?_ ran
        refine Parts.onStatements_iff.mpr fun statement among => ?_
        obtain ⟨other, inRest, rfl⟩ := List.mem_map.mp among
        rw [Checker.declaration, Parts.OnStatement]
        intro name declares same
        have named : name = other.name := by simpa [namesOfDeclarators] using declares
        exact distinct.1 (List.mem_map.mpr ⟨other, inRest, named.symm.trans same⟩)
      · exact reaches_of_declarations distinct.2 reaches.wellScoped reaches.sees ran checker
          later

/--
The statements of a function with postconditions run as they do without them,
and then all postconditions are checked.
-/
theorem exits_of_executeAll
    {checkers : List Checker} {found : List (List Condition)}
    (checks : List.Forall₂ Checker.Checks checkers found)
    (distinct : (checkers.map Checker.name).Nodup)
    {front statements : List Statement} (declares : DeclaresVariables front)
    (avoids : (avoiding (· ∈ checkers.map Checker.name)).OnStatements (front ++ statements))
    {machine after : Machine} {completion : Completion}
    (wellScoped : machine.store.WellScoped) (sees : machine.store.Sees (address :: outer))
    (outcome : executeAll fuel (address :: outer)
      (checkers.map (·.declaration parameter) ++ front ++
        checkers.foldl applyPostcondition statements) machine = .ok completion after) :
    ∃ between,
      executeAll fuel (address :: outer)
          (checkers.map (·.declaration parameter) ++ front ++ statements) machine =
        .ok completion between ∧
        Exits (fun value => CheckedInTurn parameter (address :: outer) value (testsOf found))
          completion between after := by
  cases fuel with
  | zero => cases outcome
  | succ fuel =>
      rw [executeAll] at outcome ⊢
      obtain ⟨_, hoisted, begun, outcome⟩ := Action.bind_eq_ok.mp outcome
      have same : hoist (address :: outer) (checkers.foldl applyPostcondition statements) =
          hoist (address :: outer) statements :=
        hoist_applyPostconditions checkers _ statements
      rw [hoist_append, same, ← hoist_append] at begun
      have kept := @Regime.keeps_hoist scoping _ _
        (Regime.permits_all (fun _ => trivial) _) machine () hoisted wellScoped sees begun
      rcases inTurn_append_eq_ok.mp outcome with ⟨ready, prepared, ran⟩ | ⟨unfinished, prepared⟩
      · rcases inTurn_append_eq_ok.mp prepared with ⟨declared, first, rest⟩ | ⟨unfinished, _⟩
        · have reaches := reaches_of_declarations distinct kept.1 (sees.mono kept.2) first
          rw [Parts.onStatements_append] at avoids
          have still : ∀ checker ∈ checkers,
              Reaches checker parameter (address :: outer) (address :: outer) ready.store :=
            fun checker member => (reaches checker member).after_inTurn
              (Parts.OnStatements.imp (avoiding_within fun name same => same ▸
                List.mem_map_of_mem member) front avoids.1) rest
          obtain ⟨between, own, exits⟩ :=
            exits_of_applyPostconditions checks still avoids.2 ran
          refine ⟨between, Action.bind_eq_ok.mpr ⟨(), hoisted, begun, ?_⟩, exits⟩
          exact inTurn_append_eq_ok.mpr (.inl ⟨ready, prepared, own⟩)
        · exact (unfinished rfl).elim
      · refine (unfinished (completion_of_inTurn ?_ prepared)).elim
        intro statement member
        rcases List.mem_append.mp member with inDeclarations | inFront
        · obtain ⟨checker, _, rfl⟩ := List.mem_map.mp inDeclarations
          exact ⟨_, _, rfl⟩
        · exact declares statement inFront

end

end Covenant.Contract
