import Covenant.Machine.Session
import Covenant.Proofs.Stability

/-!
# What holds throughout a session

A session starts from a store without closures, and loading a program,
receiving arguments and calling a function stay within every discipline that
lets the top level of the program run.
-/

namespace Covenant.Machine

/-! ## Receiving arguments -/

/-- Receiving a value adds arrays and objects only. -/
structure Store.GrowsCells (before after : Store) : Prop where
  frames : after.frames = before.frames
  closures : after.closures = before.closures

theorem Store.GrowsCells.trans
    {before between after : Store}
    (first : before.GrowsCells between) (second : between.GrowsCells after) :
    before.GrowsCells after :=
  ⟨second.frames.trans first.frames, second.closures.trans first.closures⟩

namespace Value

mutual

theorem growsCells_ofJson (store : Store) : (json : Json) → store.GrowsCells (ofJson json store).2
  | .null | .bool _ | .integer _ | .number _ | .string _ => by
      rw [ofJson]
      exact ⟨rfl, rfl⟩
  | .array elements => by
      rw [ofJson]
      exact (growsCells_ofElements store elements).trans ⟨rfl, rfl⟩
  | .object entries => by
      rw [ofJson]
      exact (growsCells_ofEntries store entries).trans ⟨rfl, rfl⟩

theorem growsCells_ofElements (store : Store) :
    (elements : List Json) → store.GrowsCells (ofElements elements store).2
  | [] => by
      rw [ofElements]
      exact ⟨rfl, rfl⟩
  | element :: rest => by
      rw [ofElements]
      exact (growsCells_ofJson store element).trans (growsCells_ofElements _ rest)

theorem growsCells_ofEntries (store : Store) :
    (entries : List (String × Json)) → store.GrowsCells (ofEntries entries store).2
  | [] => by
      rw [ofEntries]
      exact ⟨rfl, rfl⟩
  | (_, element) :: rest => by
      rw [ofEntries]
      exact (growsCells_ofJson store element).trans (growsCells_ofEntries _ rest)

end

end Value

namespace Discipline

variable {discipline : Discipline}

theorem kept_receive (arguments : List Json) : discipline.Kept (receive arguments) :=
  kept_allocate_cells
    (fun store => (Value.growsCells_ofElements store arguments).frames)
    (fun store => (Value.growsCells_ofElements store arguments).closures)

theorem kept_callGlobal (fuel : Nat) (name : String) (arguments : List Value) :
    discipline.Kept (callGlobal fuel name arguments) := by
  refine (kept_query _).bind fun callee => ?_
  split
  · split
    · exact (discipline.observed fuel).call _ _ _
    · exact kept_throw _
  · exact kept_throw _

/-- Loading a program stays within every discipline that lets its top level run. -/
theorem keeps_load
    {fuel : Nat} {program : Program}
    (permitted : (discipline.permits globalScope).OnStatements program.statements) :
    discipline.Keeps globalScope (load fuel program) := by
  refine ((discipline.observed fuel).executeAll _ permitted).bind fun completion => ?_
  cases completion with
  | finished => exact (kept_pure _).keeps _
  | returned value => exact (kept_pure _).keeps _
  | broken label => exact (kept_throw _).keeps _
  | continued label => exact (kept_throw _).keeps _

/-- A session stays within every discipline that lets the top level of its program run. -/
theorem keeps_run
    {fuel : Nat} {program : Program} {name : String} {arguments : List Json}
    (permitted : (discipline.permits globalScope).OnStatements program.statements) :
    discipline.Keeps globalScope (program.run fuel name arguments) := by
  refine (keeps_load permitted).bind fun _ => ((kept_receive arguments).keeps _).bind fun values => ?_
  exact (kept_callGlobal fuel name values).keeps _

end Discipline

/-- The top level of a program may run under a regime if the regime permits its statements. -/
theorem Regime.permits_program {regime : Regime} {program : Program}
    (permitted : (regime.permits globalScope).OnStatements program.statements) :
    (regime.discipline.permits globalScope).OnStatements program.statements :=
  .imp (regime.permits_discipline globalScope) program.statements permitted

/-! ## Scopes -/

theorem wellScoped_fresh (depthLimit : Nat) : (fresh depthLimit).store.WellScoped := by
  intro address closure found
  cases found

/-- The scopes of all closures of a session are within its store. -/
theorem wellScoped_of_run
    {fuel depthLimit : Nat} {program : Program} {name : String} {arguments : List Json}
    {result : Value} {after : Machine}
    (outcome : program.run fuel name arguments (fresh depthLimit) = .ok result after) :
    after.store.WellScoped := by
  have permitted : (scoping.discipline.permits globalScope).OnStatements program.statements :=
    Regime.permits_program (Regime.permits_all (fun _ => trivial) program.statements)
  have visible : scoping.scope (fresh depthLimit).store.frames.size globalScope := by
    intro address member
    rw [List.mem_singleton.mp member]
    exact Nat.zero_lt_one
  exact (Discipline.keeps_run permitted _ _ _ (wellScoped_fresh depthLimit) visible outcome).1

end Covenant.Machine
