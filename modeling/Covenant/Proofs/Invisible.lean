import Covenant.Proofs.MirrorSession

/-!
# Contracts that hold are invisible

A program whose contracts state no calls is transformed with its contracts.
Whenever a call of one of its functions has a result, the same call has the
same result, and writes the same lines, if the program is transformed without
its contracts.
-/

namespace Covenant.Contract

open Machine

section

variable {settings : Settings} {program output : Program} {summary : Summary}

/-- Names that are coined are bound in no fresh machine. -/
theorem lookup_globalFrame_of_coined {name : String} (coined : Coined name) (console : Value) :
    (globalFrame console).lookup name = none := by
  obtain ⟨rest, rfl⟩ := coined
  have apart (known : String) (other : known.toList.head? ≠ some '_') :
      ("_" ++ rest == known) = false := by
    refine beq_eq_false_iff_ne.mpr fun equal => other ?_
    rw [← equal, String.toList_append]
    rfl
  rw [globalFrame, List.lookup_cons, apart "undefined" (by decide), List.lookup_cons,
    apart "NaN" (by decide), List.lookup_cons, apart "Infinity" (by decide), List.lookup_cons,
    apart "Error" (by decide), List.lookup_cons, apart "console" (by decide), List.lookup_nil]

/-- Outside functions a transformed program declares no names that were free. -/
theorem avoiding_of_transform
    (outcome : program.transform settings = .ok (output, summary)) :
    (avoiding (NameSupply.ofProgram program).Offers).OnStatements output.statements := by
  obtain ⟨last, statements, _⟩ := transform_eq_ok.mp outcome
  obtain ⟨walked, pass, walks, transformed⟩ := transformStatements_eq_ok.mp statements
  have none : pass.work.helperNames = [] :=
    (walks.resumes (needsNoCheckers_topLevel settings _)).helperNames
  have admits : Admits (avoiding (NameSupply.ofProgram program).Offers)
      settings.tokens.result pass :=
    { guard := avoiding_guard
      routes := fun {checker} _ => avoiding_routes _ checker
      declaration := fun wired => by
        have absurd := wired.named
        rw [none] at absurd
        cases absurd }
  have written : (avoiding (NameSupply.ofProgram program).Offers).OnStatements program.statements :=
    avoiding_of_unknown (fun _ member offers => offers.free member) (bounded_ofProgram program)
  have walkedAvoids := walks.parts admits
    (Pass.sound_start (Work.sound_ofProgram program).helpers) (.refl pass) written
  obtain ⟨_, nested⟩ :=
    nestedFunctions_onStatements (transformFunction_advances settings _ _) transformed
  exact Parts.onStatements_of_exchange (carried_avoiding name_of_transformFunction _) nested
    walkedAvoids

/--
If the contracts of a program that survive state no calls, then whatever the
transformed program does without an error, the program without its contracts
does as well: it succeeds with the same interchange value and the same output.
-/
theorem contracts_invisible
    (free : StatesNoCalls settings program)
    (outcome : program.transform settings = .ok (output, summary))
    {fuel depthLimit : Nat} {name : String} {arguments : List Json}
    {result : Value} {after : Machine}
    (ran : output.run fuel name arguments (fresh depthLimit) = .ok result after) :
    ∃ bare stripped corresponding final,
      program.transform settings.stripping = .ok (bare, stripped) ∧
        bare.run fuel name arguments (fresh depthLimit) = .ok corresponding final ∧
          corresponding.toJson final.store = result.toJson after.store ∧
            final.output = after.output := by
  cases strips : settings.stripsContracts with
  | true =>
      have same : settings.stripping = settings := by
        rw [Settings.stripping, ← strips]
      rw [same]
      exact ⟨output, summary, result, after, outcome, ran, rfl, rfl⟩
  | false =>
      obtain ⟨last, late, bare, stripped, transformed, woven⟩ :=
        exists_woven_of_transform strips free outcome
      have coined (name : String) (console : Value)
          (offers : (NameSupply.ofProgram program).Offers name) :
          (globalFrame console).lookup name = none :=
        lookup_globalFrame_of_coined offers.coined console
      have visible : (outputCode settings late).visible name :=
        not_hidden_of_run coined (avoiding_of_transform outcome) ran
      have corresponds : Corresponds (outputCode settings late) freshPairing
          (fresh depthLimit) (fresh depthLimit) :=
        corresponds_fresh (fun name console checker =>
          coined name console (offers_of_checker late checker)) depthLimit
      obtain ⟨later, corresponding, final, _, same, corresponds, related⟩ :=
        mirrors_run (woven_of_counterparts strips) fuel woven visible arguments _ _ _ _
          corresponds ran
      exact ⟨bare, stripped, corresponding, final, transformed, same,
        (corresponds.store.toJson_eq related).symm, corresponds.output.symm⟩

end

/-- A function whose result is what its argument was. -/
def keptArgument : Program :=
  ⟨[.declare
    ⟨some "keep", ["x"],
      .block
        [.labeled "post"
          (.evaluate (.binary .strictEq (.identifier "it")
            (.call (.identifier "old") [.identifier "x"]))),
          .giveBack (some (.identifier "x"))],
      false, false, false⟩]⟩

/-- Whether a transformed program gives a result when it is run. -/
def givesResult (settings : Settings) (program : Program) (fuel : Nat) (name : String)
    (arguments : List Json) : Bool :=
  match program.transform settings with
  | .error _ => false
  | .ok done =>
    match done.1.run fuel name arguments (fresh 64) with
    | .error _ _ => false
    | .ok _ _ => true

theorem contracts_invisible_of_keptArgument :
    StatesNoCalls (Options.usual.resolve "test") keptArgument ∧
      ∃ output summary result after bare stripped corresponding final,
        keptArgument.transform (Options.usual.resolve "test") = .ok (output, summary) ∧
          output.run 20 "keep" [.bool true] (fresh 64) = .ok result after ∧
            keptArgument.transform (Options.usual.resolve "test").stripping =
              .ok (bare, stripped) ∧
              bare.run 20 "keep" [.bool true] (fresh 64) = .ok corresponding final ∧
                corresponding.toJson final.store = result.toJson after.store ∧
                  final.output = after.output := by
  have free : StatesNoCalls (Options.usual.resolve "test") keptArgument := by
    -- There is one contract, and its one condition compares two names.
    have role : (Options.usual.resolve "test").roleOf "post" = .contract .postcondition := by
      decide
    refine ⟨?_, ?_⟩
    · intro contract member
      simp [keptArgument, Collection.ofStatements, Collection.ofStatement, contracts] at member
    · intro function member
      simp [keptArgument, Collection.ofStatements, Collection.ofStatement, survivors, functions]
        at member
      subst member
      refine .block rfl ?_ ?_
      · intro contract stated found states condition among
        simp [functionContext, Collection.ofStatements, Collection.ofStatement, contracts, role,
          Place.ignores, Collection.ofOptional] at stated
        obtain ⟨_, rfl⟩ := stated
        cases states
        rw [List.mem_singleton.mp among]
        decide
      · intro nested inside
        simp [Collection.ofStatements, Collection.ofStatement, survivors, functions, role,
          Place.ignores, Collection.ofOptional, Expression.nodes] at inside
  refine ⟨free, ?_⟩
  have runs : givesResult (Options.usual.resolve "test") keptArgument 20 "keep" [.bool true] =
      true := by
    decide +kernel
  unfold givesResult at runs
  cases outcome : keptArgument.transform (Options.usual.resolve "test") with
  | error reason =>
      rw [outcome] at runs
      cases runs
  | ok done =>
      rw [outcome] at runs
      obtain ⟨output, summary⟩ := done
      cases ran : output.run 20 "keep" [.bool true] (fresh 64) with
      | error stop stopped =>
          simp only [ran] at runs
          cases runs
      | ok result after =>
          obtain ⟨bare, stripped, corresponding, final, transformed, same, results, lines⟩ :=
            contracts_invisible free outcome ran
          exact ⟨output, summary, result, after, bare, stripped, corresponding, final, rfl, ran,
            transformed, same, results, lines⟩

end Covenant.Contract
