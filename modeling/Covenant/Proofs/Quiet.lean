import Covenant.Proofs.CallFree
import Covenant.Proofs.Survival

/-!
# Programs whose contracts state no calls

The contracts that a walk checks, unless it removes them all, are those that
stand neither in a contract nor in code for another environment.  A program
states no calls if none of them does, outside functions and in every function
that survives.

Code that is removed along with a contract or an environment may call whatever
it likes.
-/

namespace Covenant.Contract

/-- The contracts that a walk checks, with their kinds. -/
def contracts (settings : Settings) (place : Place) : Collection (Kind × Statement) where
  expression _ := []
  function _ := []
  declared _ := []
  labeled label body :=
    match settings.roleOf label with
    | .contract kind =>
      some (if settings.stripsContracts || place.ignores kind then [] else [(kind, body)])
    | .environment => if settings.actionFor label = .remove then some [] else none
    | .other => none

/-- The contracts of statements state no calls. -/
def Context.StatesNoCallsIn (context : Context) (statements : List Statement) : Prop :=
  ∀ contract ∈ (contracts context.settings context.place).ofStatements statements,
    context.StatesNoCalls contract.1 contract.2

/-- The contracts of a function state no calls, and neither do those of the functions in it. -/
inductive CallFree (settings : Settings) (names : List String) : ScopeStack → Function → Prop where
  | block {scopes : ScopeStack} {function : Function} {statements : List Statement}
      (shape : function.body = .block statements)
      (own : (functionContext settings scopes function).StatesNoCallsIn statements)
      (inner : ∀ nested ∈
          (survivors settings (.function function.name) names).ofStatements statements,
        CallFree settings names (scopes.push function.scope) nested) :
      CallFree settings names scopes function
  | result {scopes : ScopeStack} {function : Function} {expression : Expression}
      (shape : function.body = .result expression)
      (inner : ∀ nested ∈ functionsOf (expression.nodes false),
        CallFree settings names (scopes.push function.scope) nested) :
      CallFree settings names scopes function

/-- The contracts of a program that survive state no calls. -/
structure StatesNoCalls (settings : Settings) (program : Program) : Prop where
  own : (topLevelContext settings (.ofProgram program)).StatesNoCallsIn program.statements
  inner : ∀ function ∈
      (survivors settings .topLevel program.allNames).ofStatements program.statements,
    CallFree settings program.allNames (.ofProgram program) function

/-! ## Statements whose contracts state no calls -/

mutual

/-- The contracts of a statement that survive state no calls, and its parts meet requirements. -/
def Quiet (context : Context) (parts : Parts) : Statement → Prop
  | .labeled label body =>
    match context.settings.roleOf label with
    | .contract kind =>
      if context.ignores kind then parts.OnStatement body else context.StatesNoCalls kind body
    | .environment => context.settings.actionFor label ≠ .remove → Quiet context parts body
    | .other => Quiet context parts body
  | .block statements => QuietAll context parts statements
  | .branch test consequent alternate =>
    parts.expression test ∧ Quiet context parts consequent ∧
      QuietAlternate context parts alternate
  | .whileLoop test body | .doWhileLoop body test =>
    parts.expression test ∧ Quiet context parts body
  | .forLoop init test update body =>
    parts.OnLoopInit init ∧ parts.OnOptional test ∧ parts.OnOptional update ∧
      Quiet context parts body
  | statement => parts.OnStatement statement

/-- The same of a statement that may be missing. -/
def QuietAlternate (context : Context) (parts : Parts) : Option Statement → Prop
  | none => True
  | some statement => Quiet context parts statement

/-- The same of statements in turn. -/
def QuietAll (context : Context) (parts : Parts) : List Statement → Prop
  | [] => True
  | statement :: rest => Quiet context parts statement ∧ QuietAll context parts rest

end

section

variable {context : Context} {parts : Parts}

theorem quiet_of_isSimple
    {statement : Statement} (simple : isSimple statement = true) :
    Quiet context parts statement ↔ parts.OnStatement statement := by
  cases statement <;> simp [isSimple] at simple <;> simp [Quiet]

/-- What is left of a quiet statement without its label is quiet. -/
theorem quietAll_unlabeled
    {label : String} {body : Statement} (quiet : Quiet context parts body) :
    QuietAll context parts (Statement.labeled label body).unlabeled := by
  cases body with
  | block statements => rwa [Quiet] at quiet
  | _ => simpa [Statement.unlabeled, QuietAll] using quiet

theorem quietAll_append {first second : List Statement} :
    QuietAll context parts (first ++ second) ↔
      QuietAll context parts first ∧ QuietAll context parts second := by
  induction first with
  | nil => simp [QuietAll]
  | cons statement rest induction => simp [QuietAll, induction, and_assoc]

end

section

set_option linter.unusedSectionVars false

variable {context : Context} {given parts : Parts} {names : List String}
  {property : Function → Prop}
  (keeps : context.settings.stripsContracts = false)
  (completes : (functions names).Completes given property parts)

include keeps completes

mutual

/-- A statement is quiet if its contracts state no calls and its functions have a property. -/
theorem quiet_of_survivors : (statement : Statement) → given.OnStatement statement →
    (∀ function ∈
      (survivors context.settings context.place names).ofStatement statement, property function) →
      (∀ contract ∈ (contracts context.settings context.place).ofStatement statement,
        context.StatesNoCalls contract.1 contract.2) →
        Quiet context parts statement
  | .labeled label body, holds, each, free => by
      rw [Parts.OnStatement] at holds
      rw [Quiet]
      cases role : context.settings.roleOf label with
      | contract kind =>
          simp only [Collection.ofStatement, contracts, role, keeps, Bool.false_or] at free
          rw [survivors_of_contract role] at each
          have same : context.place.ignores kind = context.ignores kind := rfl
          rw [same] at each free
          cases ignored : context.ignores kind with
          | true =>
              rw [ignored] at each
              simp only [ignored, if_true]
              exact Collection.completeStatement completes body holds each
          | false =>
              rw [ignored] at free
              simp only [ignored, Bool.false_eq_true, if_false]
              exact free (kind, body) List.mem_cons_self
      | environment =>
          intro stays
          rw [survivors_of_entered (.inr ⟨role, stays⟩)] at each
          simp only [Collection.ofStatement, contracts, role, stays, if_false] at free
          exact quiet_of_survivors body holds each free
      | other =>
          rw [survivors_of_entered (.inl role)] at each
          simp only [Collection.ofStatement, contracts, role] at free
          exact quiet_of_survivors body holds each free
  | .block statements, holds, each, free => by
      rw [Parts.OnStatement] at holds
      rw [Collection.ofStatement] at each free
      rw [Quiet]
      exact quietAll_of_survivors statements holds each free
  | .branch _ consequent alternate, holds, each, free => by
      rw [Parts.OnStatement] at holds
      simp only [Collection.ofStatement, List.forall_mem_append] at each free
      rw [Quiet]
      exact ⟨completes.expression holds.1 each.1.1,
        quiet_of_survivors consequent holds.2.1 each.1.2 free.1.2,
        quietAlternate_of_survivors alternate holds.2.2 each.2 free.2⟩
  | .whileLoop _ body, holds, each, free => by
      rw [Parts.OnStatement] at holds
      simp only [Collection.ofStatement, List.forall_mem_append] at each free
      rw [Quiet]
      exact ⟨completes.expression holds.1 each.1,
        quiet_of_survivors body holds.2 each.2 free.2⟩
  | .doWhileLoop body _, holds, each, free => by
      rw [Parts.OnStatement] at holds
      simp only [Collection.ofStatement, List.forall_mem_append] at each free
      rw [Quiet]
      exact ⟨completes.expression holds.1 each.2,
        quiet_of_survivors body holds.2 each.1 free.1⟩
  | .forLoop _ _ _ body, holds, each, free => by
      rw [Parts.OnStatement] at holds
      simp only [Collection.ofStatement, List.forall_mem_append, survivors_ofLoopInit,
        survivors_ofOptional] at each free
      rw [Quiet]
      exact ⟨Collection.completeLoopInit completes holds.1 each.1.1.1,
        Collection.completeOptional completes holds.2.1 each.1.1.2,
        Collection.completeOptional completes holds.2.2.1 each.1.2,
        quiet_of_survivors body holds.2.2.2 each.2 free.2⟩
  | .evaluate _, holds, each, _ | .giveBack _, holds, each, _ | .bindings _ _, holds, each, _
  | .declare _, holds, each, _ | .raise _, holds, each, _ | .breakOut _, holds, each, _
  | .continueLoop _, holds, each, _ | .empty, holds, each, _ => by
      rw [survivors_of_isSimple rfl] at each
      exact (quiet_of_isSimple rfl).mpr (Collection.completeStatement completes _ holds each)

theorem quietAlternate_of_survivors : (alternate : Option Statement) →
    given.OnAlternate alternate →
      (∀ function ∈ (survivors context.settings context.place names).ofAlternate alternate,
        property function) →
        (∀ contract ∈ (contracts context.settings context.place).ofAlternate alternate,
          context.StatesNoCalls contract.1 contract.2) →
          QuietAlternate context parts alternate
  | none, _, _, _ => by
      rw [QuietAlternate]
      trivial
  | some statement, holds, each, free => by
      rw [Parts.OnAlternate] at holds
      rw [Collection.ofAlternate] at each free
      rw [QuietAlternate]
      exact quiet_of_survivors statement holds each free

/-- Statements are quiet if their contracts state no calls and their functions have a property. -/
theorem quietAll_of_survivors : (statements : List Statement) → given.OnStatements statements →
    (∀ function ∈ (survivors context.settings context.place names).ofStatements statements,
      property function) →
      context.StatesNoCallsIn statements → QuietAll context parts statements
  | [], _, _, _ => by
      rw [QuietAll]
      trivial
  | statement :: rest, holds, each, free => by
      rw [Parts.OnStatements] at holds
      simp only [Context.StatesNoCallsIn, Collection.ofStatements, List.forall_mem_append]
        at each free
      rw [QuietAll]
      exact ⟨quiet_of_survivors statement holds.1 each.1 free.1,
        quietAll_of_survivors rest holds.2 each.2 free.2⟩

end

end

end Covenant.Contract
