import Covenant.Proofs.Unshadowed

/-!
# What stands throughout a run

When a program that spares a name is run, the name keeps the meaning that it
has in a fresh machine: each part of a task starts where the constant is still
unshadowed, and its code sees the global frame and spares the name as well.
-/

namespace Covenant.Contract

open Machine

variable {name : String} {value : Value} {fuel : Nat}

/-! ## Parts of tasks -/

theorem nodesOfDeclarators_append (enter : Bool) (first second : List Declarator) :
    nodesOfDeclarators enter (first ++ second) =
      nodesOfDeclarators enter first ++ nodesOfDeclarators enter second := by
  induction first with
  | nil => rfl
  | cons declarator rest induction =>
      cases declarator
      rw [List.cons_append, nodesOfDeclarators, nodesOfDeclarators, induction, List.append_assoc]

/-- A part starts where the constant is unshadowed, and its code spares the name. -/
def Stands (name : String) (value : Value) (task : Task) (machine : Machine) : Prop :=
  Unshadowed name value machine.store ∧ Fits name task

theorem Fits.free {scope : Scope} {expression : Expression}
    (fits : Fits name (.evaluate scope expression)) : Free name (expression.nodes false) :=
  fits.2.2

theorem free_propertyParts {target : Expression} (free : Free name (target.nodes false)) :
    Free name (nodesOfExpressions false (propertyParts target)) := by
  cases target with
  | member object key | index object key =>
      rw [Expression.nodes, free_cons_expression] at free
      simpa [propertyParts, nodesOfExpressions, free_append] using free
  | _ => exact AllFunctions.nil

theorem free_calleeParts {callee : Expression} (free : Free name (callee.nodes false)) :
    Free name (nodesOfExpressions false (calleeParts callee)) := by
  cases callee with
  | member object key | index object key => exact free_propertyParts free
  | _ => simpa [calleeParts, nodesOfExpressions] using free

theorem free_values {properties : List Property} :
    Free name (nodesOfExpressions false (properties.map (·.value))) ↔
      Free name (nodesOfProperties false properties) := by
  induction properties with
  | nil => simp [nodesOfExpressions, nodesOfProperties]
  | cons property rest induction =>
      obtain ⟨key, initial⟩ := property
      simp [nodesOfExpressions, nodesOfProperties, free_append, induction]

/-- The argument of an operator is what is evaluated for it, if anything is. -/
theorem operands_unary (operator : UnaryOperator) (argument : Expression) :
    operands (.unary operator argument) = [] ∨
      operands (.unary operator argument) = [argument] := by
  by_cases named : operator = .typeOf
  · subst named
    cases argument with
    | identifier name => exact .inl rfl
    | _ => exact .inr rfl
  · refine .inr ?_
    cases operator with
    | typeOf => exact absurd rfl named
    | _ => rfl

/-- The expressions that are evaluated first spare a name if the whole expression does. -/
theorem free_operands {expression : Expression} (free : Free name (expression.nodes false)) :
    Free name (nodesOfExpressions false (operands expression)) := by
  cases expression with
  | literal | identifier | receiver | lambda | yield | await => exact AllFunctions.nil
  | array elements | sequence elements =>
      rw [Expression.nodes, free_cons_expression] at free
      exact free
  | record properties =>
      rw [Expression.nodes, free_cons_expression] at free
      exact free_values.mpr free
  | unary operator argument =>
      rw [Expression.nodes, free_cons_expression] at free
      rcases operands_unary operator argument with nothing | single
      · rw [nothing]
        exact AllFunctions.nil
      · rw [single]
        simpa [nodesOfExpressions] using free
  | update operator leading target =>
      rw [Expression.nodes, free_cons_expression] at free
      exact free_propertyParts free
  | assign operator target given =>
      rw [Expression.nodes, free_cons_expression, free_append] at free
      exact free_propertyParts free.1
  | call callee arguments =>
      rw [Expression.nodes, free_cons_expression, free_append] at free
      exact free_calleeParts free.1
  | construct callee arguments =>
      rw [Expression.nodes, free_cons_expression] at free
      simpa [operands, nodesOfExpressions] using free
  | binary operator left right | index left right =>
      rw [Expression.nodes, free_cons_expression] at free
      simpa [operands, nodesOfExpressions] using free
  | logical operator left right =>
      rw [Expression.nodes, free_cons_expression, free_append] at free
      simpa [operands, nodesOfExpressions] using free.1
  | conditional test consequent alternate =>
      rw [Expression.nodes, free_cons_expression, free_append, free_append] at free
      simpa [operands, nodesOfExpressions] using free.1.1
  | member object key =>
      rw [Expression.nodes, free_cons_expression] at free
      simpa [operands, nodesOfExpressions] using free

variable {machine start : Machine} (keeps : KeepsAll name value fuel)

include keeps

theorem stands_of_inOrder {scope : Scope} {expressions : List Expression} {part : Expression}
    (inOrder : EvaluatedInOrder fuel scope expressions machine part start) (sees : ⟨0⟩ ∈ scope) :
    Unshadowed name value machine.store → Free name (nodesOfExpressions false expressions) →
      Stands name value (.evaluate scope part) start := by
  induction inOrder with
  | head =>
      intro unshadowed free
      rw [nodesOfExpressions, free_append] at free
      exact ⟨unshadowed, sees, trivial, free.1⟩
  | tail evaluated _ induction =>
      intro unshadowed free
      rw [nodesOfExpressions, free_append] at free
      exact induction (keeps.inner sees _ free.1 _ _ _ unshadowed evaluated) free.2

theorem stands_of_initializes {scope : Scope} {kind : DeclarationKind}
    {declarators : List Declarator} {part : Expression}
    (initializes : Initializes fuel scope kind declarators machine part start) (sees : ⟨0⟩ ∈ scope)
    (unshadowed : Unshadowed name value machine.store)
    (spares : (sparing name).declared declarators) :
    Stands name value (.evaluate scope part) start := by
  obtain ⟨before, own, rest, rfl, declared⟩ := initializes
  obtain ⟨apart, free⟩ := spares
  have free : Free name (nodesOfDeclarators false (before ++ ⟨own, some part⟩ :: rest)) := free
  rw [nodesOfDeclarators_append, nodesOfDeclarators, free_append, free_append] at free
  have earlier : (sparing name).declared before :=
    ⟨fun other member => apart other (by
      rw [namesOfDeclarators, List.map_append]
      exact List.mem_append_left _ member), free.1⟩
  exact ⟨keeping_declareVariables (keeps.inner sees) earlier machine () start unshadowed declared,
    sees, trivial, free.2.1⟩

omit keeps in
theorem unshadowed_enterFrame (unshadowed : Unshadowed name value machine.store) :
    Unshadowed name value machine.enterFrame.store :=
  unshadowed.addFrame rfl

/-- What stands for a task stands for each of its parts. -/
theorem stands_of_part {task next : Task} (apart : name ≠ "this")
    (part : Part fuel task machine next start) (stands : Stands name value task machine) :
    Stands name value next start := by
  obtain ⟨unshadowed, fits⟩ := stands
  cases part with
  | operand inOrder =>
      exact stands_of_inOrder keeps inOrder fits.1 unshadowed (free_operands fits.2.2)
  | right evaluated _ =>
      have sees := fits.1
      have free := Fits.free fits
      rw [Expression.nodes, free_cons_expression, free_append] at free
      exact ⟨keeps.inner sees _ free.1 _ _ _ unshadowed evaluated, sees, trivial, free.2⟩
  | @chosen scope test consequent alternate found _ _ evaluated =>
      have sees := fits.1
      have free := Fits.free fits
      rw [Expression.nodes, free_cons_expression, free_append, free_append] at free
      refine ⟨keeps.inner sees _ free.1.1 _ _ _ unshadowed evaluated, sees, trivial, ?_⟩
      cases found.isTruthy
      · exact free.2
      · exact free.1.2
  | assigned found _ =>
      have sees := fits.1
      have free := Fits.free fits
      rw [Expression.nodes, free_cons_expression, free_append] at free
      exact ⟨keeping_placeOf (keeps.inner sees) free.1 _ _ _ unshadowed found, sees, trivial,
        free.2⟩
  | argument found inOrder =>
      have sees := fits.1
      have free := Fits.free fits
      rw [Expression.nodes, free_cons_expression, free_append] at free
      exact stands_of_inOrder keeps inOrder sees
        (keeping_calleeOf (keeps.inner sees) free.1 _ _ _ unshadowed found) free.2
  | called found evaluated _ =>
      have sees := fits.1
      have free := Fits.free fits
      rw [Expression.nodes, free_cons_expression, free_append] at free
      refine ⟨keeping_mapM (keeps.inner sees) free.2 _ _ _ ?_ evaluated, trivial⟩
      exact keeping_calleeOf (keeps.inner sees) free.1 _ _ _ unshadowed found
  | constructed found evaluated =>
      have sees := fits.1
      have free := Fits.free fits
      rw [Expression.nodes, free_cons_expression, free_append] at free
      refine ⟨keeping_mapM (keeps.inner sees) free.2 _ _ _ ?_ evaluated, trivial⟩
      exact keeps.inner sees _ free.1 _ _ _ unshadowed found
  | initialized _ _ => exact ⟨unshadowed.cells rfl rfl, trivial⟩
  | @entered address closure receiver arguments statements _ found _ _ body =>
      obtain ⟨sees, spares⟩ := unshadowed.closures address closure found
      refine ⟨unshadowed.addFrame ?_, List.mem_cons_of_mem _ sees, sparing_of_block spares body⟩
      exact lookup_callFrame receiver arguments apart (deeply_iff.mp spares).1.parameters
  | @answered address closure receiver arguments expression _ found _ _ body =>
      obtain ⟨sees, spares⟩ := unshadowed.closures address closure found
      refine ⟨unshadowed.addFrame ?_, List.mem_cons_of_mem _ sees, sparing_of_result spares body⟩
      exact lookup_callFrame receiver arguments apart (deeply_iff.mp spares).1.parameters
  | @subject scope label statement expression _ first =>
      refine ⟨unshadowed, fits.1, ?_⟩
      have spares := fits.2
      cases statement with
      | evaluate expression | raise expression =>
          cases first
          rw [Parts.OnStatement] at spares
          exact spares
      | giveBack argument =>
          cases first
          rw [Parts.OnStatement] at spares
          exact spares _ rfl
      | branch test consequent alternate =>
          cases first
          rw [Parts.OnStatement] at spares
          exact spares.1
      | _ => cases first
  | block =>
      obtain ⟨sees, spares⟩ := fits
      rw [Parts.OnStatement] at spares
      exact ⟨unshadowed_enterFrame unshadowed, List.mem_cons_of_mem _ sees, spares⟩
  | labeled =>
      obtain ⟨sees, spares⟩ := fits
      rw [Parts.OnStatement] at spares
      exact ⟨unshadowed, sees, spares⟩
  | consequent evaluated _ =>
      obtain ⟨sees, spares⟩ := fits
      rw [Parts.OnStatement] at spares
      exact ⟨keeps.inner sees _ spares.1.2 _ _ _ unshadowed evaluated, sees, spares.2.1⟩
  | alternate evaluated _ =>
      obtain ⟨sees, spares⟩ := fits
      rw [Parts.OnStatement] at spares
      exact ⟨keeps.inner sees _ spares.1.2 _ _ _ unshadowed evaluated, sees, spares.2.2⟩
  | whileLoop =>
      obtain ⟨sees, spares⟩ := fits
      rw [Parts.OnStatement] at spares
      exact ⟨unshadowed, sees, Parts.onOptional_some spares.1, Parts.onOptional_none, spares.2⟩
  | firstRound =>
      obtain ⟨sees, spares⟩ := fits
      rw [Parts.OnStatement] at spares
      exact ⟨unshadowed, sees, spares.2⟩
  | doWhileLoop ended _ =>
      obtain ⟨sees, spares⟩ := fits
      rw [Parts.OnStatement] at spares
      exact ⟨keeps.execute sees none spares.2 _ _ _ unshadowed ended, sees,
        Parts.onOptional_some spares.1, Parts.onOptional_none, spares.2⟩
  | loopVariable initializes =>
      obtain ⟨sees, spares⟩ := fits
      rw [Parts.OnStatement] at spares
      exact stands_of_initializes keeps initializes (List.mem_cons_of_mem _ sees)
        (unshadowed_enterFrame unshadowed) spares.1
  | loopStart =>
      obtain ⟨sees, spares⟩ := fits
      rw [Parts.OnStatement] at spares
      exact ⟨unshadowed_enterFrame unshadowed, List.mem_cons_of_mem _ sees, spares.1⟩
  | forLoop started =>
      obtain ⟨sees, spares⟩ := fits
      rw [Parts.OnStatement] at spares
      exact ⟨keeping_startLoop (keeps.inner (List.mem_cons_of_mem _ sees)) spares.1 _ _ _
        (unshadowed_enterFrame unshadowed) started, List.mem_cons_of_mem _ sees, spares.2⟩
  | «variable» initializes =>
      obtain ⟨sees, spares⟩ := fits
      rw [Parts.OnStatement] at spares
      exact stands_of_initializes keeps initializes sees unshadowed spares
  | statement hoisted ended =>
      obtain ⟨sees, spares⟩ := fits
      have prepared := keeping_hoist sees spares _ _ _ unshadowed hoisted
      rw [Parts.onStatements_append, Parts.OnStatements] at spares
      refine ⟨keeping_inTurn _ (fun statement member => ?_) _ _ _ prepared ended, sees, spares.2.1⟩
      exact keeps.execute sees none (Parts.onStatements_iff.mp spares.1 statement member)
  | tested => exact ⟨unshadowed, fits.1, fits.2.1 _ rfl⟩
  | round goesOn =>
      obtain ⟨sees, tests, _, spares⟩ := fits
      exact ⟨keeping_testRound (keeps.inner sees) tests _ _ _ unshadowed goesOn, sees, spares⟩
  | stepped goesOn ended _ =>
      obtain ⟨sees, tests, steps, spares⟩ := fits
      have between := keeping_testRound (keeps.inner sees) tests _ _ _ unshadowed goesOn
      exact ⟨keeps.execute sees none spares _ _ _ between ended, sees, steps _ rfl⟩
  | again goesOn ended _ stepped =>
      obtain ⟨sees, tests, steps, spares⟩ := fits
      have between := keeping_testRound (keeps.inner sees) tests _ _ _ unshadowed goesOn
      have after := keeps.execute sees none spares _ _ _ between ended
      exact ⟨keeping_stepRound (keeps.inner sees) steps _ _ _ after stepped, sees, tests, steps,
        spares⟩

omit keeps in
/-- What stands for a task stands for everything that is performed in the course of it. -/
theorem stands_of_performs {less : Nat} {inner task : Task} (apart : name ≠ "this")
    (performs : Performs less inner start fuel task machine) :
    Stands name value task machine → Stands name value inner start := by
  induction performs with
  | itself => exact id
  | part part _ induction =>
      exact fun stands => induction (stands_of_part (keepsAll apart _) apart part stands)

/-! ## Runs of programs -/

omit keeps

end Covenant.Contract
