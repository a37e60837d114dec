import Covenant.Proofs.Finished
import Covenant.Proofs.Ledger

/-!
# What is found in an output

What a transformation adds to a program can be told in the output by names
that the program does not have: checkers and constants for values on entry are
declared under such names, and calls of checkers are wrapped around what is
returned.  Guards cannot be told from branches of the program itself, so
branches are counted.

The counts of all functions at every depth add up to the count of a program.
-/

namespace Covenant

open Contract

/-! ## What can be found -/

mutual

/-- How many calls of functions that are not among some names are wrapped around an expression. -/
def Expression.wraps (names : List String) : Expression → Nat
  | .call (.identifier name) arguments =>
    if names.contains name then 0 else wrapsOfArguments names arguments
  | _ => 0

/-- The same for the arguments of such a call, of which there must be one. -/
def wrapsOfArguments (names : List String) : List Expression → Nat
  | [argument] => argument.wraps names + 1
  | _ => 0

end

/-- The same for what is returned. -/
def wrapsOfReturned (names : List String) : Option Expression → Nat
  | none => 0
  | some argument => argument.wraps names

/-- Whether a function is an arrow function with a block. -/
def Function.isBlockArrow (function : Function) : Bool :=
  function.isArrow && function.block?.isSome

/--
Whether a declaration is one of a constant arrow function with a block, whose
name is not among some names.
-/
def declaresChecker (names : List String) : DeclarationKind → List Declarator → Bool
  | .constant, [⟨name, some (.lambda function)⟩] => function.isBlockArrow && !names.contains name
  | _, _ => false

/-- Whether a declaration is one of another constant whose name is not among some names. -/
def declaresConstant (names : List String) : DeclarationKind → List Declarator → Bool
  | .constant, [⟨_, some (.lambda _)⟩] => false
  | .constant, [⟨name, some _⟩] => !names.contains name
  | _, _ => false

namespace Tally

/-- The tally of declarations of checkers. -/
def checkers (names : List String) : Tally :=
  { zero with declared := fun kind declarators => (declaresChecker names kind declarators).toNat }

/-- The tally of declarations of constants for values on entry. -/
def constants (names : List String) : Tally :=
  { zero with declared := fun kind declarators => (declaresConstant names kind declarators).toNat }

/-- The tally of calls wrapped around what is returned. -/
def wrapped (names : List String) : Tally :=
  { zero with returned := wrapsOfReturned names }

end Tally

namespace Program

/-- The functions of a program whose bodies are blocks. -/
def blockFunctions (program : Program) : List Function :=
  program.functions.filter fun function => function.block?.isSome

/-- The count of the statements of a program and of all its functions. -/
def count (tally : Tally) (program : Program) : Nat :=
  tally.ofStatements program.statements +
    ((program.functions.filterMap Function.block?).map tally.ofStatements).sum

end Program

/-! ## Counts at every depth -/

/-- The sum of what the functions among nodes are worth. -/
def sumOfFunctions (worth : Function → Nat) (nodes : List Node) : Nat :=
  ((functionsOf nodes).map worth).sum

section

variable (worth : Function → Nat)

@[simp]
theorem sumOfFunctions_nil : sumOfFunctions worth [] = 0 :=
  rfl

@[simp]
theorem sumOfFunctions_cons_expression (expression : Expression) (nodes : List Node) :
    sumOfFunctions worth (.expression expression :: nodes) = sumOfFunctions worth nodes :=
  rfl

@[simp]
theorem sumOfFunctions_cons_statement (statement : Statement) (nodes : List Node) :
    sumOfFunctions worth (.statement statement :: nodes) = sumOfFunctions worth nodes :=
  rfl

@[simp]
theorem sumOfFunctions_append (first second : List Node) :
    sumOfFunctions worth (first ++ second) =
      sumOfFunctions worth first + sumOfFunctions worth second := by
  simp [sumOfFunctions]

@[simp]
theorem sumOfFunctions_function (function : Function) :
    sumOfFunctions worth (function.nodes false) = worth function := by
  simp [sumOfFunctions, Function.nodes_false]

theorem sumOfFunctions_eq_zero {nodes : List Node} (none : functionsOf nodes = []) :
    sumOfFunctions worth nodes = 0 := by
  simp [sumOfFunctions, none]

/-- What is worth the functions inside them adds up over all depths. -/
theorem Unfolds.sumOfFunctions {shallow deep : List Node} (unfolds : Unfolds shallow deep) :
    Covenant.sumOfFunctions worth deep =
      Covenant.sumOfFunctions (fun function => (function.withInner.map worth).sum) shallow := by
  rw [Covenant.sumOfFunctions, unfolds, Covenant.sumOfFunctions, List.map_flatMap]
  induction functionsOf shallow with
  | nil => rfl
  | cons function rest induction => simp [induction]

end

section

variable (settings : Settings) (names : List String) (own : Place → List Statement → Nat)
  (scale fuel : Nat)

/-- A multiple of what is counted throughout a function. -/
def multiple (function : Function) : Nat :=
  scale * throughout settings names own fuel function

variable {function : Function}

theorem multiple_block {statements : List Statement} (shape : function.body = .block statements) :
    multiple settings names own scale (fuel + 1) function =
      scale * own (.function function.name) statements +
        (((survivors settings (.function function.name) names).ofStatements statements).map
          (multiple settings names own scale fuel)).sum := by
  rw [multiple, throughout, shape, Nat.mul_add, ← List.sum_map_mul_left]
  rfl

theorem multiple_result {expression : Expression} (shape : function.body = .result expression) :
    multiple settings names own scale (fuel + 1) function =
      sumOfFunctions (multiple settings names own scale fuel) (expression.nodes false) := by
  rw [multiple, throughout, shape, sumOfFunctions]
  exact (List.sum_map_mul_left _ _ _).symm

theorem mul_throughout (program : Program) :
    scale * program.throughout settings own =
      scale * own .topLevel program.statements +
        (((survivors settings .topLevel program.allNames).ofStatements program.statements).map
          (multiple settings program.allNames own scale program.functions.length)).sum := by
  rw [Program.throughout, Nat.mul_add, ← List.sum_map_mul_left]
  rfl

end

/-- The tally of the functions in declarations that introduce none of some names. -/
def Tally.others (names : List String) (worth : Function → Nat) : Tally :=
  { Tally.zero with
    loop := fun declarators =>
      if introduces names declarators then 0
      else sumOfFunctions worth (nodesOfDeclarators false declarators)
    declared := fun _ declarators =>
      if introduces names declarators then 0
      else sumOfFunctions worth (nodesOfDeclarators false declarators) }

namespace Weights

variable (weights : Weights) (names : List String)

/-- The tally of the statements of one function, functions in them apart. -/
def tally : Tally :=
  { Tally.zero with
    returned := fun argument => weights.route * wrapsOfReturned names argument
    branch := weights.guard
    declared := fun kind declarators =>
      weights.helper * (declaresChecker names kind declarators).toNat +
        weights.old * (declaresConstant names kind declarators).toNat }

/-- What a function is worth by itself. -/
def own (function : Function) : Nat :=
  match function.body with
  | .block statements => weights.function + (weights.tally names).ofStatements statements
  | .result _ => 0

/-- What a function is worth with the functions inside it. -/
def inside (function : Function) : Nat :=
  (function.withInner.map (weights.own names)).sum

/-- The tally of the statements of one function with the functions of checkers. -/
def checking : Tally :=
  { weights.tally names with
    loop := (Tally.others names (weights.inside names)).loop
    declared := fun kind declarators =>
      (weights.tally names).declared kind declarators +
        (Tally.others names (weights.inside names)).declared kind declarators }

/-- What branches are worth that are left of a function and of the functions in it. -/
def gives (settings : Settings) : Nat → Function → Nat :=
  multiple settings names (fun place => (Tally.left settings place Tally.branches).ofStatements)
    weights.guard

/-- What the routings are worth that are undone in a function and in the functions in it. -/
def loses (settings : Settings) : Nat → Function → Nat :=
  multiple settings names (fun place => undoneOfAll settings place 0) weights.route

end Weights

section

variable {weights : Weights} {names : List String}

theorem inside_block {function : Function} {statements : List Statement}
    (shape : function.body = .block statements) :
    weights.inside names function =
      weights.function + (weights.tally names).ofStatements statements +
        sumOfFunctions (weights.inside names) (nodesOfStatements false statements) := by
  rw [Weights.inside, Function.withInner_eq, List.map_cons, List.sum_cons, Weights.own, shape]
  have inner := (unfoldsOfStatements statements).sumOfFunctions (weights.own names)
  exact congrArg _ inner

theorem inside_result {function : Function} {expression : Expression}
    (shape : function.body = .result expression) :
    weights.inside names function =
      sumOfFunctions (weights.inside names) (expression.nodes false) := by
  rw [Weights.inside, Function.withInner_eq, List.map_cons, List.sum_cons, Weights.own, shape]
  have inner := expression.unfolds.sumOfFunctions (weights.own names)
  rw [Nat.zero_add]
  exact inner

theorem tally_guard {calls : Bool} {guard : Statement} (plain : IsPlainGuard calls guard) :
    (weights.tally names).ofStatement guard = weights.guard := by
  obtain ⟨test, message, rfl, _, _⟩ := plain
  rfl

/-- The function of a checker is worth its guards, and as a function. -/
theorem inside_checker {checker : Checker}
    (plain : ∀ guard ∈ checker.guards, IsPlainGuard true guard) (parameter : String) :
    weights.inside names (checker.function parameter) =
      weights.function + weights.guard * checker.guards.length := by
  have none : functionsOf (nodesOfStatements false (checker.statements parameter)) = [] := by
    refine List.eq_nil_iff_forall_not_mem.mpr fun function member => ?_
    exact (Parts.onStatements_all _).mp (checker.onStatements_all plain parameter fun _ => False)
      function member
  have guards : (weights.tally names).ofStatements checker.guards =
      weights.guard * checker.guards.length :=
    Tally.ofStatements_of_each fun guard member => tally_guard (plain guard member)
  have shape : (checker.function parameter).body = .block (checker.statements parameter) := rfl
  rw [inside_block shape, sumOfFunctions_eq_zero _ none, Checker.statements,
    Tally.ofStatements_append, guards]
  rfl

/-- Everything that a walk adds can be found, at its worth. -/
theorem charges_checking : (weights.checking names).Charges weights names where
  guard := by
    rintro calls guard ⟨test, message, rfl, _, _⟩
    rfl
  check _ := rfl
  declaration := by
    intro checker parameter unknown plain
    have apart : names.contains checker.name = false := by simpa using unknown
    have others : introduces names
        [⟨checker.name, some (.lambda (checker.function parameter))⟩] = false := by
      simp [introduces, unknown]
    have functions : sumOfFunctions (weights.inside names) (nodesOfDeclarators false
        [⟨checker.name, some (.lambda (checker.function parameter))⟩]) =
        weights.inside names (checker.function parameter) := by
      simp [nodesOfDeclarators, nodesOfOptional, Expression.nodes]
    have arrow : (checker.function parameter).isBlockArrow = true := rfl
    simp only [Checker.declaration, Tally.ofStatement, Weights.checking, Weights.tally, arrow,
      Tally.others, declaresChecker, declaresConstant, others, functions,
      inside_checker plain parameter, Weights.ofChecker, apart]
    simp
    omega
  constant := by
    rintro ⟨name, init⟩ unknown plain
    have apart : names.contains name = false := by simpa using unknown
    have none : functionsOf (nodesOfDeclarators false [⟨name, some init⟩]) = [] := by
      simp [nodesOfDeclarators, nodesOfOptional, init.functionsOf_plain plain]
    have other : declaresChecker names .constant [⟨name, some init⟩] = false ∧
        declaresConstant names .constant [⟨name, some init⟩] = true := by
      cases init with
      | lambda => cases plain
      | _ => exact ⟨rfl, by simp only [declaresConstant, apart, Bool.not_false]⟩
    simp only [Tally.ofStatement, Weights.checking, Weights.tally, Tally.others,
      sumOfFunctions_eq_zero _ none, other]
    simp
  routed := by
    intro checker unknown
    have apart : names.contains checker.name = false := by simpa using unknown
    refine ⟨fun argument => ?_, fun _ => rfl, rfl, fun _ => rfl, fun _ _ => rfl, fun _ => rfl,
      fun _ _ same => same⟩
    cases argument <;>
      simp [Weights.checking, Weights.tally, Tally.returns, wrapsOfReturned, Checker.call,
        Expression.wraps, wrapsOfArguments, unknown, Nat.mul_add]
  labeled _ _ := rfl

end

/-! ## Wrapped calls in a source and in related trees -/

/-- Nothing that has known names only is wrapped. -/
theorem Expression.wraps_of_known {names : List String} {expression : Expression}
    (known : ∀ node ∈ expression.nodes true, ∀ name ∈ node.occurringNames, name ∈ names) :
    expression.wraps names = 0 := by
  cases expression with
  | call callee arguments =>
      cases callee with
      | identifier name =>
          have among : name ∈ names := by
            refine known (.expression (.identifier name)) ?_ name List.mem_cons_self
            simp [Expression.nodes]
          simp [Expression.wraps, among]
      | _ => rfl
  | _ => rfl

section

set_option linter.unusedSectionVars false

variable {exchange : Exchange} (kept : ∀ source target, ¬ exchange.expression source target)
  (names : List String)

include kept

mutual

/-- Calls are wrapped around related expressions equally often. -/
theorem Exchange.OnExpression.wraps {source target : Expression} :
    OnExpression exchange source target → target.wraps names = source.wraps names
  | .exchanged given => (kept _ _ given).elim
  | .call callee arguments => by
      cases callee with
      | exchanged given => exact (kept _ _ given).elim
      | identifier =>
          rw [Expression.wraps, Expression.wraps, OnExpressions.wraps arguments]
      | _ => rfl
  | .literal _ | .identifier _ | .receiver | .array _ | .record _ | .lambda _ | .unary _
  | .update _ | .binary _ _ | .logical _ _ | .assign _ _ | .conditional _ _ _ | .construct _ _
  | .member _ | .index _ _ | .sequence _ | .yield _ | .await _ => rfl

theorem Exchange.OnExpressions.wraps {source target : List Expression} :
    OnExpressions exchange source target →
      wrapsOfArguments names target = wrapsOfArguments names source
  | .nil => rfl
  | .cons argument .nil => by
      rw [wrapsOfArguments, wrapsOfArguments, OnExpression.wraps argument]
  | .cons _ (.cons _ _) => rfl

end

end

/-- Declarations of several variables are none of those that a transformation adds. -/
theorem not_declares_of_several (names : List String) (kind : DeclarationKind)
    (first second : Declarator) (rest : List Declarator) :
    declaresChecker names kind (first :: second :: rest) = false ∧
      declaresConstant names kind (first :: second :: rest) = false := by
  obtain ⟨name, _ | init⟩ := first
  · cases kind <;> exact ⟨rfl, rfl⟩
  · cases kind <;> cases init <;> exact ⟨rfl, rfl⟩

/-- Related declarations declare checkers alike, and constants alike. -/
theorem Exchange.OnDeclarators.declares {exchange : Exchange}
    (kept : ∀ source target, ¬ exchange.expression source target)
    (arrows : ∀ {source target}, exchange.function source target →
      target.isBlockArrow = source.isBlockArrow)
    (names : List String) (kind : DeclarationKind) {source target : List Declarator}
    (related : exchange.OnDeclarators source target) :
    declaresChecker names kind target = declaresChecker names kind source ∧
      declaresConstant names kind target = declaresConstant names kind source := by
  cases related with
  | nil => exact ⟨rfl, rfl⟩
  | cons known init rest =>
      cases rest with
      | cons =>
          obtain ⟨checker, constant⟩ := not_declares_of_several names kind _ _ _
          obtain ⟨checker', constant'⟩ := not_declares_of_several names kind _ _ _
          exact ⟨checker.trans checker'.symm, constant.trans constant'.symm⟩
      | nil =>
          cases init with
          | none => exact ⟨rfl, rfl⟩
          | some init =>
              cases init with
              | exchanged given => exact (kept _ _ given).elim
              | lambda inner =>
                  cases kind <;> exact ⟨by simp only [declaresChecker, arrows inner], rfl⟩
              | _ => cases kind <;> exact ⟨rfl, rfl⟩

section

variable {weights : Weights} {names : List String}

/-- Transforming the functions in statements does not change what is counted besides them. -/
theorem kept_tally {transform : Function → Transforming Function} {earliest latest : Work}
    (arrows : ∀ {source target : Function} {work after : Work},
      transform source work = .ok (target, after) → target.isBlockArrow = source.isBlockArrow) :
    Tally.Kept (nestedExchange transform earliest latest) (weights.tally names) where
  expression _ := rfl
  returned inner := by
    cases inner with
    | none => rfl
    | some inner =>
        exact congrArg (weights.route * ·) (inner.wraps (fun _ _ absurd => absurd) names)
  loop _ := rfl
  declared {kind _ _} inner := by
    have alike {source target : Function}
        (related : (nestedExchange transform earliest latest).function source target) :
        target.isBlockArrow = source.isBlockArrow := by
      obtain ⟨_, _, _, outcome, _⟩ := related
      exact arrows outcome
    obtain ⟨checker, constant⟩ := inner.declares (fun _ _ absurd => absurd) alike names kind
    simp only [Weights.tally, checker, constant]
  function _ := rfl
  statement given := by rw [given.1]
  labeled _ _ := rfl

theorem not_declares_of_known {kind : DeclarationKind} {declarators : List Declarator}
    (known : ∀ name ∈ namesOfDeclarators declarators, name ∈ names) :
    declaresChecker names kind declarators = false ∧
      declaresConstant names kind declarators = false := by
  rcases declarators with _ | ⟨⟨name, init⟩, _ | ⟨second, rest⟩⟩
  · cases kind <;> exact ⟨rfl, rfl⟩
  · have among : name ∈ names := known name List.mem_cons_self
    cases init with
    | none => cases kind <;> exact ⟨rfl, rfl⟩
    | some init =>
        cases kind <;> cases init <;> simp [declaresChecker, declaresConstant, among]
  · exact not_declares_of_several names kind _ second rest

/-- A declaration that introduces no known name is empty, if all its names are known. -/
theorem eq_nil_of_introduces {declarators : List Declarator}
    (known : ∀ name ∈ namesOfDeclarators declarators, name ∈ names)
    (others : introduces names declarators = false) : declarators = [] := by
  cases declarators with
  | nil => rfl
  | cons declarator rest =>
      have among := known declarator.name List.mem_cons_self
      simp [introduces, among] at others

/-- A program that has known names only counts for nothing but its branches. -/
theorem combines_checking {size : Nat} :
    Tally.Combines (Parts.within (Bounded size (· ∈ names)) (· ∈ names)) (weights.checking names)
      weights.guard Tally.branches Tally.zero := by
  have others {kind : DeclarationKind} {declarators : List Declarator}
      (known : ∀ name ∈ namesOfDeclarators declarators, name ∈ names) :
      (Tally.others names (weights.inside names)).declared kind declarators = 0 := by
    simp only [Tally.others]
    split
    · rfl
    case isFalse unknown =>
      rw [eq_nil_of_introduces known (Bool.eq_false_iff.mpr unknown)]
      rfl
  refine ⟨fun _ => by simp [Weights.checking, Weights.tally, Tally.branches, Tally.zero], ?_,
    by simp [Weights.checking, Weights.tally, Tally.branches, Tally.zero], fun given => ?_,
    fun {kind _} given => ?_,
    fun _ => by simp [Weights.checking, Weights.tally, Tally.branches, Tally.zero], ?_⟩
  · rintro (_ | argument) given
    · rfl
    · have none := Expression.wraps_of_known (given argument rfl).names
      simp [Weights.checking, Weights.tally, Tally.branches, Tally.zero, wrapsOfReturned, none]
  · exact @others .constant _ given.2
  · obtain ⟨checker, constant⟩ := @not_declares_of_known names kind _ given.2
    simp [Weights.checking, Weights.tally, Tally.branches, Tally.zero, checker, constant,
      others given.2]
  · intro label body _ same
    rwa [Tally.ofStatement_labeled rfl, Tally.ofStatement_labeled rfl,
      Tally.ofStatement_labeled rfl]

/-- The functions of checkers are counted besides the rest of the statements. -/
theorem ofStatements_checking (statements : List Statement) :
    (weights.checking names).ofStatements statements =
      (weights.tally names).ofStatements statements +
        (Tally.others names (weights.inside names)).ofStatements statements := by
  have combines : Tally.Combines ⟨fun _ => True, fun _ => True, fun _ => True⟩
      (weights.checking names) 1 (weights.tally names)
      (Tally.others names (weights.inside names)) := by
    refine ⟨fun _ => rfl, fun _ => ?_, ?_, fun _ => ?_, fun _ => ?_, fun _ => rfl, ?_⟩
    · simp [Weights.checking, Tally.others, Tally.zero]
    · simp [Weights.checking, Tally.others, Tally.zero]
    · simp [Weights.checking, Weights.tally, Tally.zero]
    · simp [Weights.checking]
    · intro label body _ same
      rwa [Tally.ofStatement_labeled rfl, Tally.ofStatement_labeled rfl,
        Tally.ofStatement_labeled rfl]
  have whole := Tally.ofStatements_combines combines statements
    (Parts.onStatements_of_all (fun _ => trivial) (fun _ => trivial) (fun _ => trivial) statements)
  rwa [Nat.one_mul] at whole

/-- What functions are worth by themselves: each for its block and for what is in the block. -/
theorem sum_own (functions : List Function) :
    (functions.map (weights.own names)).sum =
      weights.function * (functions.filter fun function => function.block?.isSome).length +
        ((functions.filterMap Function.block?).map (weights.tally names).ofStatements).sum := by
  induction functions with
  | nil => rfl
  | cons function rest induction =>
      cases shape : function.body <;>
        simp only [List.map_cons, List.sum_cons, List.filter_cons, List.filterMap_cons,
          Weights.own, Function.block?, shape, Option.isSome, induction]
      · simp [Nat.mul_add]
        omega
      · simp

/-- The counts of a program and of its functions at every depth, added up. -/
theorem sum_inside (program : Program) :
    (weights.tally names).ofStatements program.statements +
        sumOfFunctions (weights.inside names) (nodesOfStatements false program.statements) =
      weights.function * program.blockFunctions.length + program.count (weights.tally names) := by
  have inner := (unfoldsOfStatements program.statements).sumOfFunctions (weights.own names)
  have own := @sum_own weights names program.functions
  have same : sumOfFunctions (weights.own names) (nodesOfStatements true program.statements) =
      (program.functions.map (weights.own names)).sum :=
    rfl
  change _ = sumOfFunctions (weights.inside names) _ at inner
  rw [← inner, same, own, Program.count, Program.blockFunctions]
  omega

end

end Covenant
