import Covenant.Proofs.Reference
import Covenant.Proofs.Routed

/-!
# Nothing but returned values passes through helpers

Apart from returned values, the expressions in the statements of a transformed
function do not refer to helpers: they refer to names of the program and to
the constructor of errors.  The one exception is the bare call of a helper,
which wraps no expression.
-/

namespace Covenant.Contract

/-! ## Statements apart from their returned values -/

mutual

/-- Returns that are changed twice. -/
theorem mapReturns_mapReturns (first second : Option Expression → Option Expression) :
    (statement : Statement) →
      mapReturns second (mapReturns first statement) = mapReturns (second ∘ first) statement
  | .giveBack argument => by
      rw [mapReturns, mapReturns, mapReturns, Function.comp_apply]
  | .block statements => by
      rw [mapReturns, mapReturns, mapReturns, mapReturnsOfAll_mapReturnsOfAll first second statements]
  | .labeled _ body => by
      rw [mapReturns, mapReturns, mapReturns, mapReturns_mapReturns first second body]
  | .branch _ consequent alternate => by
      rw [mapReturns, mapReturns, mapReturns, mapReturns_mapReturns first second consequent,
        mapReturnsOfAlternate_mapReturnsOfAlternate first second alternate]
  | .whileLoop _ body | .doWhileLoop body _ | .forLoop _ _ _ body => by
      rw [mapReturns, mapReturns, mapReturns, mapReturns_mapReturns first second body]
  | .evaluate _ | .bindings _ _ | .declare _ | .raise _ | .breakOut _ | .continueLoop _
  | .empty => by simp [mapReturns]

theorem mapReturnsOfAlternate_mapReturnsOfAlternate
    (first second : Option Expression → Option Expression) :
    (alternate : Option Statement) →
      mapReturnsOfAlternate second (mapReturnsOfAlternate first alternate) =
        mapReturnsOfAlternate (second ∘ first) alternate
  | none => by
      rw [mapReturnsOfAlternate, mapReturnsOfAlternate, mapReturnsOfAlternate]
  | some statement => by
      rw [mapReturnsOfAlternate, mapReturnsOfAlternate, mapReturnsOfAlternate,
        mapReturns_mapReturns first second statement]

/-- Returns of statements that are changed twice. -/
theorem mapReturnsOfAll_mapReturnsOfAll (first second : Option Expression → Option Expression) :
    (statements : List Statement) →
      mapReturnsOfAll second (mapReturnsOfAll first statements) =
        mapReturnsOfAll (second ∘ first) statements
  | [] => by
      rw [mapReturnsOfAll, mapReturnsOfAll, mapReturnsOfAll]
  | statement :: rest => by
      rw [mapReturnsOfAll, mapReturnsOfAll, mapReturnsOfAll,
        mapReturns_mapReturns first second statement,
        mapReturnsOfAll_mapReturnsOfAll first second rest]

end

/-- Returned values of which nothing is left. -/
def omitted : Option Expression → Option Expression :=
  fun _ => none

/-- A change of returned values to which it makes no difference whether they are routed. -/
def Absorbs (change : Option Expression → Option Expression) : Prop :=
  ∀ checker : Checker, change ∘ checker.passing id = change

theorem absorbs_omitted : Absorbs omitted :=
  fun _ => rfl

/-- Routing changes the returns of a statement. -/
theorem route_eq_mapReturns (checker : Checker) (statement : Statement) :
    checker.route statement = mapReturns (checker.passing id) statement := by
  rw [← route_mapReturns, mapReturns_id]

end Covenant.Contract

namespace Covenant.Parts

open Contract

variable {parts : Parts} {change : Option Expression → Option Expression}

/-- Every part of a statement meets its requirement once its returned values are changed. -/
def Under (parts : Parts) (change : Option Expression → Option Expression)
    (statement : Statement) : Prop :=
  parts.OnStatement (mapReturns change statement)

/-- Every part of statements meets its requirement once their returned values are changed. -/
def UnderAll (parts : Parts) (change : Option Expression → Option Expression)
    (statements : List Statement) : Prop :=
  ∀ statement ∈ statements, parts.Under change statement

theorem underAll_iff {statements : List Statement} :
    parts.UnderAll change statements ↔
      parts.OnStatements (mapReturnsOfAll change statements) := by
  induction statements with
  | nil => simp [UnderAll, mapReturnsOfAll, OnStatements]
  | cons statement rest induction =>
      rw [mapReturnsOfAll, OnStatements, ← induction]
      simp [UnderAll, Under]

theorem underAll_append {first second : List Statement} :
    parts.UnderAll change (first ++ second) ↔
      parts.UnderAll change first ∧ parts.UnderAll change second := by
  simp [UnderAll, or_imp, forall_and]

theorem underAll_cons {statement : Statement} {rest : List Statement} :
    parts.UnderAll change (statement :: rest) ↔
      parts.Under change statement ∧ parts.UnderAll change rest := by
  simp [UnderAll]

theorem underAll_singleton {statement : Statement} :
    parts.UnderAll change [statement] ↔ parts.Under change statement := by
  simp [UnderAll]

theorem under_block {statements : List Statement} :
    parts.Under change (.block statements) ↔ parts.UnderAll change statements := by
  rw [Under, mapReturns, OnStatement, underAll_iff]

theorem under_labeled {label : String} {body : Statement} :
    parts.Under change (.labeled label body) ↔ parts.Under change body := by
  rw [Under, mapReturns, OnStatement, Under]

theorem under_branch {test : Expression} {consequent : Statement} :
    parts.Under change (.branch test consequent none) ↔
      parts.expression test ∧ parts.Under change consequent := by
  simp [Under, mapReturns, OnStatement, mapReturnsOfAlternate, OnAlternate]

theorem under_branches {test : Expression} {consequent alternate : Statement} :
    parts.Under change (.branch test consequent (some alternate)) ↔
      parts.expression test ∧ parts.Under change consequent ∧ parts.Under change alternate := by
  simp [Under, mapReturns, OnStatement, mapReturnsOfAlternate, OnAlternate]

theorem under_whileLoop {test : Expression} {body : Statement} :
    parts.Under change (.whileLoop test body) ↔
      parts.expression test ∧ parts.Under change body := by
  rw [Under, mapReturns, OnStatement, Under]

theorem under_doWhileLoop {test : Expression} {body : Statement} :
    parts.Under change (.doWhileLoop body test) ↔
      parts.expression test ∧ parts.Under change body := by
  rw [Under, mapReturns, OnStatement, Under]

theorem under_forLoop
    {init : Option LoopInit} {test update : Option Expression} {body : Statement} :
    parts.Under change (.forLoop init test update body) ↔
      parts.OnLoopInit init ∧ parts.OnOptional test ∧ parts.OnOptional update ∧
        parts.Under change body := by
  rw [Under, mapReturns, OnStatement, Under]

/-- What is left of a statement without its label has the same parts. -/
theorem underAll_unlabeled (label : String) (body : Statement) :
    parts.UnderAll change (Statement.labeled label body).unlabeled ↔ parts.Under change body := by
  cases body with
  | block statements => exact under_block.symm
  | _ => exact underAll_singleton

/-- Routing changes returned values only. -/
theorem under_route (absorbs : Absorbs change) (checker : Checker) (statement : Statement) :
    parts.Under change (checker.route statement) ↔ parts.Under change statement := by
  rw [Under, Under, route_eq_mapReturns, mapReturns_mapReturns, absorbs]

theorem underAll_routeAll
    (absorbs : Absorbs change) (checker : Checker) (statements : List Statement) :
    parts.UnderAll change (checker.routeAll statements) ↔ parts.UnderAll change statements := by
  induction statements with
  | nil => rw [Checker.routeAll]
  | cons statement rest induction =>
      rw [Checker.routeAll, underAll_cons, underAll_cons, under_route absorbs, induction]

/-- Statements as they are meet their requirements under no change. -/
theorem underAll_id {statements : List Statement} :
    parts.UnderAll id statements ↔ parts.OnStatements statements := by
  rw [underAll_iff, mapReturnsOfAll_id]

mutual

/-- Requirements on all parts are requirements on those besides returned values. -/
theorem OnStatement.omitting : (statement : Statement) →
    parts.OnStatement statement → parts.Under omitted statement
  | .giveBack _, _ => by
      rw [Under, mapReturns, OnStatement]
      intro given absurd
      cases absurd
  | .block statements, holds => by
      rw [OnStatement] at holds
      exact under_block.mpr (OnStatements.omitting statements holds)
  | .labeled _ body, holds => by
      rw [OnStatement] at holds
      exact under_labeled.mpr (OnStatement.omitting body holds)
  | .branch _ consequent none, holds => by
      rw [OnStatement] at holds
      exact under_branch.mpr ⟨holds.1, OnStatement.omitting consequent holds.2.1⟩
  | .branch _ consequent (some alternate), holds => by
      rw [OnStatement, OnAlternate] at holds
      exact under_branches.mpr ⟨holds.1, OnStatement.omitting consequent holds.2.1,
        OnStatement.omitting alternate holds.2.2⟩
  | .whileLoop _ body, holds => by
      rw [OnStatement] at holds
      exact under_whileLoop.mpr ⟨holds.1, OnStatement.omitting body holds.2⟩
  | .doWhileLoop body _, holds => by
      rw [OnStatement] at holds
      exact under_doWhileLoop.mpr ⟨holds.1, OnStatement.omitting body holds.2⟩
  | .forLoop _ _ _ body, holds => by
      rw [OnStatement] at holds
      exact under_forLoop.mpr ⟨holds.1, holds.2.1, holds.2.2.1,
        OnStatement.omitting body holds.2.2.2⟩
  | .evaluate _, holds | .bindings _ _, holds | .declare _, holds | .raise _, holds
  | .breakOut _, holds | .continueLoop _, holds | .empty, holds => by
      simpa [Under, mapReturns] using holds

theorem OnStatements.omitting : (statements : List Statement) →
    parts.OnStatements statements → parts.UnderAll omitted statements
  | [], _ => List.forall_mem_nil _
  | statement :: rest, holds => by
      rw [OnStatements] at holds
      exact underAll_cons.mpr ⟨OnStatement.omitting statement holds.1,
        OnStatements.omitting rest holds.2⟩

end

/-- Statements under a change meet every weaker requirement. -/
theorem Under.imp {first second : Parts} (implies : first.Implies second) {statement : Statement}
    (holds : first.Under change statement) : second.Under change statement :=
  OnStatement.imp implies _ holds

end Covenant.Parts

namespace Covenant.Contract

/-! ## What may be referred to -/

/-- Parts that refer to known names only. -/
def referring (known : String → Prop) : Parts where
  expression := Expression.Refers known
  function _ := True
  declared declarators := ∀ name ∈ references (nodesOfDeclarators false declarators), known name

/-- Parts that refer to known names only, apart from bare calls. -/
def unwrapped (known : String → Prop) : Parts where
  expression expression :=
    expression.Refers known ∨ ∃ name, expression = .call (.identifier name) []
  function _ := True
  declared declarators := ∀ name ∈ references (nodesOfDeclarators false declarators), known name

theorem referring_implies (known : String → Prop) :
    (referring known).Implies (unwrapped known) where
  expression := .inl
  function := id
  declared := id

variable {known : String → Prop} {change : Option Expression → Option Expression}

/-- The check of a helper wraps nothing. -/
theorem unwrapped_check (checker : Checker) : (unwrapped known).Under change checker.check := by
  rw [Parts.Under, Checker.check, mapReturns, Parts.OnStatement]
  · exact .inr ⟨checker.name, rfl⟩
  all_goals intros; contradiction

theorem unwrapped_exitCheck (checker : Checker) (statements : List Statement) :
    (unwrapped known).UnderAll change (checker.exitCheck statements) := by
  unfold Checker.exitCheck
  split
  · exact List.forall_mem_nil _
  · exact Parts.underAll_singleton.mpr (unwrapped_check checker)

/-- The declaration of a helper wraps nothing. -/
theorem unwrapped_declaration (checker : Checker) (parameter : String) :
    (unwrapped known).Under change (checker.declaration parameter) := by
  rw [Parts.Under, Checker.declaration, mapReturns, Parts.OnStatement]
  · change ∀ name ∈ references _, known name
    rw [nodesOfDeclarators, nodesOfOptional, Expression.nodes, Function.nodes_false]
    exact List.forall_mem_nil _
  all_goals intros; contradiction

/-- The clause of a condition refers to what the condition refers to, and to errors. -/
theorem unwrapped_clause
    (errors : known "Error") {condition : Condition} (refers : condition.Refers known)
    (site : Site) :
    (unwrapped known).Under change (condition.clause site) := by
  have message : (condition.message site).Refers known := by
    have given := (refers.withMessage site).message
    rwa [Condition.withMessage, nodesOfOptional] at given
  rw [Condition.clause, guardClause, Parts.under_branch, Parts.under_block,
    Parts.underAll_singleton, Parts.Under, mapReturns, Parts.OnStatement]
  · refine ⟨.inl ?_, .inl ?_⟩
    · rw [Expression.Refers, Expression.nodes]
      exact refers.test
    · rw [Expression.Refers, Expression.nodes, Expression.nodes, nodesOfExpressions,
        nodesOfExpressions, List.append_nil]
      intro name member
      rcases List.mem_cons.mp member with rfl | inMessage
      · exact errors
      · exact message name inMessage
  all_goals intros; contradiction

mutual

/-- Conditions refer to what the body refers to that states them. -/
theorem refers_of_mem_conditions
    {site : Site} : (body : Statement) → {found : List Condition} →
      (referring known).Under change body → conditions site body = .ok found →
        ∀ condition ∈ found, condition.Refers known
  | .evaluate expression, found, refers, outcome => by
      cases outcome
      intro condition member
      rw [List.mem_singleton.mp member]
      refine Condition.refers_ofExpression ?_
      rw [Parts.Under, mapReturns, Parts.OnStatement] at refers
      · exact refers
      all_goals intros; contradiction
  | .block statements, found, refers, outcome => by
      rw [conditions] at outcome
      exact refers_of_mem_conditionsOfStatements statements (Parts.under_block.mp refers) outcome
  | .empty, found, _, outcome => by
      cases outcome
      exact List.forall_mem_nil _
  | .labeled _ _, _, _, outcome | .giveBack _, _, _, outcome | .branch _ _ _, _, _, outcome
  | .whileLoop _ _, _, _, outcome | .doWhileLoop _ _, _, _, outcome
  | .forLoop _ _ _ _, _, _, outcome | .bindings _ _, _, _, outcome | .declare _, _, _, outcome
  | .raise _, _, _, outcome | .breakOut _, _, _, outcome | .continueLoop _, _, _, outcome => by
      cases outcome

/-- Conditions refer to what the statements refer to that state them. -/
theorem refers_of_mem_conditionsOfStatements
    {site : Site} : (statements : List Statement) → {found : List Condition} →
      (referring known).UnderAll change statements →
        conditionsOfStatements site statements = .ok found →
          ∀ condition ∈ found, condition.Refers known
  | [], found, _, outcome => by
      cases outcome
      exact List.forall_mem_nil _
  | statement :: rest, found, refers, outcome => by
      rw [Parts.underAll_cons] at refers
      rw [conditionsOfStatements] at outcome
      cases first : conditions site statement with
      | error reason =>
          rw [first] at outcome
          cases outcome
      | ok firstFound =>
          cases others : conditionsOfStatements site rest with
          | error reason =>
              rw [first, others] at outcome
              cases outcome
          | ok otherFound =>
              rw [first, others] at outcome
              cases outcome
              intro condition member
              rcases List.mem_append.mp member with inFirst | inOthers
              · exact refers_of_mem_conditions statement refers.1 first condition inFirst
              · exact refers_of_mem_conditionsOfStatements rest refers.2 others condition inOthers

end

/-! ## Constants for values on entry -/

/-- The initial values of all constants of a pass refer to known names. -/
def Pass.InitsRefer (known : String → Prop) (pass : Pass) : Prop :=
  ∀ binding ∈ pass.captured.bindings, binding.init.Refers known

/-- Replacing markers in a condition adds constants that refer to what the condition does. -/
theorem Capture.replaceInCondition_refers
    {marker : String} {condition : Condition} (refers : condition.Refers known) :
    KeepsReferring known (replaceInCondition marker condition) := by
  refine (onExpression_refers condition.test refers.test).bind fun _ => ?_
  exact (onOptional_refers condition.message? refers.message).bind fun _ => .pure _

/-- Making guards adds constants that refer to what the body refers to. -/
theorem initsRefer_of_checkedGuards
    {context : Context} {site : Site} {body : Statement} {guards : List Statement}
    {pass after : Pass} (refers : (referring known).Under change body)
    (inits : pass.InitsRefer known)
    (outcome : checkedGuards context site body pass = .ok (guards, after)) :
    after.InitsRefer known := by
  obtain ⟨prepared, captured, between, preparation, captures, rfl, rfl⟩ :=
    steps_of_checkedGuards outcome
  obtain ⟨found, states, rfl, _⟩ := prepare_eq_ok preparation
  have each := refers_of_mem_conditions body refers states
  cases capturing : context.captures with
  | false =>
      rw [captureOldValues_of_not_captures capturing] at captures
      cases captures
      exact inits
  | true =>
      rw [captureOldValues_of_captures capturing] at captures
      cases captures
      refine Capture.KeepsReferring.mapM _ (fun condition member => ?_) pass.capture inits
      obtain ⟨given, among, rfl⟩ := List.mem_map.mp member
      exact Capture.replaceInCondition_refers ((each given among).withMessage site)

/-! ## Walks -/

/-- A statement refers to known names under a change, or it is the check of a helper. -/
def Untouched (known : String → Prop) (change : Option Expression → Option Expression)
    (statement : Statement) : Prop :=
  (referring known).Under change statement ∨ ∃ checker : Checker, statement = checker.check

/-- A stretch whose statements are unwrapped so far and untouched from there on. -/
def Stretch.Untouched (known : String → Prop) (change : Option Expression → Option Expression) :
    Stretch → Prop
  | list before rest =>
    (unwrapped known).UnderAll change before ∧
      ∀ statement ∈ rest, Contract.Untouched known change statement
  | inside statement | slot statement => Contract.Untouched known change statement

namespace Untouched

theorem unwrapped {statement : Statement} (untouched : Untouched known change statement) :
    (unwrapped known).Under change statement := by
  rcases untouched with refers | ⟨checker, rfl⟩
  · exact refers.imp (referring_implies known)
  · exact unwrapped_check checker

/-- A statement that is not the evaluation of an expression is not the check of a helper. -/
theorem refers {statement : Statement} (untouched : Untouched known change statement)
    (other : ∀ expression, statement ≠ .evaluate expression) :
    (referring known).Under change statement := by
  rcases untouched with refers | ⟨checker, rfl⟩
  · exact refers
  · exact (other _ rfl).elim

theorem route
    {statement : Statement} (untouched : Untouched known change statement)
    (absorbs : Absorbs change) (checker : Checker) :
    Untouched known change (checker.route statement) := by
  rcases untouched with refers | ⟨other, rfl⟩
  · exact .inl ((Parts.under_route absorbs checker statement).mpr refers)
  · refine .inr ⟨other, ?_⟩
    simp [Checker.check, Checker.route]

theorem routeAll
    {statements : List Statement}
    (each : ∀ statement ∈ statements, Untouched known change statement)
    (absorbs : Absorbs change) (checker : Checker) :
    ∀ statement ∈ checker.routeAll statements, Untouched known change statement := by
  induction statements with
  | nil =>
      rw [Checker.routeAll]
      exact List.forall_mem_nil _
  | cons statement rest induction =>
      rw [Checker.routeAll]
      rw [List.forall_mem_cons] at each ⊢
      exact ⟨each.1.route absorbs checker, induction each.2⟩

theorem exitCheck (checker : Checker) (statements : List Statement) :
    ∀ statement ∈ checker.exitCheck statements, Untouched known change statement := by
  unfold Checker.exitCheck
  split
  · exact List.forall_mem_nil _
  · intro statement member
    exact .inr ⟨checker, List.mem_singleton.mp member⟩

end Untouched

/-- A walk wraps nothing but returned values. -/
theorem Walks.unwrapped
    {context : Context} {stretch : Stretch} {pass after : Pass} {result : List Statement}
    (errors : known "Error") (routes : context.place = .topLevel ∨ Absorbs change)
    (walks : Walks context stretch pass result after) :
    stretch.Untouched known change → pass.InitsRefer known →
      (unwrapped known).UnderAll change result ∧ after.InitsRefer known := by
  induction walks with
  | done before pass => exact fun untouched inits => ⟨untouched.1, inits⟩
  | ignored _ _ _ induction =>
      intro untouched inits
      have rest := List.forall_mem_cons.mp untouched.2
      exact induction ⟨Parts.underAll_append.mpr ⟨untouched.1,
        Parts.underAll_singleton.mpr rest.1.unwrapped⟩, rest.2⟩ inits
  | stripped _ _ _ _ induction | removed _ _ _ induction =>
      intro untouched inits
      exact induction ⟨untouched.1, (List.forall_mem_cons.mp untouched.2).2⟩ inits
  | inPlace _ _ _ _ assembles _ induction =>
      intro untouched inits
      have rest := List.forall_mem_cons.mp untouched.2
      obtain ⟨found, states, rfl, _, rfl⟩ := placeGuards_eq_ok assembles
      have body := Parts.under_labeled.mp (rest.1.refers (by simp))
      refine induction ⟨Parts.underAll_append.mpr ⟨untouched.1, fun guard member => ?_⟩, rest.2⟩
        inits
      obtain ⟨condition, among, rfl⟩ := List.mem_map.mp member
      obtain ⟨given, inFound, rfl⟩ := List.mem_map.mp among
      exact unwrapped_clause errors
        ((refers_of_mem_conditions _ body states given inFound).withMessage _) _
  | postcondition _ _ _ assembles names _ induction =>
      intro untouched inits
      have rest := List.forall_mem_cons.mp untouched.2
      obtain ⟨_, _, rfl⟩ := makeChecker_eq_ok names
      have body := Parts.under_labeled.mp (rest.1.refers (by simp))
      have later := initsRefer_of_checkedGuards body inits assembles
      exact induction ⟨untouched.1, rest.2⟩ later
  | @invariant _ _ _ _ _ _ checker _ _ _ _ _ counts _ assembles names _ induction =>
      intro untouched inits
      have absorbs : Absorbs change := by
        rcases routes with topLevel | absorbs
        · simp [Context.ignores, topLevel] at counts
        · exact absorbs
      have rest := List.forall_mem_cons.mp untouched.2
      obtain ⟨_, _, rfl⟩ := makeChecker_eq_ok names
      have body := Parts.under_labeled.mp (rest.1.refers (by simp))
      have later := initsRefer_of_checkedGuards body inits assembles
      refine induction ⟨?_, ?_⟩ later
      · rw [Checker.entry, Parts.underAll_append, Parts.underAll_cons,
          Parts.underAll_singleton, Parts.underAll_routeAll absorbs]
        exact ⟨⟨unwrapped_declaration checker _, unwrapped_check checker⟩, untouched.1⟩
      · exact List.forall_mem_append.mpr
          ⟨Untouched.routeAll rest.2 absorbs checker, Untouched.exitCheck checker _⟩
  | kept _ _ _ _ firstInduction induction | other _ _ _ firstInduction induction =>
      intro untouched inits
      have rest := List.forall_mem_cons.mp untouched.2
      obtain ⟨walked, between⟩ :=
        firstInduction (.inl (Parts.under_labeled.mp (rest.1.refers (by simp)))) inits
      refine induction ⟨Parts.underAll_append.mpr ⟨untouched.1, ?_⟩, rest.2⟩ between
      rw [Parts.underAll_singleton] at walked ⊢
      exact Parts.under_labeled.mpr walked
  | inlined _ _ _ induction =>
      intro untouched inits
      have rest := List.forall_mem_cons.mp untouched.2
      refine induction ⟨untouched.1, List.forall_mem_append.mpr ⟨fun statement member => ?_, rest.2⟩⟩
        inits
      exact .inl ((Parts.underAll_unlabeled _ _).mpr
        (Parts.under_labeled.mp (rest.1.refers (by simp))) statement member)
  | unlabeled _ _ _ firstInduction induction =>
      intro untouched inits
      have rest := List.forall_mem_cons.mp untouched.2
      obtain ⟨walked, between⟩ := firstInduction rest.1 inits
      exact induction ⟨Parts.underAll_append.mpr ⟨untouched.1, walked⟩, rest.2⟩ between
  | simple _ =>
      exact fun untouched inits => ⟨Parts.underAll_singleton.mpr untouched.unwrapped, inits⟩
  | block _ induction =>
      intro untouched inits
      have inner := Parts.under_block.mp (untouched.refers (by simp))
      obtain ⟨walked, last⟩ := induction ⟨List.forall_mem_nil _, fun statement member =>
        .inl (inner statement member)⟩ inits
      exact ⟨Parts.underAll_singleton.mpr (Parts.under_block.mpr walked), last⟩
  | labeled _ induction =>
      intro untouched inits
      obtain ⟨walked, last⟩ :=
        induction (.inl (Parts.under_labeled.mp (untouched.refers (by simp)))) inits
      rw [Parts.underAll_singleton] at walked ⊢
      exact ⟨Parts.under_labeled.mpr walked, last⟩
  | branch _ induction =>
      intro untouched inits
      have inner := Parts.under_branch.mp (untouched.refers (by simp))
      obtain ⟨walked, last⟩ := induction (.inl inner.2) inits
      rw [Parts.underAll_singleton] at walked ⊢
      exact ⟨Parts.under_branch.mpr ⟨.inl inner.1, walked⟩, last⟩
  | branches _ _ firstInduction secondInduction =>
      intro untouched inits
      have inner := Parts.under_branches.mp (untouched.refers (by simp))
      obtain ⟨walked, between⟩ := firstInduction (.inl inner.2.1) inits
      obtain ⟨other, last⟩ := secondInduction (.inl inner.2.2) between
      rw [Parts.underAll_singleton] at walked other ⊢
      exact ⟨Parts.under_branches.mpr ⟨.inl inner.1, walked, other⟩, last⟩
  | whileLoop _ induction =>
      intro untouched inits
      have inner := Parts.under_whileLoop.mp (untouched.refers (by simp))
      obtain ⟨walked, last⟩ := induction (.inl inner.2) inits
      rw [Parts.underAll_singleton] at walked ⊢
      exact ⟨Parts.under_whileLoop.mpr ⟨.inl inner.1, walked⟩, last⟩
  | doWhileLoop _ induction =>
      intro untouched inits
      have inner := Parts.under_doWhileLoop.mp (untouched.refers (by simp))
      obtain ⟨walked, last⟩ := induction (.inl inner.2) inits
      rw [Parts.underAll_singleton] at walked ⊢
      exact ⟨Parts.under_doWhileLoop.mpr ⟨.inl inner.1, walked⟩, last⟩
  | forLoop _ induction =>
      intro untouched inits
      have inner := Parts.under_forLoop.mp (untouched.refers (by simp))
      obtain ⟨walked, last⟩ := induction (.inl inner.2.2.2) inits
      rw [Parts.underAll_singleton] at walked ⊢
      have implies := referring_implies known
      exact ⟨Parts.under_forLoop.mpr ⟨Parts.OnLoopInit.imp implies _ inner.1,
        Parts.OnOptional.imp implies inner.2.1, Parts.OnOptional.imp implies inner.2.2.1, walked⟩,
        last⟩
  | wrapped _ _ induction =>
      intro untouched inits
      obtain ⟨walked, last⟩ := induction ⟨List.forall_mem_nil _, List.forall_mem_singleton.mpr untouched⟩ inits
      exact ⟨Parts.underAll_singleton.mpr (Parts.under_block.mpr walked), last⟩
  | bare _ _ induction => exact induction

end Covenant.Contract
