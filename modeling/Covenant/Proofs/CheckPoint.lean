import Covenant.Proofs.Returns
import Covenant.Proofs.Weaving

/-!
# In which order invariants are checked

The invariants that stand in a list of statements are wired into it one after
the other.  Each puts its declaration and its check in front of what is there
already, so control meets the checks on entry in the reverse of the source
order.  The checks at the end follow each other in source order, and so do the
helpers that a returned value passes through.
-/

namespace Covenant.Contract

/-! ## The invariants of a list -/

section

variable (settings : Settings)

mutual

/--
The bodies of the invariants that a statement contributes to the list around
it, in source order.  The statements of a block are those of that list if they
are spliced.
-/
def standing (spliced : Bool) : Statement → List Statement
  | .block statements => if spliced then standingInAll statements else []
  | .labeled label body =>
    match settings.roleOf label with
    | .contract .invariant => [body]
    | .contract _ | .other => []
    | .environment => if settings.actionFor label = .inline then standing true body else []
  | _ => []

/-- The bodies of the invariants that stand in a list of statements itself. -/
def standingInAll : List Statement → List Statement
  | [] => []
  | statement :: rest => standing false statement ++ standingInAll rest

end

end

section

variable {settings : Settings}

theorem standingInAll_append (first second : List Statement) :
    standingInAll settings (first ++ second) =
      standingInAll settings first ++ standingInAll settings second := by
  induction first with
  | nil => rw [standingInAll, List.nil_append, List.nil_append]
  | cons statement rest induction =>
      rw [List.cons_append, standingInAll, standingInAll, induction, List.append_assoc]

mutual

/-- Routing keeps the invariants of a list, with their bodies routed. -/
theorem standing_route (checker : Checker) (spliced : Bool) : (statement : Statement) →
    standing settings spliced (checker.route statement) =
      (standing settings spliced statement).map checker.route
  | .block statements => by
      rw [Checker.route, standing, standing]
      cases spliced with
      | true => exact standingInAll_routeAll checker statements
      | false => rfl
  | .labeled label body => by
      rw [Checker.route, standing, standing]
      cases settings.roleOf label with
      | contract kind => cases kind <;> rfl
      | other => rfl
      | environment =>
          dsimp only
          split
          · exact standing_route checker true body
          · rfl
  | .giveBack _ | .branch _ _ _ | .whileLoop _ _ | .doWhileLoop _ _ | .forLoop _ _ _ _
  | .evaluate _ | .bindings _ _ | .declare _ | .raise _ | .breakOut _ | .continueLoop _
  | .empty => by
      rfl

theorem standingInAll_routeAll (checker : Checker) : (statements : List Statement) →
    standingInAll settings (checker.routeAll statements) =
      (standingInAll settings statements).map checker.route
  | [] => by
      rfl
  | statement :: rest => by
      rw [Checker.routeAll, standingInAll, standingInAll, List.map_append,
        standing_route checker false statement, standingInAll_routeAll checker rest]

end

/-- What is left of a statement without its label contributes what its body does when spliced. -/
theorem standingInAll_unlabeled (label : String) (body : Statement) :
    standingInAll settings (Statement.labeled label body).unlabeled =
      standing settings true body := by
  cases body with
  | block statements => rfl
  | _ => exact List.append_nil _

/-- A labeled statement contributes nothing if it neither is an invariant nor loses its label. -/
theorem standing_labeled
    {label : String} (kind : settings.roleOf label ≠ .contract .invariant)
    (stays : settings.roleOf label = .environment → settings.actionFor label ≠ .inline)
    (body : Statement) : standing settings false (.labeled label body) = [] := by
  rw [standing]
  cases role : settings.roleOf label with
  | contract other => cases other <;> first | rfl | exact absurd role kind
  | environment => exact if_neg (stays role)
  | other => rfl

/-- A statement without a label contributes nothing. -/
theorem standing_of_plain {statement : Statement} (plain : statement.label? = none) :
    standing settings false statement = [] := by
  cases statement with
  | labeled => cases plain
  | _ => rfl

end

/-! ## Lists that end in a return -/

/-- Statements that follow others decide how the list ends. -/
theorem endsInReturn_append (first : List Statement) {second : List Statement}
    (more : second ≠ []) : endsInReturn (first ++ second) = endsInReturn second := by
  rw [endsInReturn, endsInReturn, List.getLast?_append_of_ne_nil first more]

/-- A list ends in a return behind a statement that is none. -/
theorem endsInReturn_of_middle {before tail : List Statement} {statement : Statement}
    (other : statement.isReturn = false)
    (ends : endsInReturn (before ++ statement :: tail) = true) :
    tail ≠ [] ∧ endsInReturn tail = true := by
  rw [endsInReturn_append before (List.cons_ne_nil _ _)] at ends
  cases tail with
  | nil =>
      have absurd : statement.isReturn = true := ends
      rw [other] at absurd
      cases absurd
  | cons next rest =>
      have split := endsInReturn_append [statement] (List.cons_ne_nil next rest)
      exact ⟨List.cons_ne_nil _ _, split.symm.trans ends⟩

theorem isReturn_route (checker : Checker) (statement : Statement) :
    (checker.route statement).isReturn = statement.isReturn := by
  cases statement <;> rfl

theorem routeAll_eq_map (checker : Checker) (statements : List Statement) :
    checker.routeAll statements = statements.map checker.route := by
  induction statements with
  | nil => rfl
  | cons statement rest induction => rw [Checker.routeAll, induction, List.map_cons]

/-- Routing does not change how a list ends. -/
theorem endsInReturn_routeAll (checker : Checker) (statements : List Statement) :
    endsInReturn (checker.routeAll statements) = endsInReturn statements := by
  rw [routeAll_eq_map, endsInReturn, endsInReturn, List.getLast?_map]
  cases statements.getLast? with
  | none => rfl
  | some last => exact isReturn_route checker last

theorem endsInReturn_checksOf (first : List Statement) {checkers : List Checker}
    (some : checkers ≠ []) : endsInReturn (first ++ checksOf checkers) = false := by
  rw [← List.dropLast_concat_getLast some, checksOf, List.map_append, ← List.append_assoc,
    List.map_singleton, endsInReturn_append _ (List.cons_ne_nil _ _)]
  rfl

/-- A list that ends in a return still does after a walk. -/
theorem Walks.endsInReturn
    {context : Context} {stretch : Stretch} {pass after : Pass} {result : List Statement}
    (walks : Walks context stretch pass result after) :
    Contract.endsInReturn stretch.statements = true → Contract.endsInReturn result = true := by
  induction walks with
  | done => exact fun ends => by rwa [Stretch.statements, List.append_nil] at ends
  | ignored _ _ _ induction =>
      intro ends
      apply induction
      rwa [Stretch.statements, List.append_assoc]
  | stripped _ _ _ _ induction | removed _ _ _ induction
  | postcondition _ _ _ _ _ _ induction =>
      intro ends
      rcases endsInReturn_of_middle rfl ends with ⟨more, ends⟩
      apply induction
      rwa [Stretch.statements, endsInReturn_append _ more]
  | inPlace _ _ _ _ _ _ induction =>
      intro ends
      rcases endsInReturn_of_middle rfl ends with ⟨more, ends⟩
      apply induction
      rwa [Stretch.statements, endsInReturn_append _ more]
  | @invariant before tail _ _ _ _ checker _ _ _ _ _ _ _ _ _ _ induction =>
      intro ends
      rcases endsInReturn_of_middle rfl ends with ⟨more, ends⟩
      have routed : checker.routeAll tail ≠ [] := by
        rw [routeAll_eq_map]
        exact fun none => more (List.map_eq_nil_iff.mp none)
      apply induction
      rw [Stretch.statements, Checker.exitCheck, endsInReturn_append _ routed,
        endsInReturn_routeAll, ends, if_pos rfl, List.append_nil, endsInReturn_append _ routed,
        endsInReturn_routeAll]
      exact ends
  | kept _ _ _ _ _ induction | other _ _ _ _ induction =>
      intro ends
      rcases endsInReturn_of_middle rfl ends with ⟨more, ends⟩
      apply induction
      rwa [Stretch.statements, endsInReturn_append _ more]
  | inlined _ _ _ induction =>
      intro ends
      rcases endsInReturn_of_middle rfl ends with ⟨more, ends⟩
      apply induction
      rwa [Stretch.statements, ← List.append_assoc, endsInReturn_append _ more]
  | @unlabeled before tail _ statement walked _ _ _ _ _ _ firstInduction induction =>
      intro ends
      apply induction
      rw [Stretch.statements, List.append_assoc, List.singleton_append,
        endsInReturn_append _ (List.cons_ne_nil _ _)]
      rw [Stretch.statements, endsInReturn_append _ (List.cons_ne_nil _ _)] at ends
      cases tail with
      | nil => exact firstInduction ends
      | cons next rest =>
          rw [← List.singleton_append, endsInReturn_append _ (List.cons_ne_nil _ _)] at ends ⊢
          exact ends
  | simple => exact id
  | bare _ _ induction => exact induction
  | @wrapped statement _ _ _ recognized =>
      intro ends
      cases statement with
      | giveBack => cases recognized
      | _ => cases ends
  | block | labeled | branch | branches | whileLoop | doWhileLoop | forLoop =>
      exact fun ends => by cases ends

/-! ## Check points -/

/-- What invariants put in front of the statements of their list. -/
def entriesOf (parameter : String) (checkers : List Checker) : List Statement :=
  checkers.flatMap (Checker.entry · parameter)

/-- Statements whose returns are routed through helpers in turn. -/
def routedThrough (checkers : List Checker) (statements : List Statement) : List Statement :=
  checkers.foldl (fun routed checker => checker.routeAll routed) statements

theorem routedThrough_append (checkers : List Checker) : ∀ first second : List Statement,
    routedThrough checkers (first ++ second) =
      routedThrough checkers first ++ routedThrough checkers second := by
  induction checkers with
  | nil => exact fun _ _ => rfl
  | cons checker rest induction =>
      intro first second
      exact (congrArg (routedThrough rest) (routeAll_append checker first second)).trans
        (induction _ _)

/-- What an invariant puts in front has no returns. -/
theorem routedThrough_entry (checker : Checker) (parameter : String) (checkers : List Checker) :
    routedThrough checkers (checker.entry parameter) = checker.entry parameter := by
  induction checkers with
  | nil => rfl
  | cons _ _ induction => exact induction

/-- The checks of helpers where control can fall off the end of statements. -/
def exitChecks (checkers : List Checker) (statements : List Statement) : List Statement :=
  if endsInReturn statements then [] else checksOf checkers

/--
The check points around the inner part of a list: the invariants stand in front
in reverse order, the statements that came first are routed, and the checks at
the end, some of which were pending before, stand in order.
-/
def ChecksAround (parameter : String) (checkers : List Checker) (before inner : List Statement)
    (pending : List Checker) (result : List Statement) : Prop :=
  result = entriesOf parameter checkers.reverse ++ routedThrough checkers before ++ inner ++
    checksOf pending ++ exitChecks checkers result

namespace ChecksAround

variable {parameter : String} {checker : Checker} {checkers pending : List Checker}
  {before more inner result : List Statement}

/-- What was done later may count as lying in between. -/
theorem absorb (around : ChecksAround parameter checkers (before ++ more) inner pending result) :
    ChecksAround parameter checkers before (routedThrough checkers more ++ inner) pending
      result := by
  refine around.trans ?_
  rw [routedThrough_append]
  simp only [List.append_assoc]

/-- The front of a list with one more invariant. -/
theorem front (checker : Checker) (checkers : List Checker) (before : List Statement) :
    entriesOf parameter checkers.reverse ++
        routedThrough checkers (checker.entry parameter ++ checker.routeAll before) =
      entriesOf parameter (checker :: checkers).reverse ++
        routedThrough (checker :: checkers) before := by
  rw [routedThrough_append, routedThrough_entry, List.reverse_cons, entriesOf, entriesOf,
    List.flatMap_append, List.flatMap_singleton, List.append_assoc]
  rfl

/-- An invariant whose check stands at the end. -/
theorem attach
    (around : ChecksAround parameter checkers
      (checker.entry parameter ++ checker.routeAll before) inner (pending ++ [checker]) result) :
    ChecksAround parameter (checker :: checkers) before inner pending result := by
  have falls : endsInReturn result = false := by
    rw [around, exitChecks]
    split
    · rw [List.append_nil]
      exact endsInReturn_checksOf _ (List.append_ne_nil_of_right_ne_nil _ (List.cons_ne_nil _ _))
    · rw [List.append_assoc, checksOf, checksOf, ← List.map_append]
      apply endsInReturn_checksOf
      simp
  refine around.trans ?_
  rw [front, exitChecks, exitChecks, falls, checksOf, List.map_append]
  simp only [checksOf, List.append_assoc]
  rfl

/-- An invariant of a list that ends in a return. -/
theorem attach_of_endsInReturn (ends : endsInReturn result = true)
    (around : ChecksAround parameter checkers
      (checker.entry parameter ++ checker.routeAll before) inner pending result) :
    ChecksAround parameter (checker :: checkers) before inner pending result := by
  refine around.trans ?_
  rw [front, exitChecks, exitChecks, ends, if_pos rfl, if_pos rfl]

/-- Where only checks are left, no more are added. -/
theorem checks (equal : result = before ++ checksOf pending) :
    ChecksAround parameter [] before [] pending result := by
  rw [ChecksAround, exitChecks, equal]
  split <;> simp [entriesOf, routedThrough, checksOf]

end ChecksAround

/-- The check points of a list. -/
def CheckPoints (parameter : String) (checkers : List Checker) (before : List Statement)
    (pending : List Checker) (result : List Statement) : Prop :=
  ∃ inner, ChecksAround parameter checkers before inner pending result

/-! ## Walks -/

/-- A labeled statement in front of pending checks is one of those before them. -/
theorem exists_rest_of_labeled {label : String} {body : Statement} {tail rest : List Statement}
    {pending : List Checker}
    (equal : .labeled label body :: tail = rest ++ checksOf pending) :
    ∃ more, rest = .labeled label body :: more ∧ tail = more ++ checksOf pending := by
  cases rest with
  | nil => cases pending <;> cases equal
  | cons statement more =>
      cases equal
      exact ⟨more, rfl, rfl⟩

theorem settledAll_checksOf (settings : Settings) (place : Place) (checkers : List Checker) :
    SettledAll settings place (checksOf checkers) := by
  induction checkers with
  | nil => exact trivial
  | cons checker rest induction =>
      rw [checksOf, List.map_cons, SettledAll]
      exact ⟨settled_of_isSimple false rfl, induction⟩

/-- A walk over checks leaves them where they are. -/
theorem Walks.eq_of_checks
    {context : Context} {before result : List Statement} {checkers : List Checker}
    {pass after : Pass}
    (walks : Walks context (.list before (checksOf checkers)) pass result after) :
    result = before ++ checksOf checkers := by
  have outcome := walks_list_iff.mp walks
  rw [walkBlock_of_settled _ (settledAll_checksOf _ _ _)] at outcome
  cases outcome
  rfl

/--
The check points of a list of statements that are walked: each invariant that
stands among them has a helper, in source order.
-/
def Arranged (context : Context) (captured : OldBindings) (before rest : List Statement)
    (pending : List Checker) (result : List Statement) : Prop :=
  ∃ checkers,
    List.Forall₂ (Checker.Enforces context .invariant captured)
        (standingInAll context.settings rest) checkers ∧
      CheckPoints context.settings.tokens.result checkers before pending result

namespace Arranged

variable {context : Context} {captured : OldBindings} {before more rest result : List Statement}
  {statement : Statement} {pending : List Checker}

/-- What was done later may count as lying in between. -/
theorem absorb (arranged : Arranged context captured (before ++ more) rest pending result) :
    Arranged context captured before rest pending result := by
  rcases arranged with ⟨checkers, enforce, inner, around⟩
  exact ⟨checkers, enforce, _, around.absorb⟩

/-- A statement that contributes nothing may stand in front. -/
theorem skip (arranged : Arranged context captured before rest pending result)
    (nothing : standing context.settings false statement = []) :
    Arranged context captured before (statement :: rest) pending result := by
  rwa [Arranged, standingInAll, nothing, List.nil_append]

/-- Where only checks are left, no more are added. -/
theorem checks (equal : result = before ++ checksOf pending) :
    Arranged context captured before [] pending result :=
  ⟨[], .nil, [], .checks equal⟩

/-- An invariant is wired into the list that it stands in. -/
theorem attach {label : String} {body : Statement} {checker : Checker}
    (role : context.settings.roleOf label = .contract .invariant)
    (enforces : checker.Enforces context .invariant captured body)
    (wired : endsInReturn result = true ∧
        Arranged context captured
          (checker.entry context.settings.tokens.result ++ checker.routeAll before)
          (checker.routeAll rest) pending result ∨
      Arranged context captured
        (checker.entry context.settings.tokens.result ++ checker.routeAll before)
        (checker.routeAll rest) (pending ++ [checker]) result) :
    Arranged context captured before (.labeled label body :: rest) pending result := by
  have heads {checkers : List Checker}
      (enforce : List.Forall₂ (Checker.Enforces context .invariant captured)
        (standingInAll context.settings (checker.routeAll rest)) checkers) :
      List.Forall₂ (Checker.Enforces context .invariant captured)
        (standingInAll context.settings (.labeled label body :: rest)) (checker :: checkers) := by
    rw [standingInAll_routeAll] at enforce
    rw [standingInAll, standing, role]
    exact .cons enforces ((List.forall₂_map_left_iff.mp enforce).imp fun _ _ => .of_routed)
  rcases wired with ⟨ends, checkers, enforce, inner, around⟩ | ⟨checkers, enforce, inner, around⟩
  · exact ⟨checker :: checkers, heads enforce, inner, around.attach_of_endsInReturn ends⟩
  · exact ⟨checker :: checkers, heads enforce, inner, around.attach⟩

end Arranged

/--
A stretch that is a list has check points after its walk.  The check at the end
of an invariant is still walked over, so the list may end in pending ones.
-/
def Stretch.HasCheckPoints (context : Context) (captured : OldBindings)
    (result : List Statement) : Stretch → Prop
  | list before tail => ∀ rest pending, tail = rest ++ checksOf pending →
      Arranged context captured before rest pending result
  | inside _ | slot _ => True

/-- A walk gives every list the check points of the invariants that stand in it. -/
theorem Walks.hasCheckPoints
    {context : Context} {stretch : Stretch} {pass after : Pass} {result : List Statement}
    (place : context.place ≠ .topLevel) (keeps : context.settings.stripsContracts = false)
    (walks : Walks context stretch pass result after) :
    stretch.HasCheckPoints context after.captured result := by
  have heeded (kind : Kind) : context.ignores kind = false := by simp [Context.ignores, place]
  induction walks with
  | done before =>
      intro rest pending equal
      rcases List.append_eq_nil_iff.mp equal.symm with ⟨rfl, nothing⟩
      apply Arranged.checks
      rw [nothing, List.append_nil]
  | @ignored _ _ _ _ _ kind _ _ _ ignores =>
      rw [heeded kind] at ignores
      cases ignores
  | stripped _ _ strips =>
      rw [keeps] at strips
      cases strips
  | inPlace role _ _ kind _ _ induction =>
      intro rest pending equal
      rcases exists_rest_of_labeled equal with ⟨more, rfl, rfl⟩
      apply (induction more pending rfl).absorb.skip
      apply standing_labeled
      · rcases kind with rfl | rfl <;> simp [role]
      · simp [role]
  | postcondition role _ _ _ _ _ induction =>
      intro rest pending equal
      rcases exists_rest_of_labeled equal with ⟨more, rfl, rfl⟩
      exact (induction more pending rfl).skip
        (standing_labeled (by simp [role]) (by simp [role]) _)
  | @invariant before _ _ _ _ _ checker _ _ _ _ role _ _ assembles names walked induction =>
      intro rest pending equal
      rcases exists_rest_of_labeled equal with ⟨more, rfl, rfl⟩
      rcases makeChecker_eq_ok names with ⟨same, _, rfl⟩
      have ended := walked.endsInReturn
      have late := walked.precedes.captured
      rw [Stretch.HasCheckPoints, routeAll_append, routeAll_checksOf] at induction
      rw [Stretch.statements, routeAll_append, routeAll_checksOf] at ended
      apply Arranged.attach role (enforces_of_checkedGuards assembles late same)
      rw [Checker.exitCheck] at induction ended
      -- A list that ends in a return gets no check at its end, and it keeps ending in one.
      split at induction
      case isTrue ends =>
        rw [if_pos ends, List.append_nil] at ended
        exact .inl ⟨ended ends, induction _ _ (List.append_nil _)⟩
      case isFalse =>
        apply Or.inr
        apply induction
        rw [checksOf, checksOf, List.map_append, List.append_assoc]
        rfl
  | kept role action _ _ _ induction =>
      intro rest pending equal
      rcases exists_rest_of_labeled equal with ⟨more, rfl, rfl⟩
      exact (induction more pending rfl).absorb.skip
        (standing_labeled (by simp [role]) (by simp [action]) _)
  | other role _ _ _ induction =>
      intro rest pending equal
      rcases exists_rest_of_labeled equal with ⟨more, rfl, rfl⟩
      exact (induction more pending rfl).absorb.skip
        (standing_labeled (by simp [role]) (by simp [role]) _)
  | removed role action _ induction =>
      intro rest pending equal
      rcases exists_rest_of_labeled equal with ⟨more, rfl, rfl⟩
      exact (induction more pending rfl).skip
        (standing_labeled (by simp [role]) (by simp [action]) _)
  | inlined role action _ induction =>
      intro rest pending equal
      rcases exists_rest_of_labeled equal with ⟨more, rfl, rfl⟩
      have arranged := induction _ pending (List.append_assoc _ _ _).symm
      rw [Arranged, standingInAll_append, standingInAll_unlabeled] at arranged
      rw [Arranged, standingInAll, standing]
      simp only [role, action, if_true]
      exact arranged
  | unlabeled plain first walked _ induction =>
      intro rest pending equal
      cases rest with
      | nil =>
          have whole := Walks.unlabeled plain first walked
          rw [equal, List.nil_append] at whole
          exact .checks whole.eq_of_checks
      | cons statement more =>
          cases equal
          exact (induction more pending rfl).absorb.skip (standing_of_plain plain)
  | simple | block | labeled | branch | branches | whileLoop | doWhileLoop | forLoop | wrapped
  | bare =>
      trivial

/-! ## Functions -/

theorem routedThrough_nil (checkers : List Checker) : routedThrough checkers [] = [] := by
  induction checkers with
  | nil => rfl
  | cons _ _ induction => exact induction

/-- A return that is routed through helpers in turn passes through the first one innermost. -/
theorem routedThrough_giveBack (checkers : List Checker) : ∀ argument : Option Expression,
    routedThrough checkers [.giveBack argument] = [.giveBack (passed checkers argument)] := by
  induction checkers with
  | nil => exact fun _ => rfl
  | cons _ _ induction => exact fun argument => induction _

theorem routedThrough_entriesOf (parameter : String) (checkers others : List Checker) :
    routedThrough checkers (entriesOf parameter others) = entriesOf parameter others := by
  induction others with
  | nil => exact routedThrough_nil checkers
  | cons other rest induction =>
      rw [entriesOf, List.flatMap_cons, routedThrough_append, routedThrough_entry]
      exact congrArg _ induction

theorem routedThrough_checksOf (checkers others : List Checker) :
    routedThrough checkers (checksOf others) = checksOf others := by
  induction checkers with
  | nil => rfl
  | cons checker rest induction =>
      exact (congrArg (routedThrough rest) (routeAll_checksOf checker others)).trans induction

/-- The postconditions of a function route its returns in turn and are checked at its end in turn. -/
theorem applyPostconditions_eq (checkers : List Checker) : ∀ statements : List Statement,
    checkers.foldl applyPostcondition statements =
      routedThrough checkers statements ++ exitChecks checkers statements := by
  induction checkers with
  | nil =>
      intro statements
      rw [exitChecks, checksOf, List.map_nil, ite_self, List.append_nil]
      rfl
  | cons checker rest induction =>
      intro statements
      rw [List.foldl_cons, induction, applyPostcondition, Checker.appendExitCheck,
        routedThrough_append, Checker.exitCheck, endsInReturn_routeAll, exitChecks, exitChecks]
      cases ends : endsInReturn statements with
      | true =>
          rw [if_pos rfl, if_pos rfl, List.append_nil, endsInReturn_routeAll, if_pos ends,
            routedThrough_nil, List.append_nil]
          rfl
      | false =>
          have falls : endsInReturn (checker.routeAll statements ++ [checker.check]) = false :=
            endsInReturn_checksOf _ (List.cons_ne_nil checker [])
          have kept : routedThrough rest [checker.check] = [checker.check] :=
            routedThrough_checksOf rest [checker]
          simp only [falls, kept, Bool.false_eq_true, if_false, List.append_assoc]
          rfl

/--
In a walk over the statements of a function, the invariants that stand in the
list of its body are declared and checked in front of everything else, the last
one first.  Where control can fall off the end, they are checked there in source
order, and the postconditions behind them in theirs.
-/
theorem Walks.checkPoints_of_finish
    {context : Context} {statements result : List Statement} {pass after : Pass}
    (place : context.place ≠ .topLevel) (keeps : context.settings.stripsContracts = false)
    (starts : pass.postconditions = [])
    (walks : Walks context (.list [] statements) pass result after) :
    ∃ invariants inner,
      List.Forall₂ (Checker.Enforces context .invariant after.captured)
          (standingInAll context.settings statements) invariants ∧
        List.Forall₂ (Checker.Enforces context .postcondition after.captured)
            ((stated context.settings .postcondition).ofStatements statements)
            after.postconditions ∧
          finish context.settings.tokens.result after result =
            prologue context.settings.tokens.result after ++
              entriesOf context.settings.tokens.result invariants.reverse ++ inner ++
              exitChecks (invariants ++ after.postconditions) result := by
  have arranged := walks.hasCheckPoints place keeps statements [] (List.append_nil _).symm
  rcases arranged with ⟨invariants, enforce, inner, equal⟩
  refine ⟨invariants, routedThrough after.postconditions inner, enforce,
    walks.enforced_postconditions place keeps starts, ?_⟩
  have routed : routedThrough after.postconditions result =
      entriesOf context.settings.tokens.result invariants.reverse ++
        routedThrough after.postconditions inner ++ exitChecks invariants result := by
    have kept : routedThrough after.postconditions (exitChecks invariants result) =
        exitChecks invariants result := by
      rw [exitChecks]
      split
      · exact routedThrough_nil _
      · exact routedThrough_checksOf _ _
    rw [ChecksAround, routedThrough_nil, checksOf, List.map_nil, List.append_nil,
      List.append_nil] at equal
    conv => lhs; rw [equal]
    rw [routedThrough_append, routedThrough_append, routedThrough_entriesOf, kept]
  have checks : exitChecks (invariants ++ after.postconditions) result =
      exitChecks invariants result ++ exitChecks after.postconditions result := by
    rw [exitChecks, exitChecks, exitChecks, checksOf, List.map_append]
    split <;> rfl
  rw [finish, applyPostconditions_eq, routed, checks]
  simp only [List.append_assoc]

end Covenant.Contract
