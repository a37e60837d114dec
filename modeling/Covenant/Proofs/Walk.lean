import Covenant.Contract.Transform
import Covenant.Proofs.Step

/-!
# What a walk does

A walk over statements is described here by rules, one for each thing that a
walk can do.  The rules and the functions that perform a walk say the same:
`walks_iff` takes a successful walk apart and puts one together.

Everything else about walks is proved by induction on the rules, so no later
proof looks into the functions themselves.
-/

namespace Covenant.Contract

namespace Pass

/-- A pass after a change of its summary. -/
def counted (pass : Pass) (change : Summary → Summary) : Pass :=
  { pass with work := { pass.work with summary := change pass.work.summary } }

/-- A pass with one more postcondition. -/
def withPostcondition (pass : Pass) (checker : Checker) : Pass :=
  { pass with postconditions := pass.postconditions ++ [checker] }

end Pass

namespace Summary

/-- One more labeled statement was removed. -/
def addStripped (summary : Summary) : Summary :=
  { summary with stripped := summary.stripped + 1 }

/-- One more environment label was dropped from its code. -/
def addInlined (summary : Summary) : Summary :=
  { summary with inlined := summary.inlined + 1 }

/-- More returns were routed through a checker. -/
def addRouted (returns : Nat) (summary : Summary) : Summary :=
  { summary with returnsRouted := summary.returnsRouted + returns }

end Summary

theorem count_apply (change : Summary → Summary) (pass : Pass) :
    count change pass = .ok ((), pass.counted change) :=
  rfl

theorem addPostcondition_apply (checker : Checker) (pass : Pass) :
    addPostcondition checker pass = .ok ((), pass.withPostcondition checker) :=
  rfl

/-- Whether a statement contains no other statements, functions not entered. -/
def isSimple : Statement → Bool
  | .block _ | .labeled _ _ | .branch _ _ _ | .whileLoop _ _ | .doWhileLoop _ _
  | .forLoop _ _ _ _ => false
  | _ => true

/-- A stretch of a walk. -/
inductive Stretch where
  /-- The statements of a list, those in `before` being done. -/
  | list (before rest : List Statement)
  /-- The statements nested in a statement. -/
  | inside (statement : Statement)
  /-- A statement that stands alone in its place. -/
  | slot (statement : Statement)

/-- Perform a stretch of a walk. -/
def Stretch.perform (context : Context) : Stretch → Walking (List Statement)
  | list before rest => walkBlock context before rest
  | inside statement => do
    let walked ← walkChildren context statement
    pure [walked]
  | slot statement => do
    let walked ← walkSlot context statement
    pure [walked]

/--
What a walk makes of a stretch.  A statement that is looked at by itself
becomes a list of one statement.
-/
inductive Walks (context : Context) :
    Stretch → Pass → List Statement → Pass → Prop where
  | done (before : List Statement) (pass : Pass) :
      Walks context (.list before []) pass before pass
  | ignored
      {before tail result : List Statement} {label : String} {body : Statement}
      {kind : Kind} {pass after : Pass}
      (role : context.settings.roleOf label = .contract kind)
      (ignores : context.ignores kind = true)
      (rest : Walks context (.list (before ++ [.labeled label body]) tail) pass result after) :
      Walks context (.list before (.labeled label body :: tail)) pass result after
  | stripped
      {before tail result : List Statement} {label : String} {body : Statement}
      {kind : Kind} {pass after : Pass}
      (role : context.settings.roleOf label = .contract kind)
      (counts : context.ignores kind = false)
      (strips : context.settings.stripsContracts = true)
      (rest : Walks context (.list before tail) (pass.counted .addStripped) result after) :
      Walks context (.list before (.labeled label body :: tail)) pass result after
  | inPlace
      {before tail result guards : List Statement} {label : String} {body : Statement}
      {kind : Kind} {pass between after : Pass}
      (role : context.settings.roleOf label = .contract kind)
      (counts : context.ignores kind = false)
      (keeps : context.settings.stripsContracts = false)
      (place : kind = .precondition ∨ kind = .assertion)
      (assembles : placeGuards ⟨kind, context.owner⟩ body pass = .ok (guards, between))
      (rest : Walks context (.list (before ++ guards) tail) between result after) :
      Walks context (.list before (.labeled label body :: tail)) pass result after
  | postcondition
      {before tail result guards : List Statement} {label : String} {body : Statement}
      {checker : Checker} {pass guarded named after : Pass}
      (role : context.settings.roleOf label = .contract .postcondition)
      (counts : context.ignores .postcondition = false)
      (keeps : context.settings.stripsContracts = false)
      (assembles :
        checkedGuards context ⟨.postcondition, context.owner⟩ body pass = .ok (guards, guarded))
      (names :
        makeChecker ⟨.postcondition, context.owner⟩ "Postcondition" guards guarded =
          .ok (checker, named))
      (rest : Walks context (.list before tail) (named.withPostcondition checker) result after) :
      Walks context (.list before (.labeled label body :: tail)) pass result after
  | invariant
      {before tail result guards : List Statement} {label : String} {body : Statement}
      {checker : Checker} {pass guarded named after : Pass}
      (role : context.settings.roleOf label = .contract .invariant)
      (counts : context.ignores .invariant = false)
      (keeps : context.settings.stripsContracts = false)
      (assembles :
        checkedGuards context ⟨.invariant, context.owner⟩ body pass = .ok (guards, guarded))
      (names :
        makeChecker ⟨.invariant, context.owner⟩ "Invariant" guards guarded = .ok (checker, named))
      (rest :
        Walks context
          (.list (checker.entry context.settings.tokens.result ++ checker.routeAll before)
            (checker.routeAll tail ++
              checker.exitCheck
                (checker.entry context.settings.tokens.result ++ checker.routeAll before ++
                  checker.routeAll tail)))
          (named.counted (.addRouted (countReturnsOfAll (before ++ tail)))) result after) :
      Walks context (.list before (.labeled label body :: tail)) pass result after
  | kept
      {before tail result : List Statement} {label : String} {body walked : Statement}
      {pass between after : Pass}
      (role : context.settings.roleOf label = .environment)
      (action : context.settings.actionFor label = .keep)
      (first : Walks context (.slot body) pass [walked] between)
      (rest : Walks context (.list (before ++ [.labeled label walked]) tail) between result after) :
      Walks context (.list before (.labeled label body :: tail)) pass result after
  | removed
      {before tail result : List Statement} {label : String} {body : Statement}
      {pass after : Pass}
      (role : context.settings.roleOf label = .environment)
      (action : context.settings.actionFor label = .remove)
      (rest : Walks context (.list before tail) (pass.counted .addStripped) result after) :
      Walks context (.list before (.labeled label body :: tail)) pass result after
  | inlined
      {before tail result : List Statement} {label : String} {body : Statement}
      {pass after : Pass}
      (role : context.settings.roleOf label = .environment)
      (action : context.settings.actionFor label = .inline)
      (rest :
        Walks context (.list before ((Statement.labeled label body).unlabeled ++ tail))
          (pass.counted .addInlined) result after) :
      Walks context (.list before (.labeled label body :: tail)) pass result after
  | other
      {before tail result : List Statement} {label : String} {body walked : Statement}
      {pass between after : Pass}
      (role : context.settings.roleOf label = .other)
      (first : Walks context (.slot body) pass [walked] between)
      (rest : Walks context (.list (before ++ [.labeled label walked]) tail) between result after) :
      Walks context (.list before (.labeled label body :: tail)) pass result after
  | unlabeled
      {before tail result : List Statement} {statement walked : Statement}
      {pass between after : Pass}
      (plain : statement.label? = none)
      (first : Walks context (.inside statement) pass [walked] between)
      (rest : Walks context (.list (before ++ [walked]) tail) between result after) :
      Walks context (.list before (statement :: tail)) pass result after
  | simple
      {statement : Statement} {pass : Pass}
      (simple : isSimple statement = true) :
      Walks context (.inside statement) pass [statement] pass
  | block
      {statements walked : List Statement} {pass after : Pass}
      (first : Walks context (.list [] statements) pass walked after) :
      Walks context (.inside (.block statements)) pass [.block walked] after
  | labeled
      {label : String} {body walked : Statement} {pass after : Pass}
      (first : Walks context (.slot body) pass [walked] after) :
      Walks context (.inside (.labeled label body)) pass [.labeled label walked] after
  | branch
      {test : Expression} {consequent walked : Statement} {pass after : Pass}
      (first : Walks context (.slot consequent) pass [walked] after) :
      Walks context (.inside (.branch test consequent none)) pass
        [.branch test walked none] after
  | branches
      {test : Expression} {consequent alternate walked other : Statement}
      {pass between after : Pass}
      (first : Walks context (.slot consequent) pass [walked] between)
      (second : Walks context (.slot alternate) between [other] after) :
      Walks context (.inside (.branch test consequent (some alternate))) pass
        [.branch test walked (some other)] after
  | whileLoop
      {test : Expression} {body walked : Statement} {pass after : Pass}
      (first : Walks context (.slot body) pass [walked] after) :
      Walks context (.inside (.whileLoop test body)) pass [.whileLoop test walked] after
  | doWhileLoop
      {test : Expression} {body walked : Statement} {pass after : Pass}
      (first : Walks context (.slot body) pass [walked] after) :
      Walks context (.inside (.doWhileLoop body test)) pass [.doWhileLoop walked test] after
  | forLoop
      {init : Option LoopInit} {test update : Option Expression} {body walked : Statement}
      {pass after : Pass}
      (first : Walks context (.slot body) pass [walked] after) :
      Walks context (.inside (.forLoop init test update body)) pass
        [.forLoop init test update walked] after
  | wrapped
      {statement : Statement} {walked : List Statement} {pass after : Pass}
      (recognized : context.recognizes statement = true)
      (first : Walks context (.list [] [statement]) pass walked after) :
      Walks context (.slot statement) pass [.block walked] after
  | bare
      {statement walked : Statement} {pass after : Pass}
      (unknown : context.recognizes statement = false)
      (first : Walks context (.inside statement) pass [walked] after) :
      Walks context (.slot statement) pass [walked] after

/-! ## Taking a walk apart -/

theorem label?_eq_none_iff (statement : Statement) :
    statement.label? = none ↔ ∀ label body, statement ≠ .labeled label body := by
  cases statement <;> simp [Statement.label?]

/-- A statement without a label is walked over inside, and so is what follows it. -/
theorem walkBlock_unlabeled
    (context : Context) (before tail : List Statement)
    {statement : Statement} (plain : statement.label? = none) :
    walkBlock context before (statement :: tail) = (do
      let walked ← walkChildren context statement
      walkBlock context (before ++ [walked]) tail) := by
  rw [walkBlock]
  intro label body equal
  rw [equal] at plain
  cases plain

/-- There is nothing to walk over inside a simple statement. -/
theorem walkChildren_simple
    (context : Context) {statement : Statement} (simple : isSimple statement = true) :
    walkChildren context statement = pure statement := by
  cases statement <;> simp [isSimple] at simple <;> rw [walkChildren] <;> simp

/-- A labeled statement is walked over inside like any other place of a single statement. -/
theorem walkChildren_labeled (context : Context) (label : String) (body : Statement) :
    walkChildren context (.labeled label body) = (do
      let walked ← walkSlot context body
      pure (.labeled label walked)) := by
  rw [walkChildren]

/-- Every walk that succeeds follows the rules. -/
theorem walks_of_walkBlock (context : Context) :
    (∀ before rest pass result after,
      walkBlock context before rest pass = .ok (result, after) →
        Walks context (.list before rest) pass result after) ∧
    (∀ statement pass walked after,
      walkChildren context statement pass = .ok (walked, after) →
        Walks context (.inside statement) pass [walked] after) ∧
    (∀ statement pass walked after,
      walkSlot context statement pass = .ok (walked, after) →
        Walks context (.slot statement) pass [walked] after) := by
  apply walkBlock.mutual_induct context
    (fun before rest => ∀ pass result after,
      walkBlock context before rest pass = .ok (result, after) →
        Walks context (.list before rest) pass result after)
    (fun statement => ∀ pass walked after,
      walkChildren context statement pass = .ok (walked, after) →
        Walks context (.inside statement) pass [walked] after)
    (fun statement => ∀ pass walked after,
      walkSlot context statement pass = .ok (walked, after) →
        Walks context (.slot statement) pass [walked] after)
  case case1 =>
    intro before pass result after outcome
    rw [walkBlock, step_pure_eq_ok] at outcome
    obtain ⟨rfl, rfl⟩ := outcome
    exact .done before pass
  case case2 =>
    intro before label body tail kind role ignores induction pass result after outcome
    rw [walkBlock] at outcome
    simp only [role, ignores, if_true] at outcome
    exact .ignored role ignores (induction pass result after outcome)
  case case3 =>
    intro before label body tail kind role counts strips induction pass result after outcome
    rw [walkBlock] at outcome
    simp only [role, counts, strips, if_true, if_false, Bool.false_eq_true] at outcome
    rw [step_bind_of_ok (count_apply _ pass)] at outcome
    exact .stripped role (by simpa using counts) strips (induction _ result after outcome)
  case case4 =>
    intro before label body tail keeps role counts induction pass result after outcome
    rw [walkBlock] at outcome
    simp only [role, counts, keeps, if_false, Bool.false_eq_true] at outcome
    obtain ⟨guards, between, assembles, rest⟩ := step_bind_eq_ok.mp outcome
    exact .inPlace role (by simpa using counts) (by simpa using keeps) (.inl rfl) assembles
      (induction guards between result after rest)
  case case5 =>
    intro before label body tail keeps role counts induction pass result after outcome
    rw [walkBlock] at outcome
    simp only [role, counts, keeps, if_false, Bool.false_eq_true] at outcome
    obtain ⟨guards, between, assembles, rest⟩ := step_bind_eq_ok.mp outcome
    exact .inPlace role (by simpa using counts) (by simpa using keeps) (.inr rfl) assembles
      (induction guards between result after rest)
  case case6 =>
    intro before label body tail keeps role counts induction pass result after outcome
    rw [walkBlock] at outcome
    simp only [role, counts, keeps, if_false, Bool.false_eq_true] at outcome
    obtain ⟨guards, guarded, assembles, outcome⟩ := step_bind_eq_ok.mp outcome
    obtain ⟨checker, named, names, outcome⟩ := step_bind_eq_ok.mp outcome
    rw [step_bind_of_ok (addPostcondition_apply checker named)] at outcome
    exact .postcondition role (by simpa using counts) (by simpa using keeps) assembles names
      (induction _ result after outcome)
  case case7 =>
    intro before label body tail keeps role counts induction pass result after outcome
    rw [walkBlock] at outcome
    simp only [role, counts, keeps, if_false, Bool.false_eq_true] at outcome
    obtain ⟨guards, guarded, assembles, outcome⟩ := step_bind_eq_ok.mp outcome
    obtain ⟨checker, named, names, outcome⟩ := step_bind_eq_ok.mp outcome
    rw [step_bind_of_ok (count_apply _ named)] at outcome
    exact .invariant role (by simpa using counts) (by simpa using keeps) assembles names
      (induction checker _ result after outcome)
  case case8 =>
    intro before label body tail role action bodyInduction induction pass result after outcome
    rw [walkBlock] at outcome
    simp only [role, action] at outcome
    obtain ⟨walked, between, first, rest⟩ := step_bind_eq_ok.mp outcome
    exact .kept role action (bodyInduction pass walked between first)
      (induction walked between result after rest)
  case case9 =>
    intro before label body tail role action induction pass result after outcome
    rw [walkBlock] at outcome
    simp only [role, action] at outcome
    rw [step_bind_of_ok (count_apply _ pass)] at outcome
    exact .removed role action (induction _ result after outcome)
  case case10 =>
    intro before label body tail role action induction pass result after outcome
    rw [walkBlock] at outcome
    simp only [role, action] at outcome
    rw [step_bind_of_ok (count_apply _ pass)] at outcome
    exact .inlined role action (induction _ result after outcome)
  case case11 =>
    intro before label body tail role bodyInduction induction pass result after outcome
    rw [walkBlock] at outcome
    simp only [role] at outcome
    obtain ⟨walked, between, first, rest⟩ := step_bind_eq_ok.mp outcome
    exact .other role (bodyInduction pass walked between first)
      (induction walked between result after rest)
  case case12 =>
    intro before statement tail plain statementInduction induction pass result after outcome
    have unlabeled := (label?_eq_none_iff statement).mpr plain
    rw [walkBlock_unlabeled context before tail unlabeled] at outcome
    obtain ⟨walked, between, first, rest⟩ := step_bind_eq_ok.mp outcome
    exact .unlabeled unlabeled (statementInduction pass walked between first)
      (induction walked between result after rest)
  case case13 =>
    intro statements induction pass walked after outcome
    rw [walkChildren] at outcome
    obtain ⟨walked, between, first, rest⟩ := step_bind_eq_ok.mp outcome
    obtain ⟨rfl, rfl⟩ := step_pure_eq_ok.mp rest
    exact .block (induction pass walked between first)
  case case14 =>
    intro test consequent induction pass walked after outcome
    rw [walkChildren] at outcome
    obtain ⟨walked, between, first, rest⟩ := step_bind_eq_ok.mp outcome
    obtain ⟨rfl, rfl⟩ := step_pure_eq_ok.mp rest
    exact .branch (induction pass walked between first)
  case case15 =>
    intro test consequent alternate consequentInduction alternateInduction pass walked after outcome
    rw [walkChildren] at outcome
    obtain ⟨walked, between, first, outcome⟩ := step_bind_eq_ok.mp outcome
    obtain ⟨other, final, second, rest⟩ := step_bind_eq_ok.mp outcome
    obtain ⟨rfl, rfl⟩ := step_pure_eq_ok.mp rest
    exact .branches (consequentInduction pass walked between first)
      (alternateInduction between other final second)
  case case16 =>
    intro test body induction pass walked after outcome
    rw [walkChildren] at outcome
    obtain ⟨walked, between, first, rest⟩ := step_bind_eq_ok.mp outcome
    obtain ⟨rfl, rfl⟩ := step_pure_eq_ok.mp rest
    exact .whileLoop (induction pass walked between first)
  case case17 =>
    intro body test induction pass walked after outcome
    rw [walkChildren] at outcome
    obtain ⟨walked, between, first, rest⟩ := step_bind_eq_ok.mp outcome
    obtain ⟨rfl, rfl⟩ := step_pure_eq_ok.mp rest
    exact .doWhileLoop (induction pass walked between first)
  case case18 =>
    intro init test update body induction pass walked after outcome
    rw [walkChildren] at outcome
    obtain ⟨walked, between, first, rest⟩ := step_bind_eq_ok.mp outcome
    obtain ⟨rfl, rfl⟩ := step_pure_eq_ok.mp rest
    exact .forLoop (induction pass walked between first)
  case case19 =>
    intro label body induction pass walked after outcome
    rw [walkChildren_labeled] at outcome
    obtain ⟨walked, between, first, rest⟩ := step_bind_eq_ok.mp outcome
    obtain ⟨rfl, rfl⟩ := step_pure_eq_ok.mp rest
    exact .labeled (induction pass walked between first)
  case case20 =>
    intro statement noBlock noBranch noBranches noWhile noDoWhile noFor noLabel pass walked after
      outcome
    have simple : isSimple statement = true := by
      cases statement with
      | block statements => exact (noBlock statements rfl).elim
      | branch test consequent alternate =>
          cases alternate with
          | none => exact (noBranch test consequent rfl).elim
          | some alternate => exact (noBranches test consequent alternate rfl).elim
      | whileLoop test body => exact (noWhile test body rfl).elim
      | doWhileLoop body test => exact (noDoWhile body test rfl).elim
      | forLoop init test update body => exact (noFor init test update body rfl).elim
      | labeled label body => exact (noLabel label body rfl).elim
      | _ => rfl
    rw [walkChildren_simple context simple] at outcome
    obtain ⟨rfl, rfl⟩ := step_pure_eq_ok.mp outcome
    exact .simple simple
  case case21 =>
    intro statement recognized induction pass walked after outcome
    rw [walkSlot, if_pos recognized] at outcome
    obtain ⟨statements, between, first, rest⟩ := step_bind_eq_ok.mp outcome
    obtain ⟨rfl, rfl⟩ := step_pure_eq_ok.mp rest
    exact .wrapped recognized (induction pass statements between first)
  case case22 =>
    intro statement unknown induction pass walked after outcome
    rw [walkSlot, if_neg unknown] at outcome
    exact .bare (by simpa using unknown) (induction pass walked after outcome)

/-! ## Putting a walk together -/

/-- A stretch that is one statement long performs the walk inside that statement. -/
theorem Stretch.perform_inside_eq_ok
    {context : Context} {statement walked : Statement} {pass after : Pass} :
    (Stretch.inside statement).perform context pass = .ok ([walked], after) ↔
      walkChildren context statement pass = .ok (walked, after) := by
  rw [Stretch.perform, step_bind_eq_ok]
  simp [step_pure_eq_ok]

theorem Stretch.perform_slot_eq_ok
    {context : Context} {statement walked : Statement} {pass after : Pass} :
    (Stretch.slot statement).perform context pass = .ok ([walked], after) ↔
      walkSlot context statement pass = .ok (walked, after) := by
  rw [Stretch.perform, step_bind_eq_ok]
  simp [step_pure_eq_ok]

/-- Whatever the rules allow is a walk that succeeds. -/
theorem Walks.perform
    {context : Context} {stretch : Stretch} {pass after : Pass} {result : List Statement}
    (walks : Walks context stretch pass result after) :
    stretch.perform context pass = .ok (result, after) := by
  induction walks with
  | done before pass =>
      rw [Stretch.perform, walkBlock]
      rfl
  | ignored role ignores rest induction =>
      rw [Stretch.perform, walkBlock]
      simp only [role, ignores, if_true]
      exact induction
  | stripped role counts strips rest induction =>
      rw [Stretch.perform, walkBlock]
      simp only [role, counts, strips, if_true, if_false, Bool.false_eq_true]
      exact induction
  | inPlace role counts keeps place assembles rest induction =>
      rw [Stretch.perform, walkBlock]
      rcases place with rfl | rfl <;>
      · simp only [role, counts, keeps, if_false, Bool.false_eq_true]
        rw [step_bind_of_ok assembles]
        exact induction
  | postcondition role counts keeps assembles names rest induction =>
      rw [Stretch.perform, walkBlock]
      simp only [role, counts, keeps, if_false, Bool.false_eq_true]
      rw [step_bind_of_ok assembles, step_bind_of_ok names]
      exact induction
  | invariant role counts keeps assembles names rest induction =>
      rw [Stretch.perform, walkBlock]
      simp only [role, counts, keeps, if_false, Bool.false_eq_true]
      rw [step_bind_of_ok assembles, step_bind_of_ok names]
      exact induction
  | kept role action first rest firstInduction induction =>
      rw [Stretch.perform, walkBlock]
      simp only [role, action]
      rw [step_bind_of_ok (Stretch.perform_slot_eq_ok.mp firstInduction)]
      exact induction
  | removed role action rest induction =>
      rw [Stretch.perform, walkBlock]
      simp only [role, action]
      exact induction
  | inlined role action rest induction =>
      rw [Stretch.perform, walkBlock]
      simp only [role, action]
      exact induction
  | other role first rest firstInduction induction =>
      rw [Stretch.perform, walkBlock]
      simp only [role]
      rw [step_bind_of_ok (Stretch.perform_slot_eq_ok.mp firstInduction)]
      exact induction
  | unlabeled plain first rest firstInduction induction =>
      rw [Stretch.perform, walkBlock_unlabeled _ _ _ plain,
        step_bind_of_ok (Stretch.perform_inside_eq_ok.mp firstInduction)]
      exact induction
  | simple simple =>
      rw [Stretch.perform_inside_eq_ok, walkChildren_simple _ simple]
      rfl
  | block first induction =>
      rw [Stretch.perform] at induction
      rw [Stretch.perform_inside_eq_ok, walkChildren, step_bind_of_ok induction]
      rfl
  | labeled first induction =>
      rw [Stretch.perform_inside_eq_ok, walkChildren_labeled,
        step_bind_of_ok (Stretch.perform_slot_eq_ok.mp induction)]
      rfl
  | branch first induction =>
      rw [Stretch.perform_inside_eq_ok, walkChildren,
        step_bind_of_ok (Stretch.perform_slot_eq_ok.mp induction)]
      rfl
  | branches first second firstInduction secondInduction =>
      rw [Stretch.perform_inside_eq_ok, walkChildren,
        step_bind_of_ok (Stretch.perform_slot_eq_ok.mp firstInduction),
        step_bind_of_ok (Stretch.perform_slot_eq_ok.mp secondInduction)]
      rfl
  | whileLoop first induction =>
      rw [Stretch.perform_inside_eq_ok, walkChildren,
        step_bind_of_ok (Stretch.perform_slot_eq_ok.mp induction)]
      rfl
  | doWhileLoop first induction =>
      rw [Stretch.perform_inside_eq_ok, walkChildren,
        step_bind_of_ok (Stretch.perform_slot_eq_ok.mp induction)]
      rfl
  | forLoop first induction =>
      rw [Stretch.perform_inside_eq_ok, walkChildren,
        step_bind_of_ok (Stretch.perform_slot_eq_ok.mp induction)]
      rfl
  | wrapped recognized first induction =>
      rw [Stretch.perform] at induction
      rw [Stretch.perform_slot_eq_ok, walkSlot, if_pos recognized, step_bind_of_ok induction]
      rfl
  | bare unknown first induction =>
      rw [Stretch.perform_slot_eq_ok, walkSlot, if_neg (by simp [unknown])]
      exact Stretch.perform_inside_eq_ok.mp induction

/-- A walk over statements follows the rules just if it succeeds. -/
theorem walks_list_iff
    {context : Context} {before rest result : List Statement} {pass after : Pass} :
    Walks context (.list before rest) pass result after ↔
      walkBlock context before rest pass = .ok (result, after) :=
  ⟨fun walks => walks.perform, (walks_of_walkBlock context).1 before rest pass result after⟩

end Covenant.Contract
