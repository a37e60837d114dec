import Covenant.Proofs.Gathering
import Covenant.Proofs.Judgement
import Covenant.Proofs.Quiet

/-!
# Which contracts are accepted

Whether a contract is accepted depends on its body alone.  A marker call is
never a constant and neither is the reference that replaces it, so a capture
of values on entry does not change the verdict on a condition; and a body
that is accepted has no returns, so routing does not change the body.

A walk therefore succeeds just if every contract that it checks is accepted,
however its statements have been changed by the contracts before.
-/

namespace Covenant.Contract

/-! ## Verdicts -/

/-- A capture of values on entry leaves constants as they are, and makes no new ones. -/
theorem fold?_of_exchange
    {captured : OldBindings} {marker : Option String} {source target : Expression} :
    (captured.exchange marker).OnExpression source target → fold? target = fold? source
  | .exchanged given => by
      obtain ⟨name, _, argument, marked, binding, _, _, rfl⟩ := given
      cases source with
      | call => rfl
      | _ => cases marked
  | .literal _ | .identifier _ | .receiver => by simp [fold?]
  | .unary inner => by rw [fold?, fold?, fold?_of_exchange inner]
  | .binary left right | .logical left right => by
      rw [fold?, fold?, fold?_of_exchange left, fold?_of_exchange right]
  | .array _ | .record _ | .lambda _ | .update _ | .assign _ _ | .conditional _ _ _ | .call _ _
  | .construct _ _ | .member _ | .index _ _ | .sequence _ | .yield _ | .await _ => rfl

/-- A capture of values on entry does not change a verdict. -/
theorem verdict_of_exchange
    {captured : OldBindings} {marker : Option String} {source target : Expression}
    (related : (captured.exchange marker).OnExpression source target) :
    verdict target = verdict source := by
  rw [verdict, verdict, fold?_of_exchange related]

/-- Replacing the marker calls in an expression does not change the verdict on it. -/
theorem verdict_replace (marker : String) (expression : Expression) (capture : Capture) :
    verdict (Capture.replace marker expression capture).1 = verdict expression := by
  have yields := Replacer.onExpression_yields (Capture.follows marker) expression
    capture _ _ rfl
  have related := yields.2 ⟨capture, _⟩ (.refl _) (.refl _)
  exact verdict_of_exchange (related.mono Capture.exchange_within)

/-! ## One contract -/

/-- A condition has a guard unless it is known to fail. -/
theorem exists_guard_iff {site : Site} {condition : Condition} :
    (∃ clause, condition.guard site = .ok clause) ↔
      ∀ value, verdict condition.test ≠ .fails value := by
  cases known : verdict condition.test <;> simp [Condition.guard, known]

/-- Conditions have guards unless one of them is known to fail. -/
theorem exists_guards_iff {site : Site} {found : List Condition} :
    (∃ clauses, guards site found = .ok clauses) ↔
      ∀ condition ∈ found, ∀ value, verdict condition.test ≠ .fails value := by
  induction found with
  | nil => exact ⟨fun _ => by simp, fun _ => ⟨[], rfl⟩⟩
  | cons condition rest induction =>
      rw [List.forall_mem_cons, ← @exists_guard_iff site, ← induction, guards, List.mapM_cons]
      cases condition.guard site with
      | error reason => exact ⟨by rintro ⟨_, ⟨⟩⟩, by rintro ⟨⟨_, ⟨⟩⟩, _⟩⟩
      | ok clause =>
          cases others : List.mapM (Condition.guard site) rest with
          | error reason =>
              refine ⟨by rintro ⟨_, ⟨⟩⟩, ?_⟩
              rintro ⟨_, _, accepted⟩
              cases others.symm.trans accepted
          | ok clauses => exact ⟨fun _ => ⟨⟨clause, rfl⟩, clauses, others⟩, fun _ => ⟨_, rfl⟩⟩

/-- Captured conditions have guards just if the conditions have. -/
theorem exists_guards_of_captured
    {captured : OldBindings} {marker : Option String} {site : Site}
    {source target : List Condition}
    (related : List.Forall₂ (Condition.CapturedAs captured marker) source target) :
    (∃ clauses, guards site target = .ok clauses) ↔ ∃ clauses, guards site source = .ok clauses := by
  rw [exists_guards_iff, exists_guards_iff]
  induction related with
  | nil => rfl
  | cons head _ induction =>
      rw [List.forall_mem_cons, List.forall_mem_cons, induction, verdict_of_exchange head.test]

/-- A capture of values on entry succeeds. -/
theorem exists_captureOldValues (context : Context) (found : List Condition) (pass : Pass) :
    ∃ captured after, captureOldValues context found pass = .ok (captured, after) := by
  cases captures : context.captures with
  | true => exact ⟨_, _, captureOldValues_of_captures captures found pass⟩
  | false => exact ⟨_, _, captureOldValues_of_not_captures captures found pass⟩

/-- A contract with a checker is accepted just if its guards can be assembled as they stand. -/
theorem exists_checkedGuards_iff {context : Context} {site : Site} {body : Statement} {pass : Pass} :
    (∃ clauses after, checkedGuards context site body pass = .ok (clauses, after)) ↔
      ∃ clauses, assemble site body = .ok clauses := by
  unfold checkedGuards assemble
  cases prepared : prepare site body with
  | error reason => exact ⟨by rintro ⟨_, _, ⟨⟩⟩, by rintro ⟨_, ⟨⟩⟩⟩
  | ok found =>
      obtain ⟨captured, between, capturing⟩ := exists_captureOldValues context found pass
      obtain ⟨capture, _, _, related, _⟩ := captureOldValues_eq_ok capturing
      have lifted : (liftM (Except.ok found : Except Error (List Condition)) :
          Walking (List Condition)) pass = .ok (found, pass) := rfl
      rw [step_bind_of_ok lifted, step_bind_of_ok capturing]
      change _ ↔ ∃ clauses, guards site found = .ok clauses
      rw [← @exists_guards_of_captured _ _ site _ _ related]
      constructor
      · rintro ⟨clauses, after, outcome⟩
        obtain ⟨guarded, last, begun, _⟩ := step_bind_eq_ok.mp outcome
        exact ⟨guarded, (step_lift_eq_ok.mp begun).1⟩
      · rintro ⟨clauses, guarded⟩
        have begun : (liftM (guards site captured) : Walking (List Statement)) between =
            .ok (clauses, between) := step_lift_eq_ok.mpr ⟨guarded, rfl⟩
        rw [step_bind_of_ok begun, step_bind_of_ok (count_apply _ between)]
        exact ⟨clauses, _, rfl⟩

/-- A contract in place is accepted just if its guards can be assembled. -/
theorem exists_placeGuards_iff {site : Site} {body : Statement} {pass : Pass} :
    (∃ clauses after, placeGuards site body pass = .ok (clauses, after)) ↔
      ∃ clauses, assemble site body = .ok clauses := by
  constructor
  · rintro ⟨clauses, after, outcome⟩
    obtain ⟨assembled, between, begun, _⟩ := step_bind_eq_ok.mp outcome
    exact ⟨assembled, (step_lift_eq_ok.mp begun).1⟩
  · rintro ⟨clauses, assembles⟩
    have begun : (liftM (assemble site body) : Walking (List Statement)) pass =
        .ok (clauses, pass) := step_lift_eq_ok.mpr ⟨assembles, rfl⟩
    unfold placeGuards
    rw [step_bind_of_ok begun, step_bind_of_ok (count_apply _ pass)]
    exact ⟨clauses, _, rfl⟩

/-! ## Routed contracts -/

mutual

/-- A body that states conditions is the same when it is routed. -/
theorem route_of_conditions
    {site : Site} (checker : Checker) : (body : Statement) → {found : List Condition} →
      conditions site body = .ok found → checker.route body = body
  | .evaluate _, _, _ | .empty, _, _ => by simp [Checker.route]
  | .block statements, _, outcome => by
      rw [conditions] at outcome
      rw [Checker.route, routeAll_of_conditions checker statements outcome]
  | .labeled _ _, _, outcome | .giveBack _, _, outcome | .branch _ _ _, _, outcome
  | .whileLoop _ _, _, outcome | .doWhileLoop _ _, _, outcome
  | .forLoop _ _ _ _, _, outcome | .bindings _ _, _, outcome | .declare _, _, outcome
  | .raise _, _, outcome | .breakOut _, _, outcome | .continueLoop _, _, outcome => by
      cases outcome

theorem routeAll_of_conditions
    {site : Site} (checker : Checker) : (statements : List Statement) →
      {found : List Condition} → conditionsOfStatements site statements = .ok found →
        checker.routeAll statements = statements
  | [], _, _ => by rw [Checker.routeAll]
  | statement :: rest, _, outcome => by
      rw [conditionsOfStatements] at outcome
      cases first : conditions site statement with
      | error reason =>
          rw [first] at outcome
          cases outcome
      | ok found =>
          cases others : conditionsOfStatements site rest with
          | error reason =>
              rw [first, others] at outcome
              cases outcome
          | ok otherFound =>
              rw [Checker.routeAll, route_of_conditions checker statement first,
                routeAll_of_conditions checker rest others]

end

/-- Routing does not change whether a contract is accepted. -/
theorem exists_assemble_route {site : Site} (checker : Checker) {body : Statement} :
    (∃ clauses, assemble site (checker.route body) = .ok clauses) ↔
      ∃ clauses, assemble site body = .ok clauses := by
  constructor
  · rintro ⟨clauses, assembles⟩
    obtain ⟨found, states, _⟩ := assemble_eq_ok assembles
    rw [route_of_conditions checker body (conditions_of_route body states)] at assembles
    exact ⟨clauses, assembles⟩
  · rintro ⟨clauses, assembles⟩
    obtain ⟨found, states, _⟩ := assemble_eq_ok assembles
    rw [route_of_conditions checker body states]
    exact ⟨clauses, assembles⟩

/-! ## Judging contracts -/

/--
A way to judge steps of a transformation by whether the contracts that they check
are accepted, in one of several senses of the word.
-/
structure ContractJudgement (settings : Settings) extends Judgement Error where
  accepted : Site → Statement → Prop
  routed (checker : Checker) (site : Site) (body : Statement) :
    accepted site (checker.route body) ↔ accepted site body
  placeGuards (site : Site) (body : Statement) (pass : Pass) :
    judges (Contract.placeGuards site body pass) (accepted site body)
  checkedGuards {context : Context} (given : context.settings = settings) {site : Site}
    (late : site.kind = .postcondition ∨ site.kind = .invariant) (body : Statement) (pass : Pass) :
    judges (Contract.checkedGuards context site body pass) (accepted site body)

/-- A contract is accepted if its guards can be assembled. -/
def ContractJudgement.deciding (settings : Settings) : ContractJudgement settings where
  toJudgement := .deciding Error
  accepted site body := ∃ clauses, assemble site body = .ok clauses
  routed checker _ _ := exists_assemble_route checker
  placeGuards _ _ _ := Prod.exists.trans exists_placeGuards_iff
  checkedGuards _ _ _ _ _ := Prod.exists.trans exists_checkedGuards_iff

/-- Every one of some contracts in a walk is accepted. -/
def Context.Accepts (context : Context) (accepted : Site → Statement → Prop)
    (stated : List (Kind × Statement)) : Prop :=
  ∀ contract ∈ stated, accepted ⟨contract.1, context.owner⟩ contract.2

/-! ## A walk -/

section

variable {context : Context} {accepted : Site → Statement → Prop}

@[simp]
theorem Context.accepts_nil : context.Accepts accepted [] := by
  simp [Context.Accepts]

@[simp]
theorem Context.accepts_append {first second : List (Kind × Statement)} :
    context.Accepts accepted (first ++ second) ↔
      context.Accepts accepted first ∧ context.Accepts accepted second :=
  List.forall_mem_append

/-- What a contract gives if a walk checks it: itself, with its kind. -/
def checkedContract (settings : Settings) (place : Place) (kind : Kind) (body : Statement) :
    List (Kind × Statement) :=
  if settings.stripsContracts || place.ignores kind then [] else [(kind, body)]

/-- The contracts that a walk checks are gathered from all contracts. -/
theorem contracts_eq_gathered (settings : Settings) (place : Place) :
    contracts settings place = gathered settings (checkedContract settings place) :=
  rfl

/-- Routing changes the bodies of the contracts in statements, and no others. -/
theorem contracts_routes (settings : Settings) (place : Place) (checker : Checker) :
    (contracts settings place).Routes checker fun contract =>
      (contract.1, checker.route contract.2) := by
  rw [contracts_eq_gathered]
  apply gathered_routes
  intro kind body
  rw [checkedContract, checkedContract]
  split <;> rfl

/-- Routed contracts are accepted just if the contracts are. -/
theorem Context.accepts_route (judgement : ContractJudgement context.settings) (checker : Checker)
    {stated : List (Kind × Statement)} :
    context.Accepts judgement.accepted
        (stated.map fun contract => (contract.1, checker.route contract.2)) ↔
      context.Accepts judgement.accepted stated := by
  simp only [Context.Accepts, List.forall_mem_map, judgement.routed]

/-- The contracts that a walk with some context checks. -/
abbrev Context.contracts (context : Context) : Collection (Kind × Statement) :=
  Contract.contracts context.settings context.place

section

variable {label : String}

/-- A contract is checked unless contracts are removed or its kind is left alone. -/
theorem contracts_of_contract
    {kind : Kind} (role : context.settings.roleOf label = .contract kind) (body : Statement) :
    context.contracts.ofStatement (.labeled label body) =
      if context.settings.stripsContracts || context.ignores kind then [] else [(kind, body)] := by
  rw [Context.contracts, contracts_eq_gathered]
  exact gathered_of_contract role body

theorem contracts_of_removed
    (role : context.settings.roleOf label = .environment)
    (action : context.settings.actionFor label = .remove) (body : Statement) :
    context.contracts.ofStatement (.labeled label body) = [] := by
  rw [Context.contracts, contracts_eq_gathered]
  exact gathered_of_removed role action body

/-- Contracts are checked under a label that stays or is dropped as they are without it. -/
theorem contracts_of_entered
    (enters : context.settings.roleOf label = .other ∨
      context.settings.roleOf label = .environment ∧ context.settings.actionFor label ≠ .remove)
    (body : Statement) :
    context.contracts.ofStatement (.labeled label body) = context.contracts.ofStatement body := by
  rw [Context.contracts, contracts_eq_gathered]
  exact gathered_of_entered enters body

end

/-- There are no contracts in a loop apart from its body. -/
theorem contracts_forLoop
    {init : Option LoopInit} {test update : Option Expression} {body : Statement} :
    context.contracts.ofStatement (.forLoop init test update body) =
      context.contracts.ofStatement body := by
  rw [Context.contracts, contracts_eq_gathered, Collection.ofStatement, gathered_ofLoopInit,
    gathered_ofOptional, gathered_ofOptional]
  rfl

/-- Simple statements are no contracts. -/
theorem contracts_of_isSimple {statement : Statement} (simple : isSimple statement = true) :
    context.contracts.ofStatement statement = [] := by
  rw [Context.contracts, contracts_eq_gathered]
  exact gathered_of_isSimple simple

/-- A step of a walk is judged, whatever the walk carries along. -/
abbrev Rules {α : Type} (judgement : Judgement Error) (step : Walking α) (holds : Prop) : Prop :=
  Judged judgement (fun _ => True) step holds

section

variable {judgement : Judgement Error}

/-- A step that always succeeds depends on nothing. -/
theorem rules_of_ok {α : Type} {step : Walking α}
    (succeeds : ∀ pass, ∃ done, step pass = .ok done) : Rules judgement step True where
  judges {pass} _ := by
    obtain ⟨_, outcome⟩ := succeeds pass
    exact Judgement.of_ok outcome trivial
  sound _ _ := trivial

theorem rules_count (change : Summary → Summary) : Rules judgement (count change) True :=
  rules_of_ok fun pass => ⟨_, count_apply change pass⟩

theorem rules_makeChecker (site : Site) (role : String) (clauses : List Statement) :
    Rules judgement (makeChecker site role clauses) True :=
  rules_of_ok fun _ => ⟨_, rfl⟩

theorem rules_addPostcondition (checker : Checker) :
    Rules judgement (addPostcondition checker) True :=
  rules_of_ok fun pass => ⟨_, addPostcondition_apply checker pass⟩

end

theorem rules_placeGuards (judgement : ContractJudgement context.settings) (site : Site)
    (body : Statement) :
    Rules judgement.toJudgement (placeGuards site body) (judgement.accepted site body) where
  judges _ := judgement.placeGuards site body _
  sound _ _ := trivial

theorem rules_checkedGuards (judgement : ContractJudgement context.settings) {site : Site}
    (late : site.kind = .postcondition ∨ site.kind = .invariant) (body : Statement) :
    Rules judgement.toJudgement (checkedGuards context site body)
      (judgement.accepted site body) where
  judges _ := judgement.checkedGuards rfl late body _
  sound _ _ := trivial

theorem Context.accepts_contract
    {label : String} {kind : Kind} {body : Statement} {tail : List Statement}
    (role : context.settings.roleOf label = .contract kind)
    (keeps : ¬ context.settings.stripsContracts = true) (counts : ¬ context.ignores kind = true) :
    accepted ⟨kind, context.owner⟩ body ∧
        context.Accepts accepted (context.contracts.ofStatements tail) ↔
      context.Accepts accepted (context.contracts.ofStatements (.labeled label body :: tail)) := by
  rw [Collection.ofStatements, Context.accepts_append, contracts_of_contract role,
    Bool.eq_false_iff.mpr keeps, Bool.eq_false_iff.mpr counts]
  simp [Context.Accepts]

/-- A contract that is not checked decides nothing. -/
theorem Context.accepts_unchecked
    {statement : Statement} {tail : List Statement}
    (unchecked : context.contracts.ofStatement statement = []) :
    context.Accepts accepted (context.contracts.ofStatements tail) ↔
      context.Accepts accepted (context.contracts.ofStatements (statement :: tail)) := by
  rw [Collection.ofStatements, unchecked, List.nil_append]

/-- A walk depends on whether every contract that it checks is accepted. -/
theorem rules_walkBlock (judgement : ContractJudgement context.settings) :
    (∀ before rest, Rules judgement.toJudgement (walkBlock context before rest)
        (context.Accepts judgement.accepted (context.contracts.ofStatements rest))) ∧
      (∀ statement, context.recognizes statement = false →
        Rules judgement.toJudgement (walkChildren context statement)
          (context.Accepts judgement.accepted (context.contracts.ofStatement statement))) ∧
        ∀ statement, Rules judgement.toJudgement (walkSlot context statement)
          (context.Accepts judgement.accepted (context.contracts.ofStatement statement)) := by
  apply walkBlock.mutual_induct context
    (fun before rest => Rules judgement.toJudgement (walkBlock context before rest)
      (context.Accepts judgement.accepted (context.contracts.ofStatements rest)))
    (fun statement => context.recognizes statement = false →
      Rules judgement.toJudgement (walkChildren context statement)
        (context.Accepts judgement.accepted (context.contracts.ofStatement statement)))
    (fun statement => Rules judgement.toJudgement (walkSlot context statement)
      (context.Accepts judgement.accepted (context.contracts.ofStatement statement)))
  case case1 =>
    intro before
    rw [walkBlock]
    exact (Judged.pure before).congr (by simp [Collection.ofStatements])
  case case2 =>
    intro before label body tail kind role ignores induction
    rw [walkBlock]
    simp only [role, ignores, if_true]
    refine induction.congr (Context.accepts_unchecked ?_)
    rw [contracts_of_contract role, ignores, Bool.or_true, if_pos rfl]
  case case3 =>
    intro before label body tail kind role counted strips induction
    rw [walkBlock]
    simp only [role, counted, strips, if_true, if_false, Bool.false_eq_true]
    refine ((rules_count _).after fun _ => induction).congr (Context.accepts_unchecked ?_)
    rw [contracts_of_contract role, strips, Bool.true_or, if_pos rfl]
  case case4 | case5 =>
    intro before label body tail keeps role counts induction
    rw [walkBlock]
    simp only [role, counts, keeps, if_false, Bool.false_eq_true]
    refine Judged.congr ?_ (Context.accepts_contract role keeps counts)
    exact (rules_placeGuards judgement _ body).bind induction
  case case6 =>
    intro before label body tail keeps role counts induction
    rw [walkBlock]
    simp only [role, counts, keeps, if_false, Bool.false_eq_true]
    refine Judged.congr ?_ (Context.accepts_contract role keeps counts)
    refine (rules_checkedGuards judgement (.inl rfl) body).bind fun _ => ?_
    refine (rules_makeChecker _ _ _).after fun _ => ?_
    exact (rules_addPostcondition _).after fun _ => induction
  case case7 =>
    intro before label body tail keeps role counts induction
    rw [walkBlock]
    simp only [role, counts, keeps, if_false, Bool.false_eq_true]
    refine Judged.congr ?_ (Context.accepts_contract role keeps counts)
    refine (rules_checkedGuards judgement (.inr rfl) body).bind fun _ => ?_
    refine (rules_makeChecker _ _ _).after fun checker => ?_
    refine (rules_count _).after fun _ => (induction checker).congr ?_
    have routes := contracts_routes context.settings context.place checker
    rw [Collection.ofStatements_append, Collection.ofStatements_exitCheck routes,
      List.append_nil, Collection.ofStatements_routeAll routes, Context.accepts_route judgement]
  case case8 =>
    intro before label body tail role action bodyInduction induction
    rw [walkBlock]
    simp only [role, action]
    refine (bodyInduction.bind induction).congr ?_
    rw [Collection.ofStatements, Context.accepts_append,
      contracts_of_entered (.inr ⟨role, by simp [action]⟩)]
  case case9 =>
    intro before label body tail role action induction
    rw [walkBlock]
    simp only [role, action]
    refine ((rules_count _).after fun _ => induction).congr (Context.accepts_unchecked ?_)
    exact contracts_of_removed role action body
  case case10 =>
    intro before label body tail role action induction
    rw [walkBlock]
    simp only [role, action]
    refine ((rules_count _).after fun _ => induction).congr ?_
    rw [Collection.ofStatements_append, Collection.ofStatements_unlabeled, Collection.ofStatements,
      contracts_of_entered (.inr ⟨role, by simp [action]⟩)]
  case case11 =>
    intro before label body tail role bodyInduction induction
    rw [walkBlock]
    simp only [role]
    refine (bodyInduction.bind induction).congr ?_
    rw [Collection.ofStatements, Context.accepts_append, contracts_of_entered (.inl role)]
  case case12 =>
    intro before statement tail plain statementInduction induction
    have unlabeled := (label?_eq_none_iff statement).mpr plain
    rw [walkBlock_unlabeled context before tail unlabeled]
    refine ((statementInduction (by simp [Context.recognizes, unlabeled])).bind induction).congr ?_
    rw [Collection.ofStatements, Context.accepts_append]
  case case13 =>
    intro statements induction _
    rw [walkChildren, Collection.ofStatement]
    exact induction.before fun _ => .pure _
  case case14 =>
    intro test consequent induction _
    rw [walkChildren, Collection.ofStatement, Collection.ofAlternate, List.append_nil]
    exact induction.before fun _ => .pure _
  case case15 =>
    intro test consequent alternate consequentInduction alternateInduction _
    rw [walkChildren, Collection.ofStatement, Collection.ofAlternate, Context.accepts_append]
    exact consequentInduction.bind fun _ => alternateInduction.before fun _ => .pure _
  case case16 =>
    intro test body induction _
    rw [walkChildren, Collection.ofStatement]
    exact induction.before fun _ => .pure _
  case case17 =>
    intro body test induction _
    rw [walkChildren, Collection.ofStatement]
    refine (induction.before fun _ => .pure _).congr ?_
    simp [Contract.contracts]
  case case18 =>
    intro init test update body induction _
    rw [walkChildren, contracts_forLoop]
    exact induction.before fun _ => .pure _
  case case19 =>
    intro label body induction unknown
    have role : context.settings.roleOf label = .other := by
      simpa [Context.recognizes, Statement.label?] using unknown
    rw [walkChildren_labeled, contracts_of_entered (.inl role)]
    exact induction.before fun _ => .pure _
  case case20 =>
    intro statement noBlock noBranch noBranches noWhile noDoWhile noFor noLabel _
    have simple : isSimple statement = true := by
      cases statement with
      | branch test consequent alternate =>
          cases alternate with
          | none => exact (noBranch _ _ rfl).elim
          | some other => exact (noBranches _ _ _ rfl).elim
      | block | labeled | whileLoop | doWhileLoop | forLoop => grind
      | _ => rfl
    rw [walkChildren_simple context simple, contracts_of_isSimple simple]
    exact (Judged.pure statement).congr (by simp)
  case case21 =>
    intro statement recognized induction
    rw [walkSlot, if_pos recognized]
    refine (induction.before fun _ => .pure _).congr ?_
    rw [Collection.ofStatements_singleton]
  case case22 =>
    intro statement unknown induction
    rw [walkSlot, if_neg unknown]
    exact induction (Bool.eq_false_iff.mpr unknown)

end

end Covenant.Contract
