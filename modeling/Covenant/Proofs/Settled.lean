import Covenant.Proofs.Progress

/-!
# Statements that a walk leaves alone

Statements are settled if a walk has nothing to do in them: every label with a
meaning is either one that is ignored where it stands or one that is kept, and
none of them stands alone in the place of a statement.

A walk leaves settled statements as they are, and settled statements are what
it makes of any others.
-/

namespace Covenant.Contract

/-- Whether contracts of a kind are left alone in a place. -/
def Place.ignores (place : Place) (kind : Kind) : Bool :=
  place == .topLevel && kind != .assertion

mutual

/-- Whether a statement is settled, standing alone in its place or in a list. -/
def Settled (settings : Settings) (place : Place) (alone : Bool) : Statement → Prop
  | .labeled label body =>
    match settings.roleOf label with
    | .contract kind => alone = false ∧ place.ignores kind = true
    | .environment =>
      alone = false ∧ settings.actionFor label = .keep ∧ Settled settings place true body
    | .other => Settled settings place true body
  | .block statements => SettledAll settings place statements
  | .branch _ consequent alternate =>
    Settled settings place true consequent ∧ SettledAlternate settings place alternate
  | .whileLoop _ body | .doWhileLoop body _ | .forLoop _ _ _ body =>
    Settled settings place true body
  | _ => True

/-- Whether a statement that may be missing is settled. -/
def SettledAlternate (settings : Settings) (place : Place) : Option Statement → Prop
  | none => True
  | some statement => Settled settings place true statement

/-- Whether statements in turn are settled. -/
def SettledAll (settings : Settings) (place : Place) : List Statement → Prop
  | [] => True
  | statement :: rest => Settled settings place false statement ∧ SettledAll settings place rest

end

attribute [local simp] Settled SettledAll

/-- Whether statements are settled where a walk finds them. -/
abbrev Context.settles (context : Context) (statements : List Statement) : Prop :=
  SettledAll context.settings context.place statements

variable {settings : Settings} {place : Place} {context : Context}

@[simp]
theorem settledAll_append {first second : List Statement} :
    SettledAll settings place (first ++ second) ↔
      SettledAll settings place first ∧ SettledAll settings place second := by
  induction first with
  | nil => simp
  | cons statement rest induction => simp [induction, and_assoc]

theorem settledAll_iff {statements : List Statement} :
    SettledAll settings place statements ↔
      ∀ statement ∈ statements, Settled settings place false statement := by
  induction statements with
  | nil => simp
  | cons statement rest induction => simp [induction]

theorem settledAll_singleton {statement : Statement} :
    SettledAll settings place [statement] ↔ Settled settings place false statement := by
  simp

/-- A simple statement is settled. -/
theorem settled_of_isSimple
    {statement : Statement} (alone : Bool) (simple : isSimple statement = true) :
    Settled settings place alone statement := by
  cases statement <;> simp [isSimple] at simple <;> simp

/-- Without a meaning of its label, a statement is as settled alone as it is in a list. -/
theorem settled_iff_of_unrecognized
    {statement : Statement} (unknown : context.recognizes statement = false) (alone : Bool) :
    Settled context.settings context.place alone statement ↔
      Settled context.settings context.place true statement := by
  cases statement with
  | labeled label body =>
      have role : context.settings.roleOf label = .other := by
        simpa [Context.recognizes, Statement.label?] using unknown
      simp [role]
  | _ => simp

/-- What is settled alone has no label with a meaning. -/
theorem unrecognized_of_settled
    {statement : Statement} (settled : Settled context.settings context.place true statement) :
    context.recognizes statement = false := by
  cases statement with
  | labeled label body =>
      cases role : context.settings.roleOf label <;> simp [role] at settled
      simp [Context.recognizes, Statement.label?, role]
  | _ => rfl

/-- What is settled alone is settled in a list. -/
theorem settled_of_alone
    {statement : Statement} (settled : Settled context.settings context.place true statement)
    (alone : Bool) :
    Settled context.settings context.place alone statement :=
  (settled_iff_of_unrecognized (unrecognized_of_settled settled) alone).mpr settled

/-! ## Settled statements are left alone -/

/-- What is settled alone is not put into a block. -/
theorem walkSlot_of_settled
    {statement : Statement} (settled : Settled context.settings context.place true statement) :
    walkSlot context statement = walkChildren context statement := by
  rw [walkSlot, if_neg (by simp [unrecognized_of_settled settled])]

/-- A walk over a list leaves an unlabeled statement alone if it changes nothing inside. -/
theorem walkBlock_of_unchanged
    {statement : Statement} {rest : List Statement} (plain : statement.label? = none)
    (first : walkChildren context statement = pure statement)
    (others : ∀ before, walkBlock context before rest = pure (before ++ rest))
    (before : List Statement) :
    walkBlock context before (statement :: rest) = pure (before ++ statement :: rest) := by
  rw [walkBlock_unlabeled context before rest plain, first, pure_bind, others, List.append_assoc,
    List.singleton_append]

mutual

/-- A walk changes nothing inside a settled statement. -/
theorem walkChildren_of_settled : (statement : Statement) →
    Settled context.settings context.place true statement →
      walkChildren context statement = pure statement
  | .labeled label body, settled => by
      have unknown := unrecognized_of_settled settled
      have role : context.settings.roleOf label = .other := by
        simpa [Context.recognizes, Statement.label?] using unknown
      simp only [Settled, role] at settled
      rw [walkChildren_labeled, walkSlot_of_settled settled, walkChildren_of_settled body settled,
        pure_bind]
  | .block statements, settled => by
      rw [Settled] at settled
      rw [walkChildren, walkBlock_of_settled statements settled [], pure_bind, List.nil_append]
  | .branch _ consequent none, settled => by
      rw [Settled] at settled
      rw [walkChildren, walkSlot_of_settled settled.1,
        walkChildren_of_settled consequent settled.1, pure_bind]
  | .branch _ consequent (some alternate), settled => by
      rw [Settled, SettledAlternate] at settled
      rw [walkChildren, walkSlot_of_settled settled.1,
        walkChildren_of_settled consequent settled.1, pure_bind, walkSlot_of_settled settled.2,
        walkChildren_of_settled alternate settled.2, pure_bind]
  | .whileLoop _ body, settled | .doWhileLoop body _, settled | .forLoop _ _ _ body, settled => by
      rw [Settled] at settled
      rw [walkChildren, walkSlot_of_settled settled, walkChildren_of_settled body settled,
        pure_bind]
  | .evaluate _, _ | .giveBack _, _ | .bindings _ _, _ | .declare _, _ | .raise _, _
  | .breakOut _, _ | .continueLoop _, _ | .empty, _ => walkChildren_simple context rfl

/-- A walk changes nothing in settled statements. -/
theorem walkBlock_of_settled : (statements : List Statement) →
    SettledAll context.settings context.place statements → ∀ before,
      walkBlock context before statements = pure (before ++ statements)
  | [], _, before => by
      rw [walkBlock, List.append_nil]
  | .labeled label body :: rest, settled, before => by
      rw [SettledAll, Settled] at settled
      rw [walkBlock]
      cases role : context.settings.roleOf label with
      | contract kind =>
          simp only [role] at settled
          have ignores : context.ignores kind = true := settled.1.2
          simp only [ignores, if_true]
          rw [walkBlock_of_settled rest settled.2, List.append_assoc, List.singleton_append]
      | environment =>
          simp only [role] at settled
          simp only [settled.1.2.1]
          rw [walkSlot_of_settled settled.1.2.2, walkChildren_of_settled body settled.1.2.2,
            pure_bind, walkBlock_of_settled rest settled.2, List.append_assoc,
            List.singleton_append]
      | other =>
          simp only [role] at settled
          simp only
          rw [walkSlot_of_settled settled.1, walkChildren_of_settled body settled.1, pure_bind,
            walkBlock_of_settled rest settled.2, List.append_assoc, List.singleton_append]
  | .block statements :: rest, settled, before =>
      walkBlock_of_unchanged rfl (walkChildren_of_settled (.block statements) settled.1)
        (walkBlock_of_settled rest settled.2) before
  | .branch test consequent alternate :: rest, settled, before =>
      walkBlock_of_unchanged rfl
        (walkChildren_of_settled (.branch test consequent alternate) settled.1)
        (walkBlock_of_settled rest settled.2) before
  | .whileLoop test body :: rest, settled, before =>
      walkBlock_of_unchanged rfl (walkChildren_of_settled (.whileLoop test body) settled.1)
        (walkBlock_of_settled rest settled.2) before
  | .doWhileLoop body test :: rest, settled, before =>
      walkBlock_of_unchanged rfl (walkChildren_of_settled (.doWhileLoop body test) settled.1)
        (walkBlock_of_settled rest settled.2) before
  | .forLoop init test update body :: rest, settled, before =>
      walkBlock_of_unchanged rfl
        (walkChildren_of_settled (.forLoop init test update body) settled.1)
        (walkBlock_of_settled rest settled.2) before
  | .evaluate _ :: rest, settled, before | .giveBack _ :: rest, settled, before
  | .bindings _ _ :: rest, settled, before | .declare _ :: rest, settled, before
  | .raise _ :: rest, settled, before | .breakOut _ :: rest, settled, before
  | .continueLoop _ :: rest, settled, before | .empty :: rest, settled, before =>
      walkBlock_of_unchanged rfl (walkChildren_simple context rfl)
        (walkBlock_of_settled rest settled.2) before

end

/-! ## What a walk makes is settled -/

mutual

/-- Routing returns through a checker keeps a statement settled. -/
theorem settled_route (checker : Checker) {alone : Bool} : (statement : Statement) →
    Settled settings place alone statement →
      Settled settings place alone (checker.route statement)
  | .labeled label body, settled => by
      rw [Checker.route]
      cases role : settings.roleOf label <;> simp only [Settled, role] at settled ⊢
      · exact settled
      · exact ⟨settled.1, settled.2.1, settled_route checker body settled.2.2⟩
      · exact settled_route checker body settled
  | .block statements, settled => by
      rw [Settled] at settled
      rw [Checker.route, Settled]
      exact settledAll_routeAll checker statements settled
  | .branch _ consequent alternate, settled => by
      rw [Settled] at settled
      rw [Checker.route, Settled]
      exact ⟨settled_route checker consequent settled.1,
        settledAlternate_route checker alternate settled.2⟩
  | .whileLoop _ body, settled | .doWhileLoop body _, settled | .forLoop _ _ _ body, settled => by
      rw [Settled] at settled
      rw [Checker.route, Settled]
      exact settled_route checker body settled
  | .giveBack _, _ => by simp [Checker.route, Settled]
  | .evaluate _, _ | .bindings _ _, _ | .declare _, _ | .raise _, _ | .breakOut _, _
  | .continueLoop _, _ | .empty, _ => by simp [Checker.route, Settled]

theorem settledAlternate_route (checker : Checker) : (alternate : Option Statement) →
    SettledAlternate settings place alternate →
      SettledAlternate settings place (checker.routeAlternate alternate)
  | none, _ => by
      rw [Checker.routeAlternate, SettledAlternate]
      trivial
  | some statement, settled => by
      rw [SettledAlternate] at settled
      rw [Checker.routeAlternate, SettledAlternate]
      exact settled_route checker statement settled

/-- Routing returns through a checker keeps statements settled. -/
theorem settledAll_routeAll (checker : Checker) : (statements : List Statement) →
    SettledAll settings place statements → SettledAll settings place (checker.routeAll statements)
  | [], _ => by
      rw [Checker.routeAll, SettledAll]
      trivial
  | statement :: rest, settled => by
      rw [SettledAll] at settled
      rw [Checker.routeAll, SettledAll]
      exact ⟨settled_route checker statement settled.1,
        settledAll_routeAll checker rest settled.2⟩

end

theorem settledAll_exitCheck (checker : Checker) (statements : List Statement) :
    SettledAll settings place (checker.exitCheck statements) := by
  unfold Checker.exitCheck
  split <;> simp [SettledAll, Checker.check, Settled]

theorem settledAll_entry (checker : Checker) (parameter : String) :
    SettledAll settings place (checker.entry parameter) := by
  simp [Checker.entry, SettledAll, Checker.declaration, Checker.check, Settled]

/-- Guards are settled. -/
theorem settledAll_clauses (site : Site) (found : List Condition) :
    SettledAll settings place (found.map (Condition.clause site)) := by
  induction found with
  | nil => simp
  | cons condition rest induction =>
      simp only [List.map_cons, SettledAll]
      refine ⟨?_, induction⟩
      simp [Condition.clause, guardClause, Settled, SettledAll, SettledAlternate]

/-- What has to be settled before and after a stretch of a walk. -/
def Stretch.Settles (context : Context) (result : List Statement) : Stretch → Prop
  | list before _ => context.settles before → context.settles result
  | inside statement =>
    context.recognizes statement = false →
      ∀ walked ∈ result, Settled context.settings context.place true walked
  | slot _ => ∀ walked ∈ result, Settled context.settings context.place true walked

/-- A walk makes settled statements. -/
theorem Walks.settles
    {stretch : Stretch} {pass after : Pass} {result : List Statement}
    (walks : Walks context stretch pass result after) :
    stretch.Settles context result := by
  induction walks with
  | done before pass => exact id
  | ignored role ignores _ induction =>
      intro settled
      refine induction ?_
      simp only [settledAll_append, settledAll_singleton, Settled, role]
      exact ⟨settled, trivial, ignores⟩
  | stripped _ _ _ _ induction => exact induction
  | inPlace _ _ _ _ assembles _ induction =>
      intro settled
      obtain ⟨_, _, rfl, _, _⟩ := placeGuards_eq_ok assembles
      exact induction (settledAll_append.mpr ⟨settled, settledAll_clauses _ _⟩)
  | postcondition _ _ _ _ _ _ induction => exact induction
  | invariant _ _ _ _ _ _ induction =>
      intro settled
      exact induction
        (settledAll_append.mpr ⟨settledAll_entry _ _, settledAll_routeAll _ _ settled⟩)
  | kept role action _ _ firstInduction induction =>
      intro settled
      refine induction ?_
      simp only [settledAll_append, settledAll_singleton, Settled, role]
      exact ⟨settled, trivial, action, firstInduction _ List.mem_cons_self⟩
  | removed _ _ _ induction => exact induction
  | inlined _ _ _ induction => exact induction
  | other role _ _ firstInduction induction =>
      intro settled
      refine induction ?_
      simp only [settledAll_append, settledAll_singleton, Settled, role]
      exact ⟨settled, firstInduction _ List.mem_cons_self⟩
  | unlabeled plain _ _ firstInduction induction =>
      intro settled
      refine induction (settledAll_append.mpr ⟨settled, settledAll_singleton.mpr ?_⟩)
      exact settled_of_alone
        (firstInduction (by simp [Context.recognizes, plain]) _ List.mem_cons_self) false
  | simple simple =>
      intro _ walked member
      rw [List.mem_singleton.mp member]
      exact settled_of_isSimple true simple
  | block _ induction =>
      intro _ walked member
      rw [List.mem_singleton.mp member, Settled]
      exact induction (by simp)
  | @labeled label _ _ _ _ _ induction =>
      intro unknown walked member
      have role : context.settings.roleOf label = .other := by
        simpa [Context.recognizes, Statement.label?] using unknown
      rw [List.mem_singleton.mp member]
      simp only [Settled, role]
      exact induction _ List.mem_cons_self
  | branch _ induction =>
      intro _ walked member
      rw [List.mem_singleton.mp member, Settled]
      exact ⟨induction _ List.mem_cons_self, by rw [SettledAlternate]; trivial⟩
  | branches _ _ firstInduction secondInduction =>
      intro _ walked member
      rw [List.mem_singleton.mp member, Settled]
      exact ⟨firstInduction _ List.mem_cons_self, secondInduction _ List.mem_cons_self⟩
  | whileLoop _ induction | doWhileLoop _ induction | forLoop _ induction =>
      intro _ walked member
      rw [List.mem_singleton.mp member, Settled]
      exact induction _ List.mem_cons_self
  | wrapped _ _ induction =>
      intro walked member
      rw [List.mem_singleton.mp member, Settled]
      exact induction (by simp)
  | bare unknown _ induction => exact induction unknown

/-- Applying a postcondition keeps statements settled. -/
theorem settledAll_applyPostconditions (checkers : List Checker) :
    ∀ statements, SettledAll settings place statements →
      SettledAll settings place (checkers.foldl applyPostcondition statements) := by
  induction checkers with
  | nil => exact fun _ settled => settled
  | cons checker rest induction =>
      intro statements settled
      rw [List.foldl_cons]
      refine induction _ ?_
      rw [applyPostcondition, Checker.appendExitCheck, settledAll_append]
      exact ⟨settledAll_routeAll checker statements settled, settledAll_exitCheck _ _⟩

theorem settledAll_prologue (parameter : String) (pass : Pass) :
    SettledAll settings place (prologue parameter pass) := by
  rw [prologue, settledAll_append]
  constructor
  · induction pass.postconditions with
    | nil => simp
    | cons checker rest induction =>
        rw [List.map_cons, SettledAll]
        exact ⟨by simp [Checker.declaration, Settled], induction⟩
  · unfold OldBindings.declarations
    induction pass.captured.bindings with
    | nil => simp
    | cons binding rest induction =>
        rw [List.map_cons, SettledAll]
        exact ⟨by simp, induction⟩

/-- A finished function is settled. -/
theorem settledAll_finish
    {parameter : String} {pass : Pass} {statements : List Statement}
    (settled : SettledAll settings place statements) :
    SettledAll settings place (finish parameter pass statements) :=
  settledAll_append.mpr
    ⟨settledAll_prologue parameter pass, settledAll_applyPostconditions _ _ settled⟩

end Covenant.Contract
