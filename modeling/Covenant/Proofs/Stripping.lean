import Covenant.Proofs.Deep
import Covenant.Proofs.Nested

/-!
# Walks that remove contracts

When contracts are removed, a walk drops them with whatever they hold, and
nothing is generated.  So two walks over statements that are the same but for
the bodies of such contracts do the same: each step of one is a step of the
other, they count alike, and what they leave differs in the functions only,
which are still to be transformed.
-/

namespace Covenant.Contract

/-! ## Programs that differ in what is removed -/

/-- Trees may differ in the functions that they contain. -/
def functionsApart (related : Function → Function → Prop) : Exchange where
  name _ := True
  function := related
  expression _ _ := False
  statement _ _ := False

/-- In functions contracts of every kind are removed. -/
def removesAll (_ : Kind) : Bool :=
  true

/-- Outside functions only assertions are removed. -/
def removesAssertions (kind : Kind) : Bool :=
  kind == .assertion

/-- The kinds of contracts that are removed in a context, if any are. -/
def Context.removes (context : Context) (kind : Kind) : Bool :=
  !context.ignores kind

theorem removes_functionContext (settings : Settings) (scopes : ScopeStack) (function : Function) :
    (functionContext settings scopes function).removes = removesAll := by
  funext kind
  simp [Context.removes, Context.ignores, functionContext, removesAll]

theorem removes_topLevelContext (settings : Settings) (scopes : ScopeStack) :
    (topLevelContext settings scopes).removes = removesAssertions := by
  funext kind
  cases kind <;> rfl

section

variable (settings : Settings) (removes : Kind → Bool) (related : Function → Function → Prop)

mutual

/--
Statements that are the same but for the bodies of contracts that are removed
and for functions, which are related.
-/
inductive SameBesides : Statement → Statement → Prop where
  /-- A contract that is removed may hold anything. -/
  | removed {label : String} {body body' : Statement} {kind : Kind}
      (role : settings.roleOf label = .contract kind) (among : removes kind = true) :
      SameBesides (.labeled label body) (.labeled label body')
  /-- Nothing is removed from a contract that does not count. -/
  | ignored {label : String} {body body' : Statement} {kind : Kind}
      (role : settings.roleOf label = .contract kind) (among : removes kind = false)
      (inner : (functionsApart related).OnStatement body body') :
      SameBesides (.labeled label body) (.labeled label body')
  | labeled {label : String} {body body' : Statement}
      (plain : ∀ kind, settings.roleOf label ≠ .contract kind) (inner : SameBesides body body') :
      SameBesides (.labeled label body) (.labeled label body')
  | block {statements statements' : List Statement}
      (inner : SameBesidesAll statements statements') :
      SameBesides (.block statements) (.block statements')
  | branch {test test' : Expression} {consequent consequent' : Statement}
      (first : (functionsApart related).OnExpression test test')
      (second : SameBesides consequent consequent') :
      SameBesides (.branch test consequent none) (.branch test' consequent' none)
  | branches {test test' : Expression} {consequent consequent' alternate alternate' : Statement}
      (first : (functionsApart related).OnExpression test test')
      (second : SameBesides consequent consequent') (third : SameBesides alternate alternate') :
      SameBesides (.branch test consequent (some alternate))
        (.branch test' consequent' (some alternate'))
  | whileLoop {test test' : Expression} {body body' : Statement}
      (first : (functionsApart related).OnExpression test test')
      (second : SameBesides body body') :
      SameBesides (.whileLoop test body) (.whileLoop test' body')
  | doWhileLoop {test test' : Expression} {body body' : Statement}
      (first : SameBesides body body')
      (second : (functionsApart related).OnExpression test test') :
      SameBesides (.doWhileLoop body test) (.doWhileLoop body' test')
  | forLoop {init init' : Option LoopInit} {test test' update update' : Option Expression}
      {body body' : Statement}
      (first : (functionsApart related).OnLoopInit init init')
      (second : (functionsApart related).OnOptional test test')
      (third : (functionsApart related).OnOptional update update')
      (fourth : SameBesides body body') :
      SameBesides (.forLoop init test update body) (.forLoop init' test' update' body')
  | simple {statement statement' : Statement} (simple : isSimple statement = true)
      (inner : (functionsApart related).OnStatement statement statement') :
      SameBesides statement statement'

/-- Lists of such statements. -/
inductive SameBesidesAll : List Statement → List Statement → Prop where
  | nil : SameBesidesAll [] []
  | cons {statement statement' : Statement} {rest rest' : List Statement}
      (first : SameBesides statement statement') (second : SameBesidesAll rest rest') :
      SameBesidesAll (statement :: rest) (statement' :: rest')

end

end

/--
Functions that are the same but for the bodies of contracts that are removed,
in them and in the functions nested in them.
-/
inductive FunctionSameBesides (settings : Settings) : Function → Function → Prop where
  | block {name : Option String} {parameters : List String}
      {statements statements' : List Statement} {isArrow isAsync isGenerator : Bool}
      (inner : SameBesidesAll settings removesAll (FunctionSameBesides settings)
        statements statements') :
      FunctionSameBesides settings
        ⟨name, parameters, .block statements, isArrow, isAsync, isGenerator⟩
        ⟨name, parameters, .block statements', isArrow, isAsync, isGenerator⟩
  | result {name : Option String} {parameters : List String}
      {expression expression' : Expression} {isArrow isAsync isGenerator : Bool}
      (inner : (functionsApart (FunctionSameBesides settings)).OnExpression
        expression expression') :
      FunctionSameBesides settings
        ⟨name, parameters, .result expression, isArrow, isAsync, isGenerator⟩
        ⟨name, parameters, .result expression', isArrow, isAsync, isGenerator⟩

/-- Programs that are the same but for the bodies of contracts that are removed. -/
def ProgramSameBesides (settings : Settings) (program program' : Program) : Prop :=
  SameBesidesAll settings removesAssertions (FunctionSameBesides settings)
    program.statements program'.statements

/-! ## Walking side by side -/

section

variable {settings : Settings} {removes : Kind → Bool} {related : Function → Function → Prop}

theorem isSimple_of_functionsApart {statement statement' : Statement}
    (inner : (functionsApart related).OnStatement statement statement')
    (simple : isSimple statement = true) : isSimple statement' = true := by
  cases inner with
  | exchanged given => cases given
  | evaluate _ | giveBack _ | bindings _ | declare _ | raise _ | breakOut _ | continueLoop _
  | empty => rfl
  | block _ | labeled _ | branch _ _ _ | whileLoop _ _ | doWhileLoop _ _ | forLoop _ _ _ _ =>
      cases simple

namespace SameBesides

variable {statement statement' body target : Statement} {label : String}

theorem label?_eq
    (same : SameBesides settings removes related statement statement') :
    statement'.label? = statement.label? := by
  cases same with
  | simple simple inner =>
      have simple' := isSimple_of_functionsApart inner simple
      cases statement <;> cases simple <;> cases statement' <;> first | rfl | cases simple'
  | _ => rfl

/-- A labeled statement corresponds to one with the same label. -/
theorem of_contract {kind : Kind} (role : settings.roleOf label = .contract kind)
    (same : SameBesides settings removes related (.labeled label body) target) :
    ∃ body', target = .labeled label body' ∧
      (removes kind = false → (functionsApart related).OnStatement body body') := by
  cases same with
  | removed role' among =>
      cases role.symm.trans role'
      exact ⟨_, rfl, fun apart => absurd among (by simp [apart])⟩
  | ignored _ _ inner => exact ⟨_, rfl, fun _ => inner⟩
  | labeled plain _ => exact absurd role (plain kind)
  | simple simple _ => cases simple

theorem of_labeled (plain : ∀ kind, settings.roleOf label ≠ .contract kind)
    (same : SameBesides settings removes related (.labeled label body) target) :
    ∃ body', target = .labeled label body' ∧ SameBesides settings removes related body body' := by
  cases same with
  | removed role _ | ignored role _ _ => exact absurd role (plain _)
  | labeled _ inner => exact ⟨_, rfl, inner⟩
  | simple simple _ => cases simple

theorem of_simple (simple : isSimple statement = true)
    (same : SameBesides settings removes related statement target) :
    (functionsApart related).OnStatement statement target := by
  cases same with
  | simple _ inner => exact inner
  | _ => cases simple

/-- What environment labels are dropped from corresponds. -/
theorem unlabeled {body' : Statement} (same : SameBesides settings removes related body body') :
    SameBesidesAll settings removes related (Statement.labeled label body).unlabeled
      (Statement.labeled label body').unlabeled := by
  cases same with
  | block inner => exact inner
  | simple simple inner =>
      have simple' := isSimple_of_functionsApart inner simple
      have single {statement : Statement} (simple : isSimple statement = true) :
          (Statement.labeled label statement).unlabeled = [statement] := by
        cases statement <;> first | rfl | cases simple
      rw [single simple, single simple']
      exact .cons (.simple simple inner) .nil
  | removed role among => exact .cons (.removed role among) .nil
  | ignored role among inner => exact .cons (.ignored role among inner) .nil
  | labeled plain inner => exact .cons (.labeled plain inner) .nil
  | branch first second => exact .cons (.branch first second) .nil
  | branches first second third => exact .cons (.branches first second third) .nil
  | whileLoop first second => exact .cons (.whileLoop first second) .nil
  | doWhileLoop first second => exact .cons (.doWhileLoop first second) .nil
  | forLoop first second third fourth => exact .cons (.forLoop first second third fourth) .nil

end SameBesides

theorem SameBesidesAll.append {first first' second second' : List Statement}
    (left : SameBesidesAll settings removes related first first')
    (right : SameBesidesAll settings removes related second second') :
    SameBesidesAll settings removes related (first ++ second) (first' ++ second') := by
  induction first generalizing first' with
  | nil =>
      cases left
      exact right
  | cons statement first ih =>
      cases left with
      | cons head tail => exact .cons head (ih tail)

end

/-- Two transformations that have counted alike, and neither of which has made a checker. -/
structure Work.Even (work work' : Work) : Prop where
  summary : work.summary = work'.summary
  none : work.helperNames = []
  none' : work'.helperNames = []

/-- Two walks that have counted alike, and neither of which has generated anything. -/
structure Pass.Even (pass pass' : Pass) : Prop where
  work : pass.work.Even pass'.work
  captured : pass.captured = .empty
  captured' : pass'.captured = .empty
  postconditions : pass.postconditions = []
  postconditions' : pass'.postconditions = []

theorem Pass.Even.counted {pass pass' : Pass} (even : pass.Even pass')
    (change : Summary → Summary) : (pass.counted change).Even (pass'.counted change) where
  work := ⟨congrArg change even.work.summary, even.work.none, even.work.none'⟩
  captured := even.captured
  captured' := even.captured'
  postconditions := even.postconditions
  postconditions' := even.postconditions'

/-- Stretches that are the same but for what is removed, as far as they are still to be walked. -/
inductive StretchSameBesides (settings : Settings) (removes : Kind → Bool)
    (related : Function → Function → Prop) : Stretch → Stretch → Prop where
  | list {before before' rest rest' : List Statement}
      (done : (functionsApart related).OnStatements before before')
      (same : SameBesidesAll settings removes related rest rest') :
      StretchSameBesides settings removes related (.list before rest) (.list before' rest')
  | inside {statement statement' : Statement}
      (unknown : ∀ label ∈ statement.label?, settings.roleOf label = .other)
      (same : SameBesides settings removes related statement statement') :
      StretchSameBesides settings removes related (.inside statement) (.inside statement')
  | slot {statement statement' : Statement}
      (same : SameBesides settings removes related statement statement') :
      StretchSameBesides settings removes related (.slot statement) (.slot statement')

/-- A walk from a pass, with a result that differs from a given one in functions only. -/
def WalksAlike (context : Context) (related : Function → Function → Prop) (stretch : Stretch)
    (pass : Pass) (result : List Statement) (after : Pass) : Prop :=
  ∃ result' after', Walks context stretch pass result' after' ∧
    (functionsApart related).OnStatements result result' ∧ after.Even after'

section

variable {context : Context} {related : Function → Function → Prop}

/-- A walk whose result is one statement is followed by one of the same kind. -/
theorem WalksAlike.single {stretch : Stretch} {pass after : Pass} {walked : Statement}
    (alike : WalksAlike context related stretch pass [walked] after) :
    ∃ walked' after', Walks context stretch pass [walked'] after' ∧
      (functionsApart related).OnStatement walked walked' ∧ after.Even after' := by
  obtain ⟨result', after', walks, inner, even⟩ := alike
  cases inner with
  | cons first second =>
      cases second
      exact ⟨_, after', walks, first, even⟩

/-- One statement that is walked over gives one statement. -/
theorem WalksAlike.of_single {stretch : Stretch} {pass after after' : Pass}
    {walked walked' : Statement} (walks : Walks context stretch pass [walked'] after')
    (inner : (functionsApart related).OnStatement walked walked') (even : after.Even after') :
    WalksAlike context related stretch pass [walked] after :=
  ⟨[walked'], after', walks, .cons inner .nil, even⟩

theorem recognizes_of_label? {scopes : ScopeStack} {statement statement' : Statement}
    (same : statement'.label? = statement.label?) :
    Context.recognizes { context with scopes := scopes } statement' =
      context.recognizes statement := by
  rw [Context.recognizes, same]
  rfl

theorem role_of_unrecognized {statement : Statement}
    (unknown : context.recognizes statement = false) :
    ∀ label ∈ statement.label?, context.settings.roleOf label = .other := by
  intro label found
  simpa [Context.recognizes, Option.mem_def.mp found] using unknown

/--
A walk that removes contracts is followed by a walk over what is the same
besides, whatever scopes there are around it.
-/
theorem Walks.followed (strips : context.settings.stripsContracts = true) (scopes : ScopeStack)
    {stretch : Stretch} {pass after : Pass} {result : List Statement}
    (walks : Walks context stretch pass result after) :
    ∀ {stretch' pass'},
      StretchSameBesides context.settings context.removes related stretch stretch' →
        pass.Even pass' →
          WalksAlike { context with scopes := scopes } related stretch' pass' result after := by
  have keeps : ¬ context.settings.stripsContracts = false := by simp [strips]
  induction walks with
  | done before pass =>
      rintro _ pass' (⟨done, same⟩) even
      cases same
      exact ⟨_, pass', .done _ pass', done, even⟩
  | ignored role ignored _ induction =>
      rintro _ pass' (⟨done, same⟩) even
      obtain _ | ⟨first, second⟩ := same
      obtain ⟨body', rfl, inner⟩ := first.of_contract role
      have apart := inner (by simp [Context.removes, ignored])
      obtain ⟨result', after', walk, alike, even'⟩ :=
        induction (.list (done.snoc (.labeled apart)) second) even
      exact ⟨result', after', .ignored role ignored walk, alike, even'⟩
  | stripped role counts strips _ induction =>
      rintro _ pass' (⟨done, same⟩) even
      obtain _ | ⟨first, second⟩ := same
      obtain ⟨body', rfl, _⟩ := first.of_contract role
      obtain ⟨result', after', walk, alike, even'⟩ :=
        induction (.list done second) (even.counted _)
      exact ⟨result', after', .stripped role counts strips walk, alike, even'⟩
  | inPlace _ _ absurd | postcondition _ _ absurd | invariant _ _ absurd =>
      exact (keeps absurd).elim
  | kept role action _ _ firstInduction induction =>
      rintro _ pass' (⟨done, same⟩) even
      obtain _ | ⟨first, second⟩ := same
      obtain ⟨body', rfl, inner⟩ := first.of_labeled (by simp [role])
      obtain ⟨walked', between', walk, alike, even'⟩ := (firstInduction (.slot inner) even).single
      obtain ⟨result', after', rest, alike', even''⟩ :=
        induction (.list (done.snoc (.labeled alike)) second) even'
      exact ⟨result', after', .kept role action walk rest, alike', even''⟩
  | removed role action _ induction =>
      rintro _ pass' (⟨done, same⟩) even
      obtain _ | ⟨first, second⟩ := same
      obtain ⟨body', rfl, _⟩ := first.of_labeled (by simp [role])
      obtain ⟨result', after', walk, alike, even'⟩ :=
        induction (.list done second) (even.counted _)
      exact ⟨result', after', .removed role action walk, alike, even'⟩
  | inlined role action _ induction =>
      rintro _ pass' (⟨done, same⟩) even
      obtain _ | ⟨first, second⟩ := same
      obtain ⟨body', rfl, inner⟩ := first.of_labeled (by simp [role])
      obtain ⟨result', after', walk, alike, even'⟩ :=
        induction (.list done (inner.unlabeled.append second)) (even.counted _)
      exact ⟨result', after', .inlined role action walk, alike, even'⟩
  | other role _ _ firstInduction induction =>
      rintro _ pass' (⟨done, same⟩) even
      obtain _ | ⟨first, second⟩ := same
      obtain ⟨body', rfl, inner⟩ := first.of_labeled (by simp [role])
      obtain ⟨walked', between', walk, alike, even'⟩ := (firstInduction (.slot inner) even).single
      obtain ⟨result', after', rest, alike', even''⟩ :=
        induction (.list (done.snoc (.labeled alike)) second) even'
      exact ⟨result', after', .other role walk rest, alike', even''⟩
  | unlabeled plain _ _ firstInduction induction =>
      rintro _ pass' (⟨done, same⟩) even
      obtain _ | ⟨first, second⟩ := same
      obtain ⟨walked', between', walk, alike, even'⟩ :=
        (firstInduction (.inside (by simp [plain]) first) even).single
      obtain ⟨result', after', rest, alike', even''⟩ :=
        induction (.list (done.snoc alike) second) even'
      exact ⟨result', after', .unlabeled (first.label?_eq.trans plain) walk rest, alike', even''⟩
  | simple simple =>
      rintro _ pass' (_ | ⟨unknown, same⟩) even
      have inner := same.of_simple simple
      exact .of_single (.simple (isSimple_of_functionsApart inner simple)) inner even
  | block _ induction =>
      rintro _ pass' (_ | ⟨unknown, same⟩) even
      cases same with
      | block inner =>
          obtain ⟨walked', after', walk, alike, even'⟩ := induction (.list .nil inner) even
          exact .of_single (.block walk) (.block alike) even'
      | simple simple _ => cases simple
  | labeled _ induction =>
      rintro _ pass' (_ | ⟨unknown, same⟩) even
      obtain ⟨body', rfl, inner⟩ := same.of_labeled (by simp [unknown _ rfl])
      obtain ⟨walked', after', walk, alike, even'⟩ := (induction (.slot inner) even).single
      exact .of_single (.labeled walk) (.labeled alike) even'
  | branch _ induction =>
      rintro _ pass' (_ | ⟨unknown, same⟩) even
      cases same with
      | branch test inner =>
          obtain ⟨walked', after', walk, alike, even'⟩ := (induction (.slot inner) even).single
          exact .of_single (.branch walk) (.branch test alike .none) even'
      | simple simple _ => cases simple
  | branches _ _ firstInduction secondInduction =>
      rintro _ pass' (_ | ⟨unknown, same⟩) even
      cases same with
      | branches test inner other =>
          obtain ⟨walked', between', walk, alike, even'⟩ :=
            (firstInduction (.slot inner) even).single
          obtain ⟨other', after', second, alike', even''⟩ :=
            (secondInduction (.slot other) even').single
          exact .of_single (.branches walk second) (.branch test alike (.some alike')) even''
      | simple simple _ => cases simple
  | whileLoop _ induction =>
      rintro _ pass' (_ | ⟨unknown, same⟩) even
      cases same with
      | whileLoop test inner =>
          obtain ⟨walked', after', walk, alike, even'⟩ := (induction (.slot inner) even).single
          exact .of_single (.whileLoop walk) (.whileLoop test alike) even'
      | simple simple _ => cases simple
  | doWhileLoop _ induction =>
      rintro _ pass' (_ | ⟨unknown, same⟩) even
      cases same with
      | doWhileLoop inner test =>
          obtain ⟨walked', after', walk, alike, even'⟩ := (induction (.slot inner) even).single
          exact .of_single (.doWhileLoop walk) (.doWhileLoop alike test) even'
      | simple simple _ => cases simple
  | forLoop _ induction =>
      rintro _ pass' (_ | ⟨unknown, same⟩) even
      cases same with
      | forLoop init test update inner =>
          obtain ⟨walked', after', walk, alike, even'⟩ := (induction (.slot inner) even).single
          exact .of_single (.forLoop walk) (.forLoop init test update alike) even'
      | simple simple _ => cases simple
  | wrapped recognized _ induction =>
      rintro _ pass' (_ | _ | same) even
      obtain ⟨result', after', walk, alike, even'⟩ := induction (.list .nil (.cons same .nil)) even
      exact .of_single (.wrapped (by rwa [recognizes_of_label? same.label?_eq]) walk)
        (.block alike) even'
  | bare unknown _ induction =>
      rintro _ pass' (_ | _ | same) even
      obtain ⟨walked', after', walk, alike, even'⟩ :=
        (induction (.inside (role_of_unrecognized unknown) same) even).single
      exact .of_single (.bare (by rwa [recognizes_of_label? same.label?_eq]) walk) alike even'

end

end Covenant.Contract
