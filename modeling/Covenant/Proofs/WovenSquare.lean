import Covenant.Proofs.Ground
import Covenant.Proofs.Routed
import Covenant.Proofs.Square

/-!
# Exchanging the functions of a woven program

When the functions in a program and in one that it is woven from are
transformed, the results are woven again, as far as the functions in them
correspond.  The statements that are woven in contain no functions but those of
checkers, and these stay as they are.
-/

namespace Covenant.Woven

open Contract Machine

/-- What two exchanges make of corresponding functions corresponds, and checkers are given back. -/
structure Squares (base : Correspondence) (left right : Exchange) (result : Correspondence) :
    Prop where
  visible {name : String} : base.visible name ↔ result.visible name
  checker {name : String} : base.checker name ↔ result.checker name
  function {first second first' second' : Function} :
    base.function first second → left.function first first' → right.function second second' →
      result.function first' second'
  onlyLeft : OnlyFunctions left
  onlyRight : OnlyFunctions right
  /-- Whole declarations are only exchanged for themselves if none of their names is visible. -/
  passedLeft {kind : DeclarationKind} {declarators : List Declarator} {target : Statement} :
    left.statement (.bindings kind declarators) target →
      ∀ name ∈ namesOfDeclarators declarators, ¬ base.visible name
  passedRight {kind : DeclarationKind} {declarators : List Declarator} {target : Statement} :
    right.statement (.bindings kind declarators) target →
      ∀ name ∈ namesOfDeclarators declarators, ¬ base.visible name
  givesBack {checker : Checker} (parameter : String) :
    (∀ guard ∈ checker.guards, IsPlainGuard false guard) →
      left.GivesBack (checker.function parameter)

section

set_option linter.unusedSectionVars false

variable {base result : Correspondence} {left right : Exchange}
  (squares : Squares base left right result)

/-- Expressions without functions are given back. -/
theorem eq_of_noFunctions
    {exchange : Exchange} (only : OnlyFunctions exchange) {source target : Expression}
    (related : exchange.OnExpression source target)
    (none : functionsOf (source.nodes false) = []) : target = source := by
  refine related.eq only.expression fun function member => ?_
  rw [none] at member
  cases member

include squares

theorem Squares.exchange :
    Exchange.Squares base.exchange left right result.exchange where
  name := squares.visible.mp
  function := squares.function
  base := id
  left := squares.onlyLeft.expression
  right := squares.onlyRight.expression

/-! ## Statements that are woven in -/

theorem Silent.carried {statement : Statement} (silent : Silent base statement) :
    Silent result statement := by
  cases silent with
  | guard plain => exact .guard plain
  | check named => exact .check (squares.checker.mp named)
  | declaration parameter named guards =>
      exact .declaration parameter (squares.checker.mp named) guards
  | constant hidden apart plain =>
      exact .constant (fun visible => hidden (squares.visible.mpr visible))
        (fun checker => apart (squares.checker.mpr checker)) plain

/-- A statement that is woven in is given back. -/
theorem Silent.eq {statement target : Statement} (silent : Silent base statement)
    (related : left.OnStatement statement target) : target = statement := by
  cases silent with
  | guard plain =>
      obtain ⟨test, message, rfl, testPlain, messagePlain⟩ := plain
      cases related with
      | exchanged given => exact (squares.onlyLeft.not_exchanged given nofun).elim
      | branch first second third =>
          cases third
          cases second with
          | exchanged given => exact (squares.onlyLeft.not_exchanged given nofun).elim
          | block inner =>
              cases inner with
              | cons head tail =>
                  cases tail
                  cases head with
                  | exchanged given => exact (squares.onlyLeft.not_exchanged given nofun).elim
                  | raise argument =>
                      rw [eq_of_noFunctions squares.onlyLeft first, eq_of_noFunctions squares.onlyLeft argument]
                      · rfl
                      · simp [Expression.nodes, nodesOfExpressions,
                          message.functionsOf_plain messagePlain]
                      · simp [Expression.nodes, test.functionsOf_plain testPlain]
  | check named => exact eq_of_check squares.onlyLeft related
  | declaration parameter named guards =>
      cases related with
      | exchanged given => exact (squares.onlyLeft.statement given).1.symm
      | bindings inner =>
          cases inner with
          | cons _ first second =>
              cases second
              rw [first.eq squares.onlyLeft.expression]
              · rfl
              · rw [nodesOfOptional, Expression.nodes, AllFunctions.cons_expression,
                  AllFunctions.of_lambda]
                exact squares.givesBack parameter guards
  | constant hidden apart plain =>
      cases related with
      | exchanged given => exact (squares.onlyLeft.statement given).1.symm
      | bindings inner =>
          cases inner with
          | cons _ first second =>
              cases second
              cases first with
              | some inner =>
                  rw [eq_of_noFunctions squares.onlyLeft inner (Expression.functionsOf_plain _ plain)]

/-! ## Statements that correspond -/

/-- Related values that are returned stay related after an exchange on either side. -/
theorem Returned.square
    {argument other argument' other' : Option Expression} (returned : Returned base argument other)
    (before : left.OnOptional argument argument') (after : right.OnOptional other other') :
    Returned result argument' other' := by
  induction returned generalizing argument' other' with
  | same inner => exact .same (inner.square squares.exchange before after)
  | @routed checker argument other named _ induction =>
      cases before with
      | some called =>
          obtain ⟨changed, given, rfl⟩ := exists_of_call squares.onlyLeft called
          have named' := squares.checker.mp named
          cases argument with
          | none =>
              rw [Option.getD_none] at given
              rw [eq_of_literal squares.onlyLeft given]
              exact .routed named' (induction .none after)
          | some argument =>
              rw [Option.getD_some] at given
              exact .routed named' (induction (.some given) after)

/-- A declaration of variables that is passed over declares nothing at all. -/
theorem bindings_square
    {kind : DeclarationKind} {declarators declarators' : List Declarator}
    {target target' : Statement} (inner : base.exchange.OnDeclarators declarators declarators')
    (before : left.OnStatement (.bindings kind declarators) target)
    (after : right.OnStatement (.bindings kind declarators') target') :
    OnStatement result target target' := by
  cases inner with
  | nil =>
      have same : target = .bindings kind [] := by
        cases before with
        | exchanged given => exact (squares.onlyLeft.statement given).1.symm
        | bindings before =>
            cases before
            rfl
      have same' : target' = .bindings kind [] := by
        cases after with
        | exchanged given => exact (squares.onlyRight.statement given).1.symm
        | bindings after =>
            cases after
            rfl
      rw [same, same']
      exact .bindings .nil
  | cons known first second =>
      cases before with
      | exchanged given => exact (squares.passedLeft given _ List.mem_cons_self known).elim
      | bindings before =>
          cases after with
          | exchanged given => exact (squares.passedRight given _ List.mem_cons_self known).elim
          | bindings after =>
              exact .bindings
                (Exchange.OnDeclarators.square squares.exchange (.cons known first second)
                  before after)

mutual

/-- A woven statement is still woven after an exchange on either side. -/
theorem OnStatement.square {statement other statement' other' : Statement} :
    OnStatement base statement other → left.OnStatement statement statement' →
      right.OnStatement other other' → OnStatement result statement' other'
  | .bindings inner, before, after => bindings_square squares inner before after
  | .evaluate _, .exchanged given, _ | .block _, .exchanged given, _
  | .labeled _, .exchanged given, _ | .giveBack _, .exchanged given, _
  | .branch _ _ _, .exchanged given, _ | .whileLoop _ _, .exchanged given, _
  | .doWhileLoop _ _, .exchanged given, _ | .forLoop _ _ _ _, .exchanged given, _
  | .declare _, .exchanged given, _ | .raise _, .exchanged given, _
  | .breakOut _, .exchanged given, _ | .continueLoop _, .exchanged given, _
  | .empty, .exchanged given, _ => (squares.onlyLeft.not_exchanged given nofun).elim
  | .evaluate _, _, .exchanged given | .block _, _, .exchanged given
  | .labeled _, _, .exchanged given | .giveBack _, _, .exchanged given
  | .branch _ _ _, _, .exchanged given | .whileLoop _ _, _, .exchanged given
  | .doWhileLoop _ _, _, .exchanged given | .forLoop _ _ _ _, _, .exchanged given
  | .declare _, _, .exchanged given | .raise _, _, .exchanged given
  | .breakOut _, _, .exchanged given | .continueLoop _, _, .exchanged given
  | .empty, _, .exchanged given => (squares.onlyRight.not_exchanged given nofun).elim
  | .evaluate inner, .evaluate before, .evaluate after =>
      .evaluate (inner.square squares.exchange before after)
  | .block inner, .block before, .block after => .block (inner.square before after)
  | .labeled inner, .labeled before, .labeled after => .labeled (inner.square before after)
  | .giveBack inner, .giveBack before, .giveBack after =>
      .giveBack (inner.square squares before after)
  | .branch test consequent alternate, .branch testBefore consequentBefore alternateBefore,
      .branch testAfter consequentAfter alternateAfter =>
      .branch (test.square squares.exchange testBefore testAfter)
        (consequent.square consequentBefore consequentAfter)
        (alternate.square alternateBefore alternateAfter)
  | .whileLoop test body, .whileLoop testBefore bodyBefore, .whileLoop testAfter bodyAfter =>
      .whileLoop (test.square squares.exchange testBefore testAfter)
        (body.square bodyBefore bodyAfter)
  | .doWhileLoop body test, .doWhileLoop bodyBefore testBefore, .doWhileLoop bodyAfter testAfter =>
      .doWhileLoop (body.square bodyBefore bodyAfter)
        (test.square squares.exchange testBefore testAfter)
  | .forLoop init test update body, .forLoop initBefore testBefore updateBefore bodyBefore,
      .forLoop initAfter testAfter updateAfter bodyAfter =>
      .forLoop (init.square squares.exchange initBefore initAfter)
        (test.square squares.exchange testBefore testAfter)
        (update.square squares.exchange updateBefore updateAfter)
        (body.square bodyBefore bodyAfter)
  | .declare inner, .declare before, .declare after =>
      .declare (squares.function inner before after)
  | .raise inner, .raise before, .raise after =>
      .raise (inner.square squares.exchange before after)
  | .breakOut label, .breakOut _, .breakOut _ => .breakOut label
  | .continueLoop label, .continueLoop _, .continueLoop _ => .continueLoop label
  | .empty, .empty, .empty => .empty

theorem OnAlternate.square {alternate other alternate' other' : Option Statement} :
    OnAlternate base alternate other → left.OnAlternate alternate alternate' →
      right.OnAlternate other other' → OnAlternate result alternate' other'
  | .none, .none, .none => .none
  | .some inner, .some before, .some after => .some (inner.square before after)

/-- Woven statements are still woven after an exchange on either side. -/
theorem OnStatements.square {statements others statements' others' : List Statement} :
    OnStatements base statements others → left.OnStatements statements statements' →
      right.OnStatements others others' → OnStatements result statements' others'
  | .nil, .nil, .nil => .nil
  | .cons first second, .cons firstBefore secondBefore, .cons firstAfter secondAfter =>
      .cons (first.square firstBefore firstAfter) (second.square secondBefore secondAfter)
  | .silent first second, .cons before rest, after => by
      rw [first.eq squares before]
      exact .silent (first.carried squares) (second.square rest after)

end

end

end Covenant.Woven
