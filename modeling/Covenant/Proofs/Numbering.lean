import Covenant.Proofs.Exchange
import Covenant.Proofs.Reference

/-!
# Numbered references

Listing the nodes of a tree and replacing parts of it are two recursions over
all forms of expressions and statements.  They go through the same parts in
the same order: numbering the references of a program reaches exactly those
that are listed, one after the other as they are listed, and leaves everything
else as it is.
-/

namespace Covenant

/-! ## The lines of a listing -/

/--
The lines that describe nodes, with a number after the name of each reference:
its place among the references, counted from those already numbered.
-/
def numberedLines : (count : Nat) → List Node → List String
  | _, [] => []
  | count, node :: rest =>
    match node.reference? with
    | some name =>
      ("Identifier " ++ (name ++ "_" ++ Nat.repr (count + 1))) :: numberedLines (count + 1) rest
    | none => node.describe :: numberedLines count rest

theorem numberedLines_append (first second : List Node) (count : Nat) :
    numberedLines count (first ++ second) =
      numberedLines count first ++ numberedLines (count + (references first).length) second := by
  induction first generalizing count with
  | nil => rfl
  | cons node rest ih =>
      cases named : node.reference? with
      | none => simp [numberedLines, references, named, ih]
      | some name =>
          simp only [List.cons_append, numberedLines, references, named, ih,
            List.filterMap_cons_some named, List.length_cons]
          rw [Nat.add_right_comm, Nat.add_assoc]

/-- What numbering makes of listed nodes: how they read afterwards, and where the count ends. -/
structure Numbers (count : Nat) (source target : List Node) (after : Nat) : Prop where
  counted : after = count + (references source).length
  reads : target.map Node.describe = numberedLines count source

namespace Numbers

variable {count between after : Nat} {source source' target target' : List Node}

theorem nil : Numbers count [] [] count :=
  ⟨rfl, rfl⟩

theorem append (first : Numbers count source target between)
    (second : Numbers between source' target' after) :
    Numbers count (source ++ source') (target ++ target') after where
  counted := by
    rw [second.counted, first.counted, references_append, List.length_append, Nat.add_assoc]
  reads := by
    rw [numberedLines_append, List.map_append, first.reads, second.reads, first.counted]

/-- A node that is no reference reads as before. -/
theorem under {node node' : Node} (plain : node.reference? = none)
    (same : node'.describe = node.describe) (inner : Numbers count source target after) :
    Numbers count (node :: source) (node' :: target) after where
  counted := by
    rw [inner.counted, references, references, List.filterMap_cons_none plain]
  reads := by
    rw [List.map_cons, inner.reads, same, numberedLines, plain]

/-- A reference reads with its number. -/
theorem reference (name : String) :
    Numbers count [.expression (.identifier name)]
      [.expression (.identifier (name ++ "_" ++ Nat.repr (count + 1)))] (count + 1) :=
  ⟨rfl, rfl⟩

end Numbers

/-! ## What stays the same -/

/-- References may be exchanged for each other, functions as given, and nothing else. -/
def Exchange.ofReferences (function : Function → Function → Prop) : Exchange where
  name _ := True
  function := function
  expression source target :=
    ∃ name name', source = .identifier name ∧ target = .identifier name'
  statement _ _ := False

/--
Functions that are the same but for references in them, at any depth, where
functions are entered; where they are not entered the functions are the same.
-/
inductive SameBesidesReferences (enter : Bool) : Function → Function → Prop where
  | entered {name : Option String} {parameters : List String} {body body' : FunctionBody}
      {isArrow isAsync isGenerator : Bool} (enters : enter = true)
      (inner : (Exchange.ofReferences (SameBesidesReferences enter)).OnFunctionBody body body') :
      SameBesidesReferences enter ⟨name, parameters, body, isArrow, isAsync, isGenerator⟩
        ⟨name, parameters, body', isArrow, isAsync, isGenerator⟩
  | passed (function : Function) (passes : enter = false) :
      SameBesidesReferences enter function function

/-- Trees that are the same but for references, inside functions if these are entered. -/
abbrev besidesReferences (enter : Bool) : Exchange :=
  .ofReferences (SameBesidesReferences enter)

/-! ## Numbering every part of a tree -/

/-- An action numbers the references of a part from any count on, and changes nothing else. -/
def NumbersPart {α : Type} (nodes : α → List Node) (same : α → α → Prop) (source : α)
    (action : StateM Nat α) : Prop :=
  ∀ count,
    Numbers count (nodes source) (nodes (action count).1) (action count).2 ∧
      same source (action count).1

section

open Replacer Numbers

variable (enter : Bool)

mutual

/-- Numbering goes through an expression as listing does. -/
theorem onExpression_numbers : (source : Expression) →
    NumbersPart (Expression.nodes enter) (besidesReferences enter).OnExpression source
      ((numberReferences enter).onExpression source)
  | .literal value => by
      intro count
      rw [onExpression]
      exact ⟨under rfl rfl nil, .literal value⟩
  | .identifier name => by
      intro count
      rw [onExpression]
      exact ⟨reference name, .exchanged ⟨name, _, rfl, rfl⟩⟩
  | .receiver => by
      intro count
      rw [onExpression]
      exact ⟨under rfl rfl nil, .receiver⟩
  | .array elements => by
      intro count
      have inner := onExpressions_numbers elements count
      rw [onExpression]
      exact ⟨under rfl rfl inner.1, .array inner.2⟩
  | .record properties => by
      intro count
      have inner := onProperties_numbers properties count
      rw [onExpression]
      exact ⟨under rfl rfl inner.1, .record inner.2⟩
  | .lambda function => by
      intro count
      have inner := onFunction_numbers function count
      rw [onExpression]
      exact ⟨under rfl rfl inner.1, .lambda inner.2⟩
  | .unary operator argument => by
      intro count
      have inner := onExpression_numbers argument count
      rw [onExpression]
      exact ⟨under rfl rfl inner.1, .unary inner.2⟩
  | .update operator leading argument => by
      intro count
      have inner := onExpression_numbers argument count
      rw [onExpression]
      exact ⟨under rfl rfl inner.1, .update inner.2⟩
  | .binary operator left right => by
      intro count
      have first := onExpression_numbers left count
      have second := onExpression_numbers right
      rw [onExpression]
      exact ⟨under rfl rfl (first.1.append (second _).1), .binary first.2 (second _).2⟩
  | .logical operator left right => by
      intro count
      have first := onExpression_numbers left count
      have second := onExpression_numbers right
      rw [onExpression]
      exact ⟨under rfl rfl (first.1.append (second _).1), .logical first.2 (second _).2⟩
  | .assign operator target value => by
      intro count
      have first := onExpression_numbers target count
      have second := onExpression_numbers value
      rw [onExpression]
      exact ⟨under rfl rfl (first.1.append (second _).1), .assign first.2 (second _).2⟩
  | .conditional test consequent alternate => by
      intro count
      have first := onExpression_numbers test count
      have second := onExpression_numbers consequent
      have third := onExpression_numbers alternate
      rw [onExpression]
      exact ⟨under rfl rfl ((first.1.append (second _).1).append (third _).1),
        .conditional first.2 (second _).2 (third _).2⟩
  | .call callee arguments => by
      intro count
      have first := onExpression_numbers callee count
      have second := onExpressions_numbers arguments
      rw [onExpression]
      exact ⟨under rfl rfl (first.1.append (second _).1), .call first.2 (second _).2⟩
  | .construct callee arguments => by
      intro count
      have first := onExpression_numbers callee count
      have second := onExpressions_numbers arguments
      rw [onExpression]
      exact ⟨under rfl rfl (first.1.append (second _).1), .construct first.2 (second _).2⟩
  | .member object name => by
      intro count
      have inner := onExpression_numbers object count
      rw [onExpression]
      exact ⟨under rfl rfl inner.1, .member inner.2⟩
  | .index object key => by
      intro count
      have first := onExpression_numbers object count
      have second := onExpression_numbers key
      rw [onExpression]
      exact ⟨under rfl rfl (first.1.append (second _).1), .index first.2 (second _).2⟩
  | .sequence expressions => by
      intro count
      have inner := onExpressions_numbers expressions count
      rw [onExpression]
      exact ⟨under rfl rfl inner.1, .sequence inner.2⟩
  | .yield argument delegate => by
      intro count
      have inner := onOptional_numbers argument count
      rw [onExpression]
      exact ⟨under rfl rfl inner.1, .yield inner.2⟩
  | .await argument => by
      intro count
      have inner := onExpression_numbers argument count
      rw [onExpression]
      exact ⟨under rfl rfl inner.1, .await inner.2⟩

theorem onExpressions_numbers : (source : List Expression) →
    NumbersPart (nodesOfExpressions enter) (besidesReferences enter).OnExpressions source
      ((numberReferences enter).onExpressions source)
  | [] => by
      intro count
      rw [onExpressions]
      exact ⟨nil, .nil⟩
  | expression :: rest => by
      intro count
      have first := onExpression_numbers expression count
      have second := onExpressions_numbers rest
      rw [onExpressions]
      exact ⟨first.1.append (second _).1, .cons first.2 (second _).2⟩

theorem onProperties_numbers : (source : List Property) →
    NumbersPart (nodesOfProperties enter) (besidesReferences enter).OnProperties source
      ((numberReferences enter).onProperties source)
  | [] => by
      intro count
      rw [onProperties]
      exact ⟨nil, .nil⟩
  | ⟨key, value⟩ :: rest => by
      intro count
      have first := onExpression_numbers value count
      have second := onProperties_numbers rest
      rw [onProperties]
      exact ⟨first.1.append (second _).1, .cons first.2 (second _).2⟩

theorem onOptional_numbers : (source : Option Expression) →
    NumbersPart (nodesOfOptional enter) (besidesReferences enter).OnOptional source
      ((numberReferences enter).onOptional source)
  | none => by
      intro count
      rw [onOptional]
      exact ⟨nil, .none⟩
  | some expression => by
      intro count
      have inner := onExpression_numbers expression count
      rw [onOptional]
      exact ⟨inner.1, .some inner.2⟩

/-- A function that is not entered stays as it is. -/
theorem onFunction_numbers : (source : Function) →
    NumbersPart (Function.nodes enter) (SameBesidesReferences enter) source
      ((numberReferences enter).onFunction source)
  | ⟨name, parameters, body, isArrow, isAsync, isGenerator⟩ => by
      intro count
      have inner := onFunctionBody_numbers body count
      rw [onFunction]
      cases enter with
      | false => exact ⟨under rfl rfl nil, .passed _ rfl⟩
      | true => exact ⟨under rfl rfl inner.1, .entered rfl inner.2⟩

theorem onFunctionBody_numbers : (source : FunctionBody) →
    NumbersPart (FunctionBody.nodes enter) (besidesReferences enter).OnFunctionBody source
      ((numberReferences enter).onFunctionBody source)
  | .block statements => by
      intro count
      have inner := onStatements_numbers statements count
      rw [onFunctionBody]
      exact ⟨inner.1, .block inner.2⟩
  | .result expression => by
      intro count
      have inner := onExpression_numbers expression count
      rw [onFunctionBody]
      exact ⟨inner.1, .result inner.2⟩

theorem onDeclarators_numbers : (source : List Declarator) →
    NumbersPart (nodesOfDeclarators enter) (besidesReferences enter).OnDeclarators source
      ((numberReferences enter).onDeclarators source)
  | [] => by
      intro count
      rw [onDeclarators]
      exact ⟨nil, .nil⟩
  | ⟨name, init⟩ :: rest => by
      intro count
      have first := onOptional_numbers init count
      have second := onDeclarators_numbers rest
      rw [onDeclarators]
      exact ⟨first.1.append (second _).1, .cons trivial first.2 (second _).2⟩

theorem onLoopInit_numbers : (source : Option LoopInit) →
    NumbersPart (nodesOfLoopInit enter) (besidesReferences enter).OnLoopInit source
      ((numberReferences enter).onLoopInit source)
  | none => by
      intro count
      rw [onLoopInit]
      exact ⟨nil, .none⟩
  | some (.bindings kind declarators) => by
      intro count
      have inner := onDeclarators_numbers declarators count
      rw [onLoopInit]
      exact ⟨inner.1, .bindings inner.2⟩
  | some (.evaluate expression) => by
      intro count
      have inner := onExpression_numbers expression count
      rw [onLoopInit]
      exact ⟨inner.1, .evaluate inner.2⟩

/-- Numbering goes through a statement as listing does. -/
theorem onStatement_numbers : (source : Statement) →
    NumbersPart (Statement.nodes enter) (besidesReferences enter).OnStatement source
      ((numberReferences enter).onStatement source)
  | .evaluate expression => by
      intro count
      have inner := onExpression_numbers expression count
      rw [onStatement]
      exact ⟨under rfl rfl inner.1, .evaluate inner.2⟩
  | .block statements => by
      intro count
      have inner := onStatements_numbers statements count
      rw [onStatement]
      exact ⟨under rfl rfl inner.1, .block inner.2⟩
  | .labeled label body => by
      intro count
      have inner := onStatement_numbers body count
      rw [onStatement]
      exact ⟨under rfl rfl inner.1, .labeled inner.2⟩
  | .giveBack argument => by
      intro count
      have inner := onOptional_numbers argument count
      rw [onStatement]
      exact ⟨under rfl rfl inner.1, .giveBack inner.2⟩
  | .branch test consequent alternate => by
      intro count
      have first := onExpression_numbers test count
      have second := onStatement_numbers consequent
      have third := onAlternate_numbers alternate
      rw [onStatement]
      exact ⟨under rfl rfl ((first.1.append (second _).1).append (third _).1),
        .branch first.2 (second _).2 (third _).2⟩
  | .whileLoop test body => by
      intro count
      have first := onExpression_numbers test count
      have second := onStatement_numbers body
      rw [onStatement]
      exact ⟨under rfl rfl (first.1.append (second _).1), .whileLoop first.2 (second _).2⟩
  | .doWhileLoop body test => by
      intro count
      have first := onStatement_numbers body count
      have second := onExpression_numbers test
      rw [onStatement]
      exact ⟨under rfl rfl (first.1.append (second _).1), .doWhileLoop first.2 (second _).2⟩
  | .forLoop init test update body => by
      intro count
      have first := onLoopInit_numbers init count
      have second := onOptional_numbers test
      have third := onOptional_numbers update
      have fourth := onStatement_numbers body
      rw [onStatement]
      exact ⟨under rfl rfl (((first.1.append (second _).1).append (third _).1).append (fourth _).1),
        .forLoop first.2 (second _).2 (third _).2 (fourth _).2⟩
  | .bindings kind declarators => by
      intro count
      have inner := onDeclarators_numbers declarators count
      rw [onStatement]
      exact ⟨under rfl rfl inner.1, .bindings inner.2⟩
  | .declare function => by
      intro count
      have inner := onFunction_numbers function count
      rw [onStatement]
      exact ⟨under rfl rfl inner.1, .declare inner.2⟩
  | .raise argument => by
      intro count
      have inner := onExpression_numbers argument count
      rw [onStatement]
      exact ⟨under rfl rfl inner.1, .raise inner.2⟩
  | .breakOut label => by
      intro count
      rw [onStatement]
      exact ⟨under rfl rfl nil, .breakOut label⟩
  | .continueLoop label => by
      intro count
      rw [onStatement]
      exact ⟨under rfl rfl nil, .continueLoop label⟩
  | .empty => by
      intro count
      rw [onStatement]
      exact ⟨under rfl rfl nil, .empty⟩

theorem onAlternate_numbers : (source : Option Statement) →
    NumbersPart (nodesOfAlternate enter) (besidesReferences enter).OnAlternate source
      ((numberReferences enter).onAlternate source)
  | none => by
      intro count
      rw [onAlternate]
      exact ⟨nil, .none⟩
  | some statement => by
      intro count
      have inner := onStatement_numbers statement count
      rw [onAlternate]
      exact ⟨inner.1, .some inner.2⟩

theorem onStatements_numbers : (source : List Statement) →
    NumbersPart (nodesOfStatements enter) (besidesReferences enter).OnStatements source
      ((numberReferences enter).onStatements source)
  | [] => by
      intro count
      rw [onStatements]
      exact ⟨nil, .nil⟩
  | statement :: rest => by
      intro count
      have first := onStatement_numbers statement count
      have second := onStatements_numbers rest
      rw [onStatements]
      exact ⟨first.1.append (second _).1, .cons first.2 (second _).2⟩

end

end

/--
Numbering the references of a program reaches those that are listed, in the
order in which they are listed.  The count is how many there are, the numbered
program is listed as the program is, with the number of each reference after
its name, and apart from these names the programs are the same.
-/
theorem Program.numbered_follows_nodes (enter : Bool) (program : Program) :
    (program.numbered enter).2 = (references (program.nodes enter)).length ∧
      ((program.numbered enter).1.nodes enter).map Node.describe =
        numberedLines 0 (program.nodes enter) ∧
      (besidesReferences enter).OnStatements program.statements
        (program.numbered enter).1.statements := by
  obtain ⟨numbers, same⟩ := onStatements_numbers enter program.statements 0
  have counted := numbers.counted
  rw [Nat.zero_add] at counted
  exact ⟨counted, numbers.reads, same⟩

end Covenant
