import Covenant.Proofs.Lexeme
import Covenant.Proofs.Parentheses

/-!
# Reading expressions

Expressions are read by binding strengths.  What is read to meet a demand goes
on over all links that are at least as strong, and ends before the first link
that is weaker; what stands in parentheses or brackets is read anew.

Reading is stated as a relation between a text, what is read from its front,
and what is left.  The token at the front decides every step, so a text is read
in at most one way.
-/

namespace Covenant.Grammar

/-! ## Strengths -/

namespace Joint

/-- The strength of what an operator makes. -/
def strength : Joint → Nat
  | binary operator => operator.precedence
  | logical operator => operator.precedence

/-- The strength demanded of the operand before an operator. -/
def leftDemand : Joint → Nat
  | binary operator => operator.operandStrengths.1
  | logical operator => operator.precedence

/-- The strength demanded of the operand after an operator. -/
def rightDemand : Joint → Nat
  | binary operator => operator.operandStrengths.2
  | logical operator => operator.precedence + 1

/-- An operator groups to the left, except the strongest one, which groups to the right. -/
theorem demands (joint : Joint) :
    4 ≤ joint.strength ∧
      (joint.strength ≤ 13 ∧ joint.leftDemand = joint.strength ∧
          joint.rightDemand = joint.strength + 1 ∨
        joint.strength = 14 ∧ joint.leftDemand = 16 ∧ joint.rightDemand = 14) := by
  cases joint with
  | binary operator => cases operator <;> decide
  | logical operator => cases operator <;> decide

end Joint

namespace Link

/-- The strength of what a link makes. -/
def strength : Link → Nat
  | noArguments | arguments => Strength.call
  | key | member _ => Strength.member
  | joint operator => operator.strength
  | choice => Strength.conditional
  | comma => Strength.sequence

/-- The strength demanded of the expression before a link. -/
def demand : Link → Nat
  | noArguments | arguments | key | member _ => Strength.call
  | joint operator => operator.leftDemand
  | choice => Strength.conditional + 1
  | comma => Strength.assignment

/-- Calls and accesses bind first, the strongest operator is written before its own strength, and
any other link makes no more than it demands. -/
theorem demand_cases (link : Link) :
    link.demand = Strength.call ∨ (link.demand = 16 ∧ link.strength = 14) ∨
      (4 ≤ link.demand ∧ link.demand ≤ 13 ∧ link.strength ≤ link.demand) ∨
        (link.demand = 2 ∧ link.strength = 1) := by
  cases link with
  | joint operator =>
      have demands := operator.demands
      simp only [demand, strength]
      omega
  | _ => simp [demand, strength, Strength.call, Strength.conditional, Strength.assignment,
      Strength.sequence]

/-- What may stand after what an operator makes is too weak for the operand after it. -/
theorem strength_lt_rightDemand {link : Link} {joint : Joint}
    (fits : link.demand ≤ joint.strength) : link.strength < joint.rightDemand := by
  have links := link.demand_cases
  have demands := joint.demands
  simp only [Strength.call] at links
  omega

/-- What may stand after an operand of a unary operator is too weak for the operand. -/
theorem strength_lt_leading {link : Link} (fits : link.demand ≤ Strength.leading) :
    link.strength < Strength.leading := by
  have links := link.demand_cases
  simp only [Strength.call, Strength.leading] at links fits ⊢
  omega

/-- What may stand after a choice may stand after its last part, and is too weak for it. -/
theorem demand_le_assignment {link : Link} (fits : link.demand ≤ Strength.conditional) :
    link.demand ≤ Strength.assignment ∧ link.strength < Strength.assignment := by
  have links := link.demand_cases
  simp only [Strength.call, Strength.conditional, Strength.assignment] at links fits ⊢
  omega

end Link

/-! ## The relation -/

/-- What is to be read. -/
inductive Aim where
  /-- An expression that meets a demand. -/
  | expression (demand : Nat)
  /-- The rest of an expression up to its first link. -/
  | begun (lead : Lead)
  /-- The rest of an expression that meets a demand, from a part that has been read. -/
  | onward (demand : Nat) (part : Expression)
  /-- The expression that a link makes of a part that has been read. -/
  | linked (part : Expression) (link : Link)
  /-- Expressions between commas, as the elements of an array. -/
  | elements
  /-- Properties between commas, as those of an object. -/
  | properties

/-- Reading from the front of a text gives an expression and leaves a text. -/
inductive Reads (worth : String → Float) :
    Aim → List Char → Expression → List Char → Prop where
  /-- The front decides how an expression begins. -/
  | expression {demand : Nat} {text middle after rest : List Char} {lead : Lead}
      {part whole : Expression} (front : lead? worth text = some (lead, middle))
      (begun : Reads worth (.begun lead) middle part after)
      (onward : Reads worth (.onward demand part) after whole rest) :
      Reads worth (.expression demand) text whole rest
  | atom {expression : Expression} {text : List Char} :
      Reads worth (.begun (.atom expression)) text expression text
  | operator {operator : UnaryOperator} {text rest : List Char} {argument : Expression}
      (operand : Reads worth (.expression Strength.leading) text argument rest) :
      Reads worth (.begun (.operator operator)) text (.unary operator argument) rest
  | parenthesis {text rest : List Char} {inner : Expression}
      (inside : Reads worth (.expression Strength.sequence) text inner (')' :: rest)) :
      Reads worth (.begun .parenthesis) text inner rest
  | bracket {text rest : List Char} {elements : List Expression}
      (inside : Reads worth .elements text (.array elements) (']' :: rest)) :
      Reads worth (.begun .bracket) text (.array elements) rest
  | brace {text rest : List Char} {properties : List Property}
      (inside : Reads worth .properties text (.record properties) (' ' :: '\x7d' :: rest)) :
      Reads worth (.begun .brace) text (.record properties) rest
  /-- What is read ends before a weaker link. -/
  | stop {demand : Nat} {text : List Char} {part : Expression}
      (weaker : ∀ link after, follow? text = some (link, after) → link.strength < demand) :
      Reads worth (.onward demand part) text part text
  /-- What is read goes on over a link that meets the demand. -/
  | onward {demand : Nat} {text middle after rest : List Char} {link : Link}
      {part longer whole : Expression} (follows : follow? text = some (link, middle))
      (enough : demand ≤ link.strength)
      (linked : Reads worth (.linked part link) middle longer after)
      (onward : Reads worth (.onward demand longer) after whole rest) :
      Reads worth (.onward demand part) text whole rest
  | noArguments {text : List Char} {callee : Expression} :
      Reads worth (.linked callee .noArguments) text (.call callee []) text
  | arguments {text rest : List Char} {callee : Expression} {arguments : List Expression}
      (inside : Reads worth .elements text (.array arguments) (')' :: rest)) :
      Reads worth (.linked callee .arguments) text (.call callee arguments) rest
  | key {text rest : List Char} {object key : Expression}
      (inside : Reads worth (.expression Strength.sequence) text key (']' :: rest)) :
      Reads worth (.linked object .key) text (.index object key) rest
  | member {name : String} {text : List Char} {object : Expression} :
      Reads worth (.linked object (.member name)) text (.member object name) text
  | joint {joint : Joint} {text rest : List Char} {left right : Expression}
      (operand : Reads worth (.expression joint.rightDemand) text right rest) :
      Reads worth (.linked left (.joint joint)) text (joint.join left right) rest
  | choice {text middle rest : List Char} {test consequent alternate : Expression}
      (first : Reads worth (.expression Strength.assignment) text consequent
        (' ' :: ':' :: ' ' :: middle))
      (second : Reads worth (.expression Strength.assignment) middle alternate rest) :
      Reads worth (.linked test .choice) text (.conditional test consequent alternate) rest
  | comma {text rest : List Char} {first : Expression} {others : List Expression}
      (further : Reads worth .elements text (.array others) rest) :
      Reads worth (.linked first .comma) text (.sequence (first :: others)) rest
  | lastElement {text rest : List Char} {element : Expression}
      (first : Reads worth (.expression Strength.assignment) text element rest)
      (noComma : ∀ after, follow? rest ≠ some (.comma, after)) :
      Reads worth .elements text (.array [element]) rest
  | element {text middle after rest : List Char} {element : Expression}
      {others : List Expression}
      (first : Reads worth (.expression Strength.assignment) text element middle)
      (comma : follow? middle = some (.comma, after))
      (further : Reads worth .elements after (.array others) rest) :
      Reads worth .elements text (.array (element :: others)) rest
  | lastProperty {text middle rest : List Char} {key : String} {value : Expression}
      (named : key? text = some (key, middle))
      (first : Reads worth (.expression Strength.assignment) middle value rest)
      (noComma : ∀ after, follow? rest ≠ some (.comma, after)) :
      Reads worth .properties text (.record [⟨key, value⟩]) rest
  | property {text middle between after rest : List Char} {key : String} {value : Expression}
      {others : List Property}
      (named : key? text = some (key, middle))
      (first : Reads worth (.expression Strength.assignment) middle value between)
      (comma : follow? between = some (.comma, after))
      (further : Reads worth .properties after (.record others) rest) :
      Reads worth .properties text (.record (⟨key, value⟩ :: others)) rest

namespace Reads

variable {worth : String → Float} {aim : Aim} {text rest : List Char} {expression : Expression}

/-- A text is read in at most one way. -/
theorem unique (reads : Reads worth aim text expression rest) :
    ∀ {other : Expression} {left : List Char}, Reads worth aim text other left →
      expression = other ∧ rest = left := by
  -- The front of the text leaves one rule to the second reading at every step of the first.
  induction reads with
  | expression front _ _ begins goesOn =>
      rintro other left ⟨front', begun, onward⟩
      cases front.symm.trans front'
      rcases begins begun with ⟨rfl, rfl⟩
      exact goesOn onward
  | atom =>
      rintro other left ⟨⟩
      exact ⟨rfl, rfl⟩
  | operator _ only =>
      intro other left reads
      cases reads with
      | operator operand =>
          rcases only operand with ⟨rfl, rfl⟩
          exact ⟨rfl, rfl⟩
  | parenthesis _ only =>
      intro other left reads
      cases reads with
      | parenthesis inside =>
          rcases only inside with ⟨rfl, same⟩
          exact ⟨rfl, List.tail_eq_of_cons_eq same⟩
  | bracket _ only =>
      intro other left reads
      cases reads with
      | bracket inside =>
          rcases only inside with ⟨same, left⟩
          exact ⟨same, List.tail_eq_of_cons_eq left⟩
  | brace _ only =>
      intro other left reads
      cases reads with
      | brace inside =>
          rcases only inside with ⟨same, left⟩
          cases left
          exact ⟨same, rfl⟩
  | stop weaker =>
      intro other left reads
      cases reads with
      | stop _ => exact ⟨rfl, rfl⟩
      | onward follows enough _ _ =>
          exact absurd enough (Nat.not_le.mpr (weaker _ _ follows))
  | onward follows enough _ _ links goesOn =>
      intro other left reads
      cases reads with
      | stop weaker => exact absurd enough (Nat.not_le.mpr (weaker _ _ follows))
      | onward follows' _ linked onward =>
          cases follows.symm.trans follows'
          rcases links linked with ⟨rfl, rfl⟩
          exact goesOn onward
  | noArguments =>
      rintro other left ⟨⟩
      exact ⟨rfl, rfl⟩
  | arguments _ only =>
      intro other left reads
      cases reads with
      | arguments inside =>
          rcases only inside with ⟨⟨⟩, same⟩
          exact ⟨rfl, List.tail_eq_of_cons_eq same⟩
  | key _ only =>
      intro other left reads
      cases reads with
      | key inside =>
          rcases only inside with ⟨rfl, same⟩
          exact ⟨rfl, List.tail_eq_of_cons_eq same⟩
  | member =>
      rintro other left ⟨⟩
      exact ⟨rfl, rfl⟩
  | joint _ only =>
      intro other left reads
      cases reads with
      | joint operand =>
          rcases only operand with ⟨rfl, rfl⟩
          exact ⟨rfl, rfl⟩
  | choice _ _ first second =>
      intro other left reads
      cases reads with
      | choice first' second' =>
          rcases first first' with ⟨rfl, ⟨⟩⟩
          rcases second second' with ⟨rfl, rfl⟩
          exact ⟨rfl, rfl⟩
  | comma _ only =>
      intro other left reads
      cases reads with
      | comma further =>
          rcases only further with ⟨⟨⟩, rfl⟩
          exact ⟨rfl, rfl⟩
  | lastElement _ noComma only =>
      intro other left reads
      cases reads with
      | lastElement first _ =>
          rcases only first with ⟨rfl, rfl⟩
          exact ⟨rfl, rfl⟩
      | element first comma _ =>
          rcases only first with ⟨rfl, rfl⟩
          exact absurd comma (noComma _)
  | element _ comma _ only others =>
      intro other left reads
      cases reads with
      | lastElement first noComma =>
          rcases only first with ⟨rfl, rfl⟩
          exact absurd comma (noComma _)
      | element first comma' further =>
          rcases only first with ⟨rfl, rfl⟩
          cases comma.symm.trans comma'
          rcases others further with ⟨⟨⟩, rfl⟩
          exact ⟨rfl, rfl⟩
  | lastProperty named _ noComma only =>
      intro other left reads
      cases reads with
      | lastProperty named' first _ =>
          cases named.symm.trans named'
          rcases only first with ⟨rfl, rfl⟩
          exact ⟨rfl, rfl⟩
      | property named' first comma _ =>
          cases named.symm.trans named'
          rcases only first with ⟨rfl, rfl⟩
          exact absurd comma (noComma _)
  | property named _ comma _ only others =>
      intro other left reads
      cases reads with
      | lastProperty named' first noComma =>
          cases named.symm.trans named'
          rcases only first with ⟨rfl, rfl⟩
          exact absurd comma (noComma _)
      | property named' first comma' further =>
          cases named.symm.trans named'
          rcases only first with ⟨rfl, rfl⟩
          cases comma.symm.trans comma'
          rcases others further with ⟨⟨⟩, rfl⟩
          exact ⟨rfl, rfl⟩

end Reads

end Covenant.Grammar
