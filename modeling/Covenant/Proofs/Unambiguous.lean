import Mathlib.Data.Set.Function
import Covenant.Proofs.Grammar
import Covenant.Proofs.Interchange

/-!
# Parentheses tell trees apart

An expression of operators, accesses, calls, arrays and objects over
identifiers and literals is read back from its text.  Parentheses stand wherever
reading by strengths would take the text apart in another way, so different
expressions have different texts, provided that different numbers do.
-/

namespace Covenant

/-! ## Expressions of operators -/

/-- Whether an expression, its parts aside, is a token, an operation, or a list of parts. -/
def Expression.isOperation : Expression → Bool
  | .literal (.number value) => Number.isUnsigned value
  | .identifier name => Text.isIdentifierName name && !Grammar.reservedWords.contains name
  | .member _ name => Text.isIdentifierName name
  | .sequence expressions => decide (2 ≤ expressions.length)
  | .literal _ | .receiver | .array _ | .record _ | .unary _ _ | .binary _ _ _ | .logical _ _ _
  | .conditional _ _ _ | .call _ _ | .index _ _ => true
  | .lambda _ | .update _ _ _ | .assign _ _ _ | .construct _ _ | .yield _ _ | .await _ => false

/-- Whether a node is an expression that is an operation. -/
def Node.isOperation : Node → Bool
  | .expression written => written.isOperation
  | _ => false

/-- Whether an expression is made of operations throughout. -/
def Expression.isOperational (expression : Expression) : Bool :=
  (expression.nodes true).all Node.isOperation

/-- The numbers that stand in an expression. -/
def Expression.numbers (expression : Expression) : List Float :=
  (expression.nodes true).filterMap Node.number?

/-- A node is an operation, and a number is known from its text. -/
def Node.IsKnown (worth : String → Float) (node : Node) : Prop :=
  node.isOperation = true ∧ ∀ number ∈ node.number?, worth (Number.toText number) = number

/-! ## Reading a printed expression back -/

namespace Grammar

/-- What stands after an expression of a strength does not take its last part away. -/
def Fits (strength : Nat) (text : List Char) : Prop :=
  ∀ link after, follow? text = some (link, after) → link.demand ≤ strength

theorem Fits.mono {strength stronger : Nat} {text : List Char} (fits : Fits strength text)
    (grows : strength ≤ stronger) : Fits stronger text :=
  fun link after follows => (fits link after follows).trans grows

theorem Closes.fits {text : List Char} (closes : Closes text) (strength : Nat) :
    Fits strength text :=
  fun _ _ follows => absurd follows closes.ne_some

/-- An expression that fits nothing but a closing mark is closed. -/
theorem Fits.closes {text : List Char} (fits : Fits Strength.sequence text) (ends : Ends text) :
    Closes text := by
  refine ⟨ends, Option.eq_none_iff_forall_not_mem.mpr ?_⟩
  rintro ⟨link, after⟩ follows
  have small := fits link after follows
  have links := link.demand_cases
  simp only [Strength.call, Strength.sequence] at links small
  omega

/--
An expression is read back if, whatever it is read for and whatever stands after
its text, reading goes on from it there.
-/
def ReadsBack (worth : String → Float) (level : Nat) (expression : Expression) : Prop :=
  ∀ ⦃demand : Nat⦄ ⦃rest after : List Char⦄ ⦃whole : Expression⦄,
    demand ≤ expression.strength → demand ≤ Strength.leading → Ends rest →
      Fits expression.strength rest → Reads worth (.onward demand expression) rest whole after →
        Reads worth (.expression demand) ((expression.print level 0).toList ++ rest) whole after

section

variable {worth : String → Float} {level : Nat} {expression : Expression}

namespace ReadsBack

/-- Reading goes on from a part as it is printed where a strength is demanded. -/
theorem print (back : ReadsBack worth level expression) {strength demand : Nat}
    {rest after : List Char} {whole : Expression} (meets : demand ≤ strength)
    (moderate : demand ≤ Strength.leading) (ends : Ends rest) (fits : Fits strength rest)
    (onward : Reads worth (.onward demand expression) rest whole after) :
    Reads worth (.expression demand) ((expression.print level strength).toList ++ rest)
      whole after := by
  rcases Nat.lt_or_ge expression.strength strength with weak | enough
  · have closes := closes_parenthesis rest
    have inside := back expression.strength_bounds.1 (by decide) closes.ends (closes.fits _)
      (.stop fun _ _ follows => absurd follows closes.ne_some)
    have form : (expression.print level strength).toList ++ rest =
        '(' :: ((expression.print level 0).toList ++ ')' :: rest) := by
      simp [Expression.print_of_lt weak]
    rw [form]
    exact .expression rfl (.parenthesis inside) onward
  · rw [Expression.print_of_le enough]
    exact back (meets.trans enough) moderate ends (fits.mono enough) onward

/-- A part is read back where nothing that follows is strong enough to make it longer. -/
theorem operand (back : ReadsBack worth level expression) {strength demand : Nat}
    {rest : List Char} (meets : demand ≤ strength) (moderate : demand ≤ Strength.leading)
    (ends : Ends rest) (fits : Fits strength rest)
    (weaker : ∀ link after, follow? rest = some (link, after) → link.strength < demand) :
    Reads worth (.expression demand) ((expression.print level strength).toList ++ rest)
      expression rest :=
  back.print meets moderate ends fits (.stop weaker)

/-- Reading goes on from a part over the link that stands after it. -/
theorem linked (back : ReadsBack worth level expression) {strength demand : Nat} {link : Link}
    {text middle rest after : List Char} {longer whole : Expression} (ends : Ends text)
    (follows : follow? text = some (link, middle)) (fits : link.demand ≤ strength)
    (meets : demand ≤ strength) (moderate : demand ≤ Strength.leading)
    (enough : demand ≤ link.strength)
    (linked : Reads worth (.linked expression link) middle longer rest)
    (onward : Reads worth (.onward demand longer) rest whole after) :
    Reads worth (.expression demand) ((expression.print level strength).toList ++ text)
      whole after := by
  refine back.print meets moderate ends ?_ (.onward follows enough linked onward)
  intro next middle followed
  cases follows.symm.trans followed
  exact fits

/-- A part is read back in front of a closing mark. -/
theorem closed (back : ReadsBack worth level expression) (demand : Nat) {rest : List Char}
    (moderate : demand ≤ Strength.leading) (closes : Closes rest) :
    Reads worth (.expression demand) ((expression.print level demand).toList ++ rest)
      expression rest :=
  back.operand le_rfl moderate closes.ends (closes.fits demand) fun _ _ follows =>
    absurd follows closes.ne_some

/-- A single token is read back. -/
theorem of_atom
    (told : ∀ rest, Ends rest →
      lead? worth ((expression.print level 0).toList ++ rest) = some (.atom expression, rest)) :
    ReadsBack worth level expression :=
  fun _ _ _ _ _ _ ends _ onward => .expression (told _ ends) .atom onward

end ReadsBack

/-- Blanks in front of an expression are passed over. -/
theorem Reads.blank {demand : Nat} {text rest : List Char}
    (reads : Reads worth (.expression demand) text expression rest) :
    Reads worth (.expression demand) (' ' :: text) expression rest := by
  cases reads with
  | expression front begun onward => exact .expression (lead?_blank.trans front) begun onward

/-! ### Lists of parts -/

/-- A part is read back in front of a comma, which is weaker than what the part has to meet. -/
theorem ReadsBack.before_comma (back : ReadsBack worth level expression) (rest : List Char) :
    Reads worth (.expression Strength.assignment)
      ((expression.print level Strength.assignment).toList ++ ',' :: ' ' :: rest) expression
      (',' :: ' ' :: rest) := by
  refine back.operand le_rfl (by decide) (ends_cons rfl (by decide) _) ?_ ?_
  all_goals
    intro link after follows
    cases (follow?_comma rest).symm.trans follows
    decide

/-- Expressions between commas are read back in front of a closing mark. -/
theorem reads_elements {elements : List Expression} {rest : List Char} (nonempty : elements ≠ [])
    (back : ∀ element ∈ elements, ReadsBack worth level element) (closes : Closes rest) :
    Reads worth .elements ((printElements level elements).toList ++ rest) (.array elements)
      rest := by
  induction elements with
  | nil => exact absurd rfl nonempty
  | cons element others induction =>
      rw [List.forall_mem_cons] at back
      cases others with
      | nil =>
          rw [printElements]
          exact .lastElement (back.1.closed _ (by decide) closes) fun _ => closes.ne_some
      | cons next others =>
          have form : (printElements level (element :: next :: others)).toList ++ rest =
              (element.print level Strength.assignment).toList ++
                ',' :: ' ' :: ((printElements level (next :: others)).toList ++ rest) := by
            simp [printElements]
          rw [form]
          exact .element (back.1.before_comma _) (follow?_comma _)
            (induction (List.cons_ne_nil next others) back.2)

/-- Properties between commas are read back in front of a closing mark. -/
theorem reads_properties {properties : List Property} {rest : List Char}
    (nonempty : properties ≠ [])
    (back : ∀ property ∈ properties, ReadsBack worth level property.value)
    (closes : Closes rest) :
    Reads worth .properties ((printProperties level properties).toList ++ rest)
      (.record properties) rest := by
  induction properties with
  | nil => exact absurd rfl nonempty
  | cons property others induction =>
      rw [List.forall_mem_cons] at back
      rcases property with ⟨key, value⟩
      cases others with
      | nil =>
          have form : (printProperties level [⟨key, value⟩]).toList ++ rest =
              (Property.keyText ⟨key, value⟩).toList ++ ':' :: ' ' ::
                ((value.print level Strength.assignment).toList ++ rest) := by
            simp [printProperties, Property.print]
          rw [form]
          exact .lastProperty (key?_keyText ⟨key, value⟩ _)
            (back.1.closed _ (by decide) closes) fun _ => closes.ne_some
      | cons next others =>
          have form : (printProperties level (⟨key, value⟩ :: next :: others)).toList ++ rest =
              (Property.keyText ⟨key, value⟩).toList ++ ':' :: ' ' ::
                ((value.print level Strength.assignment).toList ++
                  ',' :: ' ' :: ((printProperties level (next :: others)).toList ++ rest)) := by
            simp [printProperties, Property.print]
          rw [form]
          exact .property (key?_keyText ⟨key, value⟩ _) (back.1.before_comma _)
            (follow?_comma _) (induction (List.cons_ne_nil next others) back.2)

/-- Parts between commas begin as an expression does, not with a closing mark. -/
theorem Reads.head?_ne {text rest : List Char} {mark : Char}
    (reads : Reads worth .elements text expression rest) (closes : mark = ')' ∨ mark = ']') :
    text.head? ≠ some mark := by
  intro head
  rcases List.head?_eq_some_iff.mp head with ⟨tail, rfl⟩
  have noLead : lead? worth (mark :: tail) = none := by rcases closes with rfl | rfl <;> rfl
  cases reads with
  | lastElement first _ =>
      cases first with
      | expression front _ _ => cases noLead.symm.trans front
  | element first _ _ =>
      cases first with
      | expression front _ _ => cases noLead.symm.trans front

/-! ### One case for each kind of expression -/

namespace ReadsBack

theorem literal {value : Literal} (allowed : (Expression.literal value).isOperation = true)
    (known : ∀ number, value = .number number → worth (Number.toText number) = number) :
    ReadsBack worth level (.literal value) := by
  have form : (Expression.literal value).print level 0 = value.source := by
    simp [Expression.print, parenthesize]
  refine of_atom fun rest ends => ?_
  rw [form]
  cases value with
  | undefined => exact lead?_word rfl ends
  | null => exact lead?_word rfl ends
  | bool value => cases value <;> exact lead?_word rfl ends
  | number value =>
      have told : lead? worth ((Number.toText value).toList ++ rest) = _ :=
        lead?_number allowed ends
      rw [known value rfl] at told
      exact told
  | string value => exact lead?_quote value

theorem identifier {name : String} (allowed : (Expression.identifier name).isOperation = true) :
    ReadsBack worth level (.identifier name) := by
  simp only [Expression.isOperation, Bool.and_eq_true, Bool.not_eq_true', List.contains_eq_mem,
    decide_eq_false_iff_not] at allowed
  refine of_atom fun rest ends => ?_
  rw [← Lead.ofWord_of_not_reserved allowed.2]
  simpa [Expression.print, parenthesize] using lead?_word allowed.1 ends

theorem receiver : ReadsBack worth level .receiver := by
  refine of_atom fun rest ends => ?_
  have told : lead? worth ("this".toList ++ rest) = some (.ofWord "this", rest) :=
    lead?_word rfl ends
  simpa [Expression.print, parenthesize, Lead.ofWord] using told

theorem array {elements : List Expression}
    (back : ∀ element ∈ elements, ReadsBack worth level element) :
    ReadsBack worth level (.array elements) := by
  cases elements with
  | nil =>
      have form : ((Expression.array []).print level 0).toList = ['[', ']'] := by
        simp [Expression.print, parenthesize, printElements]
      refine of_atom fun rest _ => ?_
      rw [form]
      rfl
  | cons first others =>
      intro demand rest after whole _ _ _ _ onward
      have inside := reads_elements (List.cons_ne_nil first others) back (closes_bracket rest)
      have form : ((Expression.array (first :: others)).print level 0).toList ++ rest =
          '[' :: ((printElements level (first :: others)).toList ++ ']' :: rest) := by
        simp [Expression.print, parenthesize]
      rw [form]
      exact .expression (lead?_bracket (inside.head?_ne (.inr rfl))) (.bracket inside) onward

theorem record {properties : List Property}
    (back : ∀ property ∈ properties, ReadsBack worth level property.value) :
    ReadsBack worth level (.record properties) := by
  cases properties with
  | nil =>
      have form : ((Expression.record []).print level 0).toList = ['\x7b', '\x7d'] := by
        simp [Expression.print, parenthesize]
      refine of_atom fun rest _ => ?_
      rw [form]
      rfl
  | cons first others =>
      intro demand rest after whole _ _ _ _ onward
      have inside := reads_properties (List.cons_ne_nil first others) back
        (closes_mark (.inl rfl) rest)
      have form : ((Expression.record (first :: others)).print level 0).toList ++ rest =
          '\x7b' :: ' ' ::
            ((printProperties level (first :: others)).toList ++ ' ' :: '\x7d' :: rest) := by
        simp [Expression.print, parenthesize]
      rw [form]
      exact .expression rfl (.brace inside) onward

theorem unary {operator : UnaryOperator} (back : ReadsBack worth level expression) :
    ReadsBack worth level (.unary operator expression) := by
  intro demand rest after whole _ _ ends fits onward
  have operand := back.operand le_rfl le_rfl ends fits fun link after follows =>
    Link.strength_lt_leading (fits link after follows)
  let gap := operator.gap (expression.print level Strength.leading)
  have form : ((Expression.unary operator expression).print level 0).toList ++ rest =
      operator.symbol.toList ++
        (gap.toList ++ ((expression.print level Strength.leading).toList ++ rest)) := by
    simp [Expression.print, parenthesize, gap]
  have spaced : Reads worth (.expression Strength.leading)
      (gap.toList ++ ((expression.print level Strength.leading).toList ++ rest))
      expression rest := by
    rcases operator.gap_cases (expression.print level Strength.leading) with none | blank
    · simpa [gap, none] using operand
    · simpa [gap, blank] using operand.blank
  rw [form]
  exact .expression (lead?_operator operator _) (.operator spaced) onward

theorem join (joint : Joint) {left right : Expression} {before after : Nat}
    (form : (joint.join left right).print level 0 =
      left.print level before ++ " " ++ joint.symbol ++ " " ++ right.print level after)
    (leftEnough : joint.leftDemand ≤ before) (rightEnough : joint.rightDemand ≤ after)
    (backLeft : ReadsBack worth level left) (backRight : ReadsBack worth level right) :
    ReadsBack worth level (joint.join left right) := by
  have strength : (joint.join left right).strength = joint.strength := by cases joint <;> rfl
  have demands := joint.demands
  intro demand rest remaining whole meets moderate ends fits onward
  rw [strength] at meets fits
  -- What may follow the operation leaves its right operand alone, whichever way it groups.
  have operand : Reads worth (.expression joint.rightDemand)
      ((right.print level after).toList ++ rest) right rest := by
    refine backRight.operand rightEnough ?_ ends (fits.mono ?_) ?_
    · simp only [Strength.leading]
      omega
    · omega
    · exact fun link after follows => Link.strength_lt_rightDemand (fits link after follows)
  have follows := follow?_joint joint ((right.print level after).toList ++ rest)
  have text : ((joint.join left right).print level 0).toList ++ rest =
      (left.print level before).toList ++
        ' ' :: (joint.symbol.toList ++ ' ' :: ((right.print level after).toList ++ rest)) := by
    simp [form]
  rw [text]
  exact backLeft.linked (ends_cons rfl (by decide) _) follows leftEnough (by omega) moderate meets
    (.joint operand) onward

theorem binary {operator : BinaryOperator} {left right : Expression}
    (backLeft : ReadsBack worth level left) (backRight : ReadsBack worth level right) :
    ReadsBack worth level (.binary operator left right) := by
  refine join (.binary operator) ?_ le_rfl le_rfl backLeft backRight
  simp [Joint.join, Joint.symbol, Joint.leftDemand, Joint.rightDemand, Expression.print,
    parenthesize]

theorem logical {operator : LogicalOperator} {left right : Expression}
    (backLeft : ReadsBack worth level left) (backRight : ReadsBack worth level right) :
    ReadsBack worth level (.logical operator left right) := by
  have bounds := operator.precedence_bounds
  have leftEnough : operator.precedence ≤
      operator.operandStrength left operator.precedence :=
    operator.le_operandStrength left (by simp only [Strength.always]; omega)
  have rightEnough : operator.precedence + 1 ≤
      operator.operandStrength right (operator.precedence + 1) :=
    operator.le_operandStrength right (by simp only [Strength.always]; omega)
  refine join (.logical operator) ?_ leftEnough rightEnough backLeft backRight
  simp [Joint.join, Joint.symbol, Expression.print, parenthesize]

theorem conditional {test consequent alternate : Expression}
    (backTest : ReadsBack worth level test) (backConsequent : ReadsBack worth level consequent)
    (backAlternate : ReadsBack worth level alternate) :
    ReadsBack worth level (.conditional test consequent alternate) := by
  intro demand rest after whole meets moderate ends fits onward
  -- After a choice only a comma may follow, and its last part ends before that.
  have weaker link rest follows := Link.demand_le_assignment (fits link rest follows)
  have second := backAlternate.operand le_rfl (by decide) ends
    (fun link rest follows => (weaker link rest follows).1)
    (fun link rest follows => (weaker link rest follows).2)
  have first := backConsequent.closed Strength.assignment (by decide)
    (closes_mark (.inr rfl) (' ' :: ((alternate.print level Strength.assignment).toList ++ rest)))
  have form : ((Expression.conditional test consequent alternate).print level 0).toList ++ rest =
      (test.print level (Strength.conditional + 1)).toList ++
        ' ' :: '?' :: ' ' :: ((consequent.print level Strength.assignment).toList ++
          ' ' :: ':' :: ' ' :: ((alternate.print level Strength.assignment).toList ++ rest)) := by
    simp [Expression.print, parenthesize]
  rw [form]
  exact backTest.linked (ends_cons rfl (by decide) _) (follow?_choice _) le_rfl
    (Nat.le_succ_of_le meets) moderate meets (.choice first second) onward

theorem call {callee : Expression} {arguments : List Expression}
    (back : ReadsBack worth level callee)
    (backs : ∀ argument ∈ arguments, ReadsBack worth level argument) :
    ReadsBack worth level (.call callee arguments) := by
  intro demand rest after whole meets moderate ends fits onward
  cases arguments with
  | nil =>
      have form : ((Expression.call callee []).print level 0).toList ++ rest =
          (callee.print level Strength.call).toList ++ '(' :: ')' :: rest := by
        simp [Expression.print, parenthesize, printElements]
      rw [form]
      exact back.linked (ends_cons rfl (by decide) _) rfl le_rfl meets moderate meets
        .noArguments onward
  | cons first others =>
      have inside := reads_elements (List.cons_ne_nil first others) backs
        (closes_parenthesis rest)
      have follows := follow?_arguments (inside.head?_ne (.inl rfl))
      have form : ((Expression.call callee (first :: others)).print level 0).toList ++ rest =
          (callee.print level Strength.call).toList ++
            '(' :: ((printElements level (first :: others)).toList ++ ')' :: rest) := by
        simp [Expression.print, parenthesize]
      rw [form]
      exact back.linked (ends_cons rfl (by decide) _) follows le_rfl meets moderate meets
        (.arguments inside) onward

theorem member {object : Expression} {name : String} (isName : Text.isIdentifierName name = true)
    (back : ReadsBack worth level object) :
    ReadsBack worth level (.member object name) := by
  intro demand rest after whole meets moderate ends fits onward
  have enough : demand ≤ Strength.call := moderate.trans (by decide)
  have follows := follow?_member isName ends
  -- Digits stand in parentheses as if more were demanded of them than any expression meets.
  have form : ∃ strength, Strength.call ≤ strength ∧
      ((Expression.member object name).print level 0).toList ++ rest =
        (object.print level strength).toList ++ '.' :: (name.toList ++ rest) := by
    by_cases isDigits : object.isDigits = true
    · refine ⟨Strength.always, by decide, ?_⟩
      simp [Expression.print, parenthesize, isDigits,
        Expression.print_of_lt object.strength_bounds.2,
        Expression.print_of_le object.strength_bounds.1]
    · exact ⟨Strength.call, le_rfl, by simp [Expression.print, parenthesize, isDigits]⟩
  rcases form with ⟨strength, strong, form⟩
  rw [form]
  exact back.linked (ends_point isName rest) follows strong (enough.trans strong) moderate meets
    .member onward

theorem index {object key : Expression} (backObject : ReadsBack worth level object)
    (backKey : ReadsBack worth level key) :
    ReadsBack worth level (.index object key) := by
  intro demand rest after whole meets moderate ends fits onward
  have inside := backKey.closed Strength.sequence (by decide) (closes_bracket rest)
  have form : ((Expression.index object key).print level 0).toList ++ rest =
      (object.print level Strength.call).toList ++
        '[' :: ((key.print level Strength.sequence).toList ++ ']' :: rest) := by
    simp [Expression.print, parenthesize]
  rw [form]
  exact backObject.linked (ends_cons rfl (by decide) _) rfl le_rfl (moderate.trans (by decide))
    moderate meets (.key inside) onward

theorem sequence {expressions : List Expression} (several : 2 ≤ expressions.length)
    (back : ∀ part ∈ expressions, ReadsBack worth level part) :
    ReadsBack worth level (.sequence expressions) := by
  intro demand rest after whole meets moderate ends fits onward
  match expressions, several with
  | first :: second :: others, _ =>
      rw [List.forall_mem_cons] at back
      have further := reads_elements (List.cons_ne_nil second others) back.2 (fits.closes ends)
      have form : ((Expression.sequence (first :: second :: others)).print level 0).toList ++
          rest = (first.print level Strength.assignment).toList ++
            ',' :: ' ' :: ((printElements level (second :: others)).toList ++ rest) := by
        simp [Expression.print, parenthesize, printElements]
      rw [form]
      exact back.1.linked (ends_cons rfl (by decide) _) (follow?_comma _) le_rfl
        (Nat.le_succ_of_le meets) moderate meets (.comma further) onward

end ReadsBack

/-!
### All expressions of operators

The induction is on the tree: every part is read back in front of whatever fits it.
-/

mutual

theorem readsBack_expression : (expression : Expression) →
    (∀ node ∈ expression.nodes true, node.IsKnown worth) → ReadsBack worth level expression
  | .literal value, known => by
      rw [Expression.nodes, List.forall_mem_cons] at known
      refine .literal known.1.1 ?_
      rintro number rfl
      exact known.1.2 number rfl
  | .identifier name, known => by
      rw [Expression.nodes, List.forall_mem_cons] at known
      exact .identifier known.1.1
  | .receiver, _ => .receiver
  | .array elements, known => by
      rw [Expression.nodes, List.forall_mem_cons] at known
      exact .array (readsBack_expressions elements known.2)
  | .record properties, known => by
      rw [Expression.nodes, List.forall_mem_cons] at known
      exact .record (readsBack_properties properties known.2)
  | .unary _ argument, known => by
      rw [Expression.nodes, List.forall_mem_cons] at known
      exact .unary (readsBack_expression argument known.2)
  | .binary _ left right, known => by
      rw [Expression.nodes, List.forall_mem_cons, List.forall_mem_append] at known
      exact .binary (readsBack_expression left known.2.1) (readsBack_expression right known.2.2)
  | .logical _ left right, known => by
      rw [Expression.nodes, List.forall_mem_cons, List.forall_mem_append] at known
      exact .logical (readsBack_expression left known.2.1) (readsBack_expression right known.2.2)
  | .conditional test consequent alternate, known => by
      rw [Expression.nodes, List.forall_mem_cons, List.forall_mem_append,
        List.forall_mem_append] at known
      exact .conditional (readsBack_expression test known.2.1.1)
        (readsBack_expression consequent known.2.1.2) (readsBack_expression alternate known.2.2)
  | .call callee arguments, known => by
      rw [Expression.nodes, List.forall_mem_cons, List.forall_mem_append] at known
      exact .call (readsBack_expression callee known.2.1)
        (readsBack_expressions arguments known.2.2)
  | .member object _, known => by
      rw [Expression.nodes, List.forall_mem_cons] at known
      exact .member known.1.1 (readsBack_expression object known.2)
  | .index object key, known => by
      rw [Expression.nodes, List.forall_mem_cons, List.forall_mem_append] at known
      exact .index (readsBack_expression object known.2.1) (readsBack_expression key known.2.2)
  | .sequence expressions, known => by
      rw [Expression.nodes, List.forall_mem_cons] at known
      exact .sequence (of_decide_eq_true known.1.1) (readsBack_expressions expressions known.2)
  | .lambda _, known | .update _ _ _, known | .assign _ _ _, known | .construct _ _, known
  | .yield _ _, known | .await _, known => by
      rw [Expression.nodes, List.forall_mem_cons] at known
      cases known.1.1

theorem readsBack_expressions : (expressions : List Expression) →
    (∀ node ∈ nodesOfExpressions true expressions, node.IsKnown worth) →
      ∀ part ∈ expressions, ReadsBack worth level part
  | [], _ => nofun
  | expression :: rest, known => by
      rw [nodesOfExpressions, List.forall_mem_append] at known
      rw [List.forall_mem_cons]
      exact ⟨readsBack_expression expression known.1, readsBack_expressions rest known.2⟩

theorem readsBack_properties : (properties : List Property) →
    (∀ node ∈ nodesOfProperties true properties, node.IsKnown worth) →
      ∀ property ∈ properties, ReadsBack worth level property.value
  | [], _ => nofun
  | ⟨_, value⟩ :: rest, known => by
      rw [nodesOfProperties, List.forall_mem_append] at known
      rw [List.forall_mem_cons]
      exact ⟨readsBack_expression value known.1, readsBack_properties rest known.2⟩

end

end

/-- An expression of operators is read from its text, and nothing is left of the text. -/
theorem reads_source {worth : String → Float} {expression : Expression}
    (isOperational : expression.isOperational = true)
    (known : ∀ number ∈ expression.numbers, worth (Number.toText number) = number) :
    Reads worth (.expression Strength.sequence) expression.source.toList expression [] := by
  have back : ReadsBack worth 0 expression := by
    refine readsBack_expression expression fun node among => ⟨?_, fun number isNumber => ?_⟩
    · exact List.all_eq_true.mp isOperational node among
    · exact known number (List.mem_filterMap.mpr ⟨node, among, isNumber⟩)
  simpa [Expression.source] using back.closed Strength.sequence (by decide) closes_nil

end Grammar

/--
Printing tells expressions of operators apart: if the numbers in two such
expressions are told apart by their texts, then the expressions are.
-/
theorem Expression.source_inj {left right : Expression}
    (isLeft : left.isOperational = true) (isRight : right.isOperational = true)
    (numbers : Set.InjOn Number.toText {number | number ∈ left.numbers ∨ number ∈ right.numbers}) :
    left.source = right.source ↔ left = right := by
  refine ⟨fun same => ?_, congrArg _⟩
  -- Numerals are worth the numbers of the two expressions; then one text has two readings.
  let worth := Function.invFunOn Number.toText
    {number | number ∈ left.numbers ∨ number ∈ right.numbers}
  have known := numbers.leftInvOn_invFunOn
  have readsLeft : Grammar.Reads worth _ _ left [] :=
    Grammar.reads_source isLeft fun number among => known (Or.inl among)
  have readsRight : Grammar.Reads worth _ _ right [] :=
    Grammar.reads_source isRight fun number among => known (Or.inr among)
  rw [same] at readsLeft
  exact (readsLeft.unique readsRight).1

/-- The power of an opposite. -/
def powerOfOpposite : Expression :=
  .binary .exp (.unary .minus (.literal (.number 2.0))) (.literal (.number 3.0))

/-- The opposite of a power. -/
def oppositeOfPower : Expression :=
  .unary .minus (.binary .exp (.literal (.number 2.0)) (.literal (.number 3.0)))

/-- The power of an opposite and the opposite of a power are told apart. -/
theorem Expression.source_inj_opposites :
    powerOfOpposite.isOperational = true ∧ oppositeOfPower.isOperational = true ∧
      powerOfOpposite.source ≠ oppositeOfPower.source := by
  have isPower : powerOfOpposite.isOperational = true := by decide +kernel
  have isOpposite : oppositeOfPower.isOperational = true := by decide +kernel
  have powerNumbers : powerOfOpposite.numbers = [2.0, 3.0] := rfl
  have oppositeNumbers : oppositeOfPower.numbers = [2.0, 3.0] := rfl
  have distinct : Number.toText 2.0 ≠ Number.toText 3.0 := by decide +kernel
  refine ⟨isPower, isOpposite, fun same => ?_⟩
  have together := (source_inj isPower isOpposite ?_).mp same
  · cases together
  · rw [powerNumbers, oppositeNumbers]
    intro first isFirst second isSecond sameText
    simp only [List.mem_cons, List.not_mem_nil, or_false, or_self, Set.mem_ofPred_eq]
      at isFirst isSecond
    rcases isFirst with rfl | rfl <;> rcases isSecond with rfl | rfl
    · rfl
    · exact absurd sameText distinct
    · exact absurd sameText.symm distinct
    · rfl

end Covenant
