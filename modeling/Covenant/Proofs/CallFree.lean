import Covenant.Proofs.Progress

/-!
# Contracts without calls

The conditions of a contract are free of calls if nothing is called or
constructed in them, in their messages, or in the arguments of captured marker
calls.  Of what is accepted as a condition, that is all that is asked for
evaluating it to leave everything else alone.
-/

namespace Covenant

mutual

/-- Whether an expression contains no calls, apart from captured ones of a marker. -/
def Expression.isCallFree (marker : Option String) : Expression → Bool
  | .literal _ | .identifier _ | .receiver | .lambda _ | .yield none _ => true
  | .array elements => areCallFree marker elements
  | .record properties => valuesAreCallFree marker properties
  | .unary _ argument | .update _ _ argument | .await argument | .yield (some argument) _ =>
    argument.isCallFree marker
  | .binary _ left right | .logical _ left right | .assign _ left right | .index left right =>
    left.isCallFree marker && right.isCallFree marker
  | .conditional test consequent alternate =>
    test.isCallFree marker && consequent.isCallFree marker && alternate.isCallFree marker
  | .call (.identifier name) [argument] => marker = some name && argument.isCallFree none
  | .call _ _ | .construct _ _ => false
  | .member object _ => object.isCallFree marker
  | .sequence expressions => areCallFree marker expressions

/-- Whether expressions contain no calls. -/
def areCallFree (marker : Option String) : List Expression → Bool
  | [] => true
  | expression :: rest => expression.isCallFree marker && areCallFree marker rest

/-- Whether the values of properties contain no calls. -/
def valuesAreCallFree (marker : Option String) : List Property → Bool
  | [] => true
  | ⟨_, value⟩ :: rest => value.isCallFree marker && valuesAreCallFree marker rest

end

open Contract in
/-- A captured call is free of calls if its argument is. -/
theorem Expression.isCallFree_of_marked
    {marker : String} {expression argument : Expression}
    (marked : Capture.argument? marker expression = some argument) :
    expression.isCallFree (some marker) = argument.isCallFree none := by
  unfold Capture.argument? at marked
  split at marked
  case h_1 name inner =>
    split at marked
    case isTrue equal =>
      cases marked
      simp [Expression.isCallFree, equal]
    case isFalse => cases marked
  case h_2 => cases marked

open Contract in
/-- Every other call is one. -/
theorem Expression.isCallFree_of_unmarked
    {marker : Option String} {callee : Expression} {arguments : List Expression}
    (unmarked : ∀ name ∈ marker, Capture.argument? name (.call callee arguments) = none) :
    (Expression.call callee arguments).isCallFree marker = false := by
  by_cases shape : ∃ name argument, callee = .identifier name ∧ arguments = [argument]
  · obtain ⟨name, argument, rfl, rfl⟩ := shape
    have other : marker ≠ some name := by
      rintro rfl
      have absurd := unmarked name rfl
      simp [Capture.argument?] at absurd
    simp [Expression.isCallFree, other]
  · rw [Expression.isCallFree]
    intro name argument calleeEqual argumentsEqual
    exact shape ⟨name, argument, calleeEqual, argumentsEqual⟩

mutual

/-- What is plain and free of calls is plain without allowing any. -/
theorem Expression.isPlain_of_isCallFree
    {marker : Option String} : (expression : Expression) →
      expression.isPlain marker true = true → expression.isCallFree marker = true →
        expression.isPlain marker false = true
  | .literal _, _, _ | .identifier _, _, _ | .receiver, _, _ => by simp [Expression.isPlain]
  | .array elements, plain, free => by
      rw [Expression.isPlain] at plain ⊢
      rw [Expression.isCallFree] at free
      exact arePlain_of_areCallFree elements plain free
  | .record properties, plain, free => by
      rw [Expression.isPlain] at plain ⊢
      rw [Expression.isCallFree] at free
      exact valuesArePlain_of_valuesAreCallFree properties plain free
  | .unary _ argument, plain, free | .member argument _, plain, free => by
      rw [Expression.isPlain] at plain ⊢
      rw [Expression.isCallFree] at free
      exact argument.isPlain_of_isCallFree plain free
  | .binary _ left right, plain, free | .logical _ left right, plain, free
  | .index left right, plain, free => by
      rw [Expression.isPlain, Bool.and_eq_true] at plain ⊢
      rw [Expression.isCallFree, Bool.and_eq_true] at free
      exact ⟨left.isPlain_of_isCallFree plain.1 free.1, right.isPlain_of_isCallFree plain.2 free.2⟩
  | .conditional test consequent alternate, plain, free => by
      rw [Expression.isPlain, Bool.and_eq_true, Bool.and_eq_true] at plain ⊢
      rw [Expression.isCallFree, Bool.and_eq_true, Bool.and_eq_true] at free
      exact ⟨⟨test.isPlain_of_isCallFree plain.1.1 free.1.1,
        consequent.isPlain_of_isCallFree plain.1.2 free.1.2⟩,
        alternate.isPlain_of_isCallFree plain.2 free.2⟩
  | .call callee arguments, plain, free => by
      rcases marked_or_unmarked marker (.call callee arguments) with marked | unmarked
      · obtain ⟨name, argument, rfl, found⟩ := marked
        rw [Expression.isPlain_of_marked found] at plain ⊢
        rw [Expression.isCallFree_of_marked found] at free
        obtain ⟨_, equal⟩ := Contract.Capture.call_of_argument? found
        have alone : arePlain none false arguments = true :=
          arePlain_of_areCallFree arguments (by rw [equal, arePlain, plain, arePlain, Bool.and_self])
            (by rw [equal, areCallFree, free, areCallFree, Bool.and_self])
        rw [equal, arePlain, Bool.and_eq_true] at alone
        exact alone.1
      · rw [Expression.isCallFree_of_unmarked unmarked] at free
        cases free
  | .construct _ _, _, free => by
      rw [Expression.isCallFree] at free
      cases free
  | .sequence expressions, plain, free => by
      rw [Expression.isPlain] at plain ⊢
      rw [Expression.isCallFree] at free
      exact arePlain_of_areCallFree expressions plain free
  | .lambda _, plain, _ | .update _ _ _, plain, _ | .assign _ _ _, plain, _
  | .yield _ _, plain, _ | .await _, plain, _ => by
      simp [Expression.isPlain] at plain

theorem arePlain_of_areCallFree
    {marker : Option String} : (expressions : List Expression) →
      arePlain marker true expressions = true → areCallFree marker expressions = true →
        arePlain marker false expressions = true
  | [], _, _ => by rw [arePlain]
  | expression :: rest, plain, free => by
      rw [arePlain, Bool.and_eq_true] at plain ⊢
      rw [areCallFree, Bool.and_eq_true] at free
      exact ⟨expression.isPlain_of_isCallFree plain.1 free.1,
        arePlain_of_areCallFree rest plain.2 free.2⟩

theorem valuesArePlain_of_valuesAreCallFree
    {marker : Option String} : (properties : List Property) →
      valuesArePlain marker true properties = true → valuesAreCallFree marker properties = true →
        valuesArePlain marker false properties = true
  | [], _, _ => by rw [valuesArePlain]
  | ⟨_, value⟩ :: rest, plain, free => by
      rw [valuesArePlain, Bool.and_eq_true] at plain ⊢
      rw [valuesAreCallFree, Bool.and_eq_true] at free
      exact ⟨value.isPlain_of_isCallFree plain.1 free.1,
        valuesArePlain_of_valuesAreCallFree rest plain.2 free.2⟩

end

namespace Contract

/-- Whether a condition contains no calls in its test and in its message. -/
def Condition.isCallFree (marker : Option String) (condition : Condition) : Bool :=
  condition.test.isCallFree marker && condition.message?.all (·.isCallFree marker)

/-- The marker whose calls are captured in contracts of a kind. -/
def Context.markerFor (context : Context) : Kind → Option String
  | .precondition | .assertion => none
  | .postcondition | .invariant => context.marker?

/-- The conditions that a contract states contain no calls. -/
def Context.StatesNoCalls (context : Context) (kind : Kind) (body : Statement) : Prop :=
  ∀ found, conditions ⟨kind, context.owner⟩ body = .ok found →
    ∀ condition ∈ found, condition.isCallFree (context.markerFor kind) = true

/-- A condition that is accepted and contains no calls is plain without them. -/
theorem Condition.isPlain_of_isCallFree
    {condition : Condition} {marker : Option String} {site : Site}
    (clean : (condition.withMessage site).Clean) (free : condition.isCallFree marker = true) :
    (condition.withMessage site).isPlain marker false = true := by
  have plain := clean.isPlain marker
  rw [Condition.isPlain, Bool.and_eq_true] at plain ⊢
  rw [Condition.isCallFree, Bool.and_eq_true] at free
  refine ⟨Expression.isPlain_of_isCallFree _ plain.1 free.1, ?_⟩
  have message := plain.2
  unfold Condition.withMessage Condition.message at message ⊢
  cases written : condition.message? with
  | none => rw [Option.getD_none, isPlainIfAny, Expression.isPlain]
  | some expression =>
      rw [written] at message free
      exact Expression.isPlain_of_isCallFree expression message (by simpa using free.2)

/-- The conditions of an accepted contract without calls are plain without them. -/
theorem Context.StatesNoCalls.isPlain
    {context : Context} {kind : Kind} {body : Statement} {found : List Condition}
    (free : context.StatesNoCalls kind body)
    (states : conditions ⟨kind, context.owner⟩ body = .ok found)
    (clean : ∀ condition ∈ found.map (Condition.withMessage ⟨kind, context.owner⟩),
      condition.Clean) :
    ∀ condition ∈ found.map (Condition.withMessage ⟨kind, context.owner⟩),
      condition.isPlain (context.markerFor kind) false = true := by
  intro condition member
  obtain ⟨original, among, rfl⟩ := List.mem_map.mp member
  exact Condition.isPlain_of_isCallFree (clean _ member) (free found states original among)

end Contract

end Covenant
