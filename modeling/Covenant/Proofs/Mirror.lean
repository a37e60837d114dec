import Covenant.Proofs.Likeness

/-!
# Actions that correspond

An action mirrors another one if, whenever that one has a result in a machine,
it has a corresponding result in every machine that corresponds, and leaves the
machines corresponding under a pairing that has only grown.

Actions that are composed of mirroring parts mirror each other, so each step of
a run needs to be looked at just once.
-/

namespace Covenant.Machine

/-- Machines whose stores correspond and that agree in everything else. -/
structure Corresponds (code : Correspondence) (pairing : Pairing) (left right : Machine) :
    Prop where
  store : left.store.Matches code pairing right.store
  output : left.output = right.output
  depth : left.depth = right.depth
  depthLimit : left.depthLimit = right.depthLimit

/--
Whenever the first action has a result, the second one has a related result in
a corresponding machine.
-/
def Action.Mirrors {α β : Type} (code : Correspondence) (pairing : Pairing)
    (related : Pairing → α → β → Prop) (first : Action α) (second : Action β) : Prop :=
  ∀ left right result after, Corresponds code pairing left right →
    first left = .ok result after →
      ∃ later corresponding final,
        pairing.Extends later ∧ second right = .ok corresponding final ∧
          Corresponds code later after final ∧ related later result corresponding

namespace Action.Mirrors

variable {α β γ δ : Type} {code : Correspondence} {pairing : Pairing}
  {related : Pairing → α → β → Prop} {final : Pairing → γ → δ → Prop}

theorem pure {value : α} {corresponding : β} (given : related pairing value corresponding) :
    Mirrors code pairing related (Pure.pure value) (Pure.pure corresponding) := by
  intro left right result after corresponds outcome
  cases outcome
  exact ⟨pairing, corresponding, right, .refl pairing, rfl, corresponds, given⟩

theorem throw (stop : Stop) (second : Action β) :
    Mirrors code pairing related (throw stop) second := by
  intro left right result after _ outcome
  cases outcome

theorem bind
    {first : Action α} {second : Action β} {next : α → Action γ} {other : β → Action δ}
    (mirrors : Mirrors code pairing related first second)
    (rest : ∀ later value corresponding, pairing.Extends later →
      related later value corresponding →
        Mirrors code later final (next value) (other corresponding)) :
    Mirrors code pairing final (first >>= next) (second >>= other) := by
  intro left right result after corresponds outcome
  obtain ⟨value, between, begun, outcome⟩ := Action.bind_eq_ok.mp outcome
  obtain ⟨later, corresponding, reached, grows, same, corresponds, given⟩ :=
    mirrors left right value between corresponds begun
  obtain ⟨last, answer, finish, growsAgain, sameAgain, correspondsFinally, givenFinally⟩ :=
    rest later value corresponding grows given between reached result after corresponds outcome
  refine ⟨last, answer, finish, grows.trans growsAgain, ?_, correspondsFinally, givenFinally⟩
  rw [Action.bind_of_ok same, sameAgain]

/-- Actions without a result can be followed by any others that mirror each other. -/
theorem next
    {first second : Action Unit} {rest : Action γ} {other : Action δ}
    (mirrors : Mirrors code pairing (fun _ _ _ => True) first second)
    (mirrorsAfter : ∀ later, pairing.Extends later → Mirrors code later final rest other) :
    Mirrors code pairing final (first >>= fun _ => rest) (second >>= fun _ => other) :=
  mirrors.bind fun later _ _ grows _ => mirrorsAfter later grows

theorem query
    {look : Store → α} {other : Store → β}
    (same : ∀ left right, left.Matches code pairing right →
      related pairing (look left) (other right)) :
    Mirrors code pairing related (Action.query look) (Action.query other) := by
  intro left right result after corresponds outcome
  cases outcome
  exact ⟨pairing, _, right, .refl pairing, rfl, corresponds, same _ _ corresponds.store⟩

/-- What is the same in corresponding stores. -/
theorem querySame
    {look other : Store → α}
    (same : ∀ left right, left.Matches code pairing right → look left = other right) :
    Mirrors code pairing (fun _ result found => result = found) (Action.query look)
      (Action.query other) :=
  .query same

theorem check
    {look : Store → Except Fault α} {other : Store → Except Fault β}
    (same : ∀ left right result, left.Matches code pairing right → look left = .ok result →
      ∃ found, other right = .ok found ∧ related pairing result found) :
    Mirrors code pairing related (Action.check look) (Action.check other) := by
  intro left right result after corresponds outcome
  unfold Action.check at outcome
  split at outcome
  case h_1 value looked =>
    cases outcome
    obtain ⟨found, equal, given⟩ := same _ _ _ corresponds.store looked
    refine ⟨pairing, found, right, .refl pairing, ?_, corresponds, given⟩
    simp only [Action.check, equal]
  case h_2 => cases outcome

theorem mapM
    {first : α → Action γ} {second : β → Action γ} {values : List α} {others : List β}
    {related : α → β → Prop} {outcome : Pairing → γ → γ → Prop}
    (mono : ∀ {earlier later value corresponding}, outcome earlier value corresponding →
      earlier.Extends later → outcome later value corresponding)
    (all : List.Forall₂ related values others)
    (mirrors : ∀ later value other, pairing.Extends later → related value other →
      Mirrors code later outcome (first value) (second other)) :
    Mirrors code pairing (fun later => List.Forall₂ (outcome later)) (values.mapM first)
      (others.mapM second) := by
  induction all generalizing pairing with
  | nil => exact .pure .nil
  | cons head _ inductionHypothesis =>
      rw [List.mapM_cons, List.mapM_cons]
      refine (mirrors pairing _ _ (.refl pairing) head).bind fun later _ _ grows given => ?_
      refine (inductionHypothesis fun last value other more =>
        mirrors last value other (grows.trans more)).bind fun last _ _ more rest => ?_
      exact .pure (.cons (mono given more) rest)

theorem nested
    {first : Action α} {second : Action β} (mirrors : Mirrors code pairing related first second) :
    Mirrors code pairing related (Action.nested first) (Action.nested second) := by
  intro left right result after corresponds outcome
  obtain ⟨shallow, final, ran, rfl⟩ := Action.nested_eq_ok.mp outcome
  have deeper : Corresponds code pairing { left with depth := left.depth + 1 }
      { right with depth := right.depth + 1 } :=
    ⟨corresponds.store, corresponds.output, congrArg (· + 1) corresponds.depth,
      corresponds.depthLimit⟩
  obtain ⟨later, corresponding, reached, grows, same, between, given⟩ :=
    mirrors _ _ result final deeper ran
  refine ⟨later, corresponding, reached.endCall, grows, ?_, ?_, given⟩
  · refine Action.nested_eq_ok.mpr ⟨?_, reached, same, rfl⟩
    rw [← corresponds.depth, ← corresponds.depthLimit]
    exact shallow
  · exact ⟨between.store, between.output, congrArg (· - 1) between.depth, between.depthLimit⟩

theorem writeLine (line : String) :
    Mirrors code pairing (fun _ _ _ => True) (Action.writeLine line) (Action.writeLine line) := by
  intro left right result after corresponds outcome
  cases outcome
  refine ⟨pairing, (), _, .refl pairing, rfl, ?_, trivial⟩
  exact ⟨corresponds.store, congrArg (·.push line) corresponds.output, corresponds.depth,
    corresponds.depthLimit⟩

/-- Adding to both stores what corresponds under a pairing that has grown. -/
theorem allocate
    {add : Store → α × Store} {other : Store → β × Store}
    (same : ∀ left right, left.Matches code pairing right → ∃ later,
      pairing.Extends later ∧ (add left).2.Matches code later (other right).2 ∧
        related later (add left).1 (other right).1) :
    Mirrors code pairing related (Action.allocate add) (Action.allocate other) := by
  intro left right result after corresponds outcome
  cases outcome
  obtain ⟨later, grows, given, values⟩ := same _ _ corresponds.store
  exact ⟨later, _, _, grows, rfl,
    ⟨given, corresponds.output, corresponds.depth, corresponds.depthLimit⟩, values⟩

end Action.Mirrors

open Covenant.Machine.Action (Mirrors)

variable {code : Correspondence} {pairing : Pairing}

/-! ## New cells -/

theorem mirrors_addArray
    {values others : List Value} (related : pairing.RelatesAll values others) :
    Mirrors code pairing Pairing.Relates
      (Action.allocate fun store => store.addArray values.toArray)
      (Action.allocate fun store => store.addArray others.toArray) :=
  .allocate fun _ _ given =>
    ⟨_, pairing.extends_withArray _ _, given.addArrays related, .array List.mem_cons_self⟩

theorem mirrors_addObject
    (kind : ObjectKind) {entries others : List (String × Value)}
    (related : pairing.RelatesEntries entries others) :
    Mirrors code pairing Pairing.Relates
      (Action.allocate fun store => store.addObject ⟨kind, entries⟩)
      (Action.allocate fun store => store.addObject ⟨kind, others⟩) :=
  .allocate fun _ _ given =>
    ⟨_, pairing.extends_withObject _ _, given.addObjects kind related, .object List.mem_cons_self⟩

theorem mirrors_addError
    {message corresponding : Value} (related : pairing.Relates message corresponding) :
    Mirrors code pairing Pairing.Relates
      (Action.allocate fun store => store.addError message)
      (Action.allocate fun store => store.addError corresponding) :=
  mirrors_addObject .error (.cons ⟨rfl, .primitive _⟩ (.cons ⟨rfl, related⟩ .nil))

theorem mirrors_makeClosure
    {scope corresponding : Scope} (scopes : pairing.RelatesScope scope corresponding)
    {function other : Function} (functions : code.function function other) :
    Mirrors code pairing Pairing.Relates (makeClosure scope function)
      (makeClosure corresponding other) :=
  .allocate fun _ _ given =>
    ⟨_, pairing.extends_withClosure _ _, given.addClosures functions scopes,
      .closure List.mem_cons_self⟩

/-- Closures that correspond are found in corresponding stores. -/
theorem mirrors_closure?
    {address other : ClosureAddress} (paired : (address, other) ∈ pairing.closures) :
    Mirrors code pairing
      (fun later found find => ∃ closure corresponding,
        found = some closure ∧ find = some corresponding ∧
          code.function closure.function corresponding.function ∧
            later.RelatesScope closure.scope corresponding.scope)
      (Action.query fun store => store.closure? address)
      (Action.query fun store => store.closure? other) :=
  .query fun _ _ given => given.closure _ paired

/-- Entering scopes with frames that correspond. -/
theorem mirrors_enter
    {scope corresponding : Scope} (scopes : pairing.RelatesScope scope corresponding)
    {frame other : Frame} (frames : Store.RelatesFrames code pairing frame other)
    (bare : ∀ name, code.checker name → frame.lookup name = none) :
    Mirrors code pairing Pairing.RelatesScope
      (Action.allocate fun store => store.enter frame scope)
      (Action.allocate fun store => store.enter other corresponding) :=
  .allocate fun _ _ given =>
    ⟨_, pairing.extends_withFrame _ _,
      given.addFrames frames bare,
      .cons List.mem_cons_self (scopes.mono (pairing.extends_withFrame _ _))⟩

theorem mirrors_enterBlock
    {scope corresponding : Scope} (scopes : pairing.RelatesScope scope corresponding) :
    Mirrors code pairing Pairing.RelatesScope (enterBlock scope) (enterBlock corresponding) :=
  mirrors_enter scopes (fun _ _ => .none) fun _ _ => rfl

/-! ## Names -/

theorem mirrors_declare
    {scope corresponding : Scope} (scopes : pairing.RelatesScope scope corresponding)
    {name : String} (visible : code.visible name) {binding bound : Binding}
    (related : pairing.RelatesBinding binding bound) :
    Mirrors code pairing (fun _ _ _ => True) (declare scope name binding)
      (declare corresponding name bound) := by
  intro left right result after corresponds outcome
  cases outcome
  refine ⟨pairing, (), _, .refl pairing, rfl, ?_, trivial⟩
  exact ⟨corresponds.store.declare visible scopes related, corresponds.output, corresponds.depth,
    corresponds.depthLimit⟩

theorem mirrors_read
    {scope corresponding : Scope} (scopes : pairing.RelatesScope scope corresponding)
    {name : String} (visible : code.visible name) :
    Mirrors code pairing Pairing.Relates
      (Action.check fun store => store.read scope name)
      (Action.check fun store => store.read corresponding name) :=
  .check fun _ _ _ given looked => given.read_eq_ok visible scopes looked

theorem mirrors_makeLambda
    {scope corresponding : Scope} (scopes : pairing.RelatesScope scope corresponding)
    {function other : Function} (functions : code.function function other) :
    Mirrors code pairing Pairing.Relates (makeLambda scope function)
      (makeLambda corresponding other) := by
  have alike := code.alike functions
  unfold makeLambda
  rw [← alike.name, ← alike.isArrow]
  split
  case h_1 name named _ =>
    refine (mirrors_enterBlock scopes).bind fun later inner other' grows inside => ?_
    refine (mirrors_makeClosure inside functions).bind fun last made made' more related => ?_
    have bindings : last.RelatesBinding ⟨made, false⟩ ⟨made', false⟩ := ⟨related, rfl⟩
    refine (mirrors_declare (inside.mono more) (code.named functions named) bindings).bind
      fun final _ _ most _ => ?_
    exact .pure (related.mono most)
  case h_2 => exact mirrors_makeClosure scopes functions

/-! ## Places -/

/-- Places that correspond. -/
inductive Pairing.RelatesPlace (code : Correspondence) (pairing : Pairing) :
    Place → Place → Prop where
  | binding {name : String} (visible : code.visible name) :
      RelatesPlace code pairing (.binding name) (.binding name)
  | property {base corresponding : Value} (related : pairing.Relates base corresponding)
      (key : String) :
      RelatesPlace code pairing (.property base key) (.property corresponding key)

theorem Pairing.RelatesPlace.mono
    {later : Pairing} {place other : Place} (related : pairing.RelatesPlace code place other)
    (grows : pairing.Extends later) : later.RelatesPlace code place other := by
  cases related with
  | binding visible => exact .binding visible
  | property inner key => exact .property (inner.mono grows) key

theorem mirrors_property
    {base corresponding : Value} (related : pairing.Relates base corresponding) (key : String) :
    Mirrors code pairing Pairing.Relates
      (Action.check fun store => store.property base key)
      (Action.check fun store => store.property corresponding key) :=
  .check fun _ _ _ given looked => given.property_eq_ok related looked

theorem mirrors_readPlace
    {scope corresponding : Scope} (scopes : pairing.RelatesScope scope corresponding)
    {place other : Place} (related : pairing.RelatesPlace code place other) :
    Mirrors code pairing Pairing.Relates (readPlace scope place)
      (readPlace corresponding other) := by
  cases related with
  | binding visible => exact mirrors_read scopes visible
  | property inner key => exact mirrors_property inner key

theorem mirrors_writePlace
    {scope corresponding : Scope} (scopes : pairing.RelatesScope scope corresponding)
    {place other : Place} (related : pairing.RelatesPlace code place other)
    {value given : Value} (values : pairing.Relates value given) :
    Mirrors code pairing (fun _ _ _ => True) (writePlace scope place value)
      (writePlace corresponding other given) := by
  intro left right result after corresponds outcome
  cases related with
  | @binding name visible =>
      simp only [writePlace, Action.tryUpdate] at outcome ⊢
      cases assigned : left.store.assign scope name value with
      | error fault =>
          rw [assigned] at outcome
          cases outcome
      | ok store =>
          rw [assigned] at outcome
          cases outcome
          obtain ⟨store', same, stores⟩ :=
            corresponds.store.assign_eq_ok visible scopes values assigned
          rw [same]
          exact ⟨pairing, (), _, .refl pairing, rfl,
            ⟨stores, corresponds.output, corresponds.depth, corresponds.depthLimit⟩, trivial⟩
  | @property base base' inner key =>
      simp only [writePlace, Action.tryUpdate] at outcome ⊢
      cases written : left.store.setProperty base key value with
      | error stop =>
          rw [written] at outcome
          cases outcome
      | ok store =>
          rw [written] at outcome
          cases outcome
          obtain ⟨store', same, stores⟩ :=
            corresponds.store.setProperty_eq_ok inner values written
          rw [same]
          exact ⟨pairing, (), _, .refl pairing, rfl,
            ⟨stores, corresponds.output, corresponds.depth, corresponds.depthLimit⟩, trivial⟩

end Covenant.Machine
