import Covenant.Proofs.Stability
import Covenant.Proofs.Trace

/-!
# Scopes that share frames

Scopes are opened inside one another and so form a tree, in which a frame is
shared by all scopes inside the one that it was opened for.  A scope finds a
name in the first of its frames that binds it.

However such a tree has come about, an assignment changes what a name means in
those scopes that find it in the frame that is written, and in no others; and a
declaration changes it in those scopes that come to its frame without meeting
the name before.
-/

namespace Covenant.Machine

namespace Store

/-- A scope comes to a frame without meeting a name in the frames before it. -/
def Reaches (store : Store) (name : String) (scope : Scope) (address : FrameAddress) : Prop :=
  ∃ inner outer, scope = inner ++ address :: outer ∧
    ∀ nearer ∈ inner, (store.frame nearer).lookup name = none

/-- The nearest binding of a name in a scope, with the frame that holds it. -/
def Finds (store : Store) (name : String) (scope : Scope) (address : FrameAddress)
    (binding : Binding) : Prop :=
  store.Reaches name scope address ∧ (store.frame address).lookup name = some binding

/-- No frame of a scope binds a name. -/
def Misses (store : Store) (name : String) (scope : Scope) : Prop :=
  ∀ address ∈ scope, (store.frame address).lookup name = none

variable {store : Store} {name : String} {scope : Scope} {address : FrameAddress}
  {binding : Binding}

theorem not_reaches_nil : ¬ store.Reaches name [] address := by
  rintro ⟨inner, outer, whole, _⟩
  cases inner <;> cases whole

/-- A scope comes to its innermost frame, and further if that one does not bind the name. -/
theorem reaches_cons {first : FrameAddress} :
    store.Reaches name (first :: scope) address ↔
      address = first ∨
        (store.frame first).lookup name = none ∧ store.Reaches name scope address := by
  constructor
  · rintro ⟨inner, outer, whole, unmet⟩
    cases inner with
    | nil =>
        cases whole
        exact .inl rfl
    | cons nearer others =>
        cases whole
        rw [List.forall_mem_cons] at unmet
        exact .inr ⟨unmet.1, others, outer, rfl, unmet.2⟩
  · rintro (rfl | ⟨unmet, inner, outer, rfl, others⟩)
    · exact ⟨[], scope, rfl, nofun⟩
    · exact ⟨first :: inner, outer, rfl, List.forall_mem_cons.mpr ⟨unmet, others⟩⟩

theorem Reaches.mem (reaches : store.Reaches name scope address) : address ∈ scope := by
  obtain ⟨inner, outer, rfl, _⟩ := reaches
  exact List.mem_append_right inner List.mem_cons_self

/-- Looking a name up finds its nearest binding. -/
theorem nearest?_eq_some_iff :
    store.nearest? name scope = some (address, binding) ↔
      store.Finds name scope address binding := by
  induction scope with
  | nil => simp [nearest?, Finds, not_reaches_nil]
  | cons first outer induction =>
      rw [nearest?, Finds, reaches_cons]
      cases here : (store.frame first).lookup name with
      | none =>
          rw [induction, Finds]
          constructor
          · rintro ⟨reaches, bound⟩
            exact ⟨.inr ⟨rfl, reaches⟩, bound⟩
          · rintro ⟨rfl | ⟨_, reaches⟩, bound⟩
            · cases here.symm.trans bound
            · exact ⟨reaches, bound⟩
      | some found =>
          constructor
          · intro equal
            cases equal
            exact ⟨.inl rfl, here⟩
          · rintro ⟨rfl | ⟨absurd, _⟩, bound⟩
            · cases here.symm.trans bound
              rfl
            · cases absurd

/-- Looking a name up fails if no frame binds it. -/
theorem nearest?_eq_none_iff : store.nearest? name scope = none ↔ store.Misses name scope := by
  induction scope with
  | nil => simp [nearest?, Misses]
  | cons first outer induction =>
      rw [nearest?, Misses, List.forall_mem_cons]
      cases here : (store.frame first).lookup name with
      | none => simpa [Misses] using induction
      | some found => simp

theorem Finds.unique {other : FrameAddress} {found : Binding}
    (finds : store.Finds name scope address binding) (again : store.Finds name scope other found) :
    other = address ∧ found = binding := by
  have same := (nearest?_eq_some_iff.mpr again).symm.trans (nearest?_eq_some_iff.mpr finds)
  cases same
  exact ⟨rfl, rfl⟩

/-! ## Writing a binding -/

/-- A scope that comes to a frame finds what is written there. -/
theorem lookup?_putBinding_of_reaches (present : address.index < store.frames.size)
    (reaches : store.Reaches name scope address) :
    (store.putBinding address name binding).lookup? scope name = some binding.value := by
  induction scope with
  | nil => exact (not_reaches_nil reaches).elim
  | cons first outer induction =>
      rw [lookup?, nearest?]
      by_cases here : first = address
      · subst here
        rw [frame_putBinding store present, Entries.lookup_put, if_pos rfl]
        rfl
      · obtain ⟨unmet, further⟩ := (reaches_cons.mp reaches).resolve_left (Ne.symm here)
        rw [frame_putBinding_of_ne store here, unmet]
        exact induction further

/-- A scope that does not come to a frame does not notice what is written there. -/
theorem lookup?_putBinding_of_not_reaches (apart : ¬ store.Reaches name scope address) :
    (store.putBinding address name binding).lookup? scope name = store.lookup? scope name := by
  induction scope with
  | nil => rfl
  | cons first outer induction =>
      rw [reaches_cons, not_or, not_and] at apart
      rw [lookup?, lookup?, nearest?, nearest?, frame_putBinding_of_ne store (Ne.symm apart.1)]
      cases here : (store.frame first).lookup name with
      | none => exact induction (apart.2 here)
      | some found => rfl

/-- What is written under one name is not noticed under another one. -/
theorem lookup?_putBinding_of_ne {wanted : String} (apart : wanted ≠ name) :
    (store.putBinding address name binding).lookup? scope wanted = store.lookup? scope wanted := by
  induction scope with
  | nil => rfl
  | cons first outer induction =>
      rw [lookup?, lookup?, nearest?, nearest?,
        lookup_putBinding_of_ne store first address (Ne.symm apart)]
      cases (store.frame first).lookup wanted with
      | none => exact induction
      | some found => rfl

end Store

/-! ## Assigning to a name -/

section

variable {machine after : Machine} {scope : Scope} {name : String} {value : Value}

/-- How an assignment ends is told by the nearest binding. -/
theorem writePlace_binding (machine : Machine) (scope : Scope) (name : String) (value : Value) :
    writePlace scope (.binding name) value machine =
      match machine.store.nearest? name scope with
      | none => .error (.fault (.unbound name)) machine
      | some (address, binding) =>
        if binding.assignable then
          .ok () { machine with store := machine.store.putBinding address name ⟨value, true⟩ }
        else
          .error (.fault (.type .constantAssignment)) machine := by
  rw [writePlace, Action.tryUpdate, Store.assign]
  cases machine.store.nearest? name scope with
  | none => rfl
  | some found =>
      obtain ⟨address, value, assignable⟩ := found
      cases assignable <;> rfl

/-- An assignment succeeds, meets a constant, or meets no binding at all. -/
theorem writePlace_outcomes (machine : Machine) (scope : Scope) (name : String) (value : Value) :
    ((∃ after, writePlace scope (.binding name) value machine = .ok () after) ↔
        ∃ address binding,
          machine.store.Finds name scope address binding ∧ binding.assignable = true) ∧
      ((∃ reason after,
          writePlace scope (.binding name) value machine = .error (.fault (.type reason)) after) ↔
        ∃ address binding,
          machine.store.Finds name scope address binding ∧ binding.assignable = false) ∧
      ((∃ missing after,
          writePlace scope (.binding name) value machine =
            .error (.fault (.unbound missing)) after) ↔
        machine.store.Misses name scope) := by
  rw [writePlace_binding]
  simp only [← Store.nearest?_eq_some_iff, ← Store.nearest?_eq_none_iff]
  cases machine.store.nearest? name scope with
  | none => simp
  | some found =>
      obtain ⟨address, content, assignable⟩ := found
      cases assignable <;> simp

/-- An assignment that succeeds writes to the frame in which its scope finds the name. -/
theorem writePlace_eq_ok
    (outcome : writePlace scope (.binding name) value machine = .ok () after) :
    ∃ address binding, machine.store.Finds name scope address binding ∧
      after.store = machine.store.putBinding address name ⟨value, true⟩ := by
  rw [writePlace_binding] at outcome
  cases nearest : machine.store.nearest? name scope with
  | none =>
      rw [nearest] at outcome
      cases outcome
  | some found =>
      obtain ⟨address, binding⟩ := found
      simp only [nearest] at outcome
      split at outcome
      · cases outcome
        exact ⟨address, binding, Store.nearest?_eq_some_iff.mp nearest, rfl⟩
      · cases outcome

/-- An assignment that fails changes nothing. -/
theorem writePlace_eq_error {stop : Stop}
    (outcome : writePlace scope (.binding name) value machine = .error stop after) :
    after = machine := by
  rw [writePlace_binding] at outcome
  split at outcome
  · cases outcome
    rfl
  · split at outcome
    · cases outcome
    · cases outcome
      rfl

end

/-! ## Trees of scopes -/

/-- The scopes of a tree, with a machine that holds their frames, after steps of any number. -/
inductive ScopeTree : Machine → List Scope → Prop where
  /-- A scope that consists of one frame. -/
  | root {machine : Machine} {address : FrameAddress} :
      address.index < machine.store.frames.size → ScopeTree machine [[address]]
  /-- A scope is opened inside one of the tree. -/
  | enter {machine after : Machine} {scopes : List Scope} {outer inner : Scope} :
      ScopeTree machine scopes → outer ∈ scopes → enterBlock outer machine = .ok inner after →
        ScopeTree after (inner :: scopes)
  /-- A name is declared in a scope. -/
  | declare {machine : Machine} {scopes : List Scope} {scope : Scope} (name : String)
      (binding : Binding) :
      ScopeTree machine scopes → scope ∈ scopes →
        ScopeTree ((declare scope name binding).leaves machine) scopes
  /-- A value is assigned to a name, or it is not, in a scope. -/
  | assign {machine : Machine} {scopes : List Scope} {scope : Scope} (name : String)
      (value : Value) :
      ScopeTree machine scopes → scope ∈ scopes →
        ScopeTree ((writePlace scope (.binding name) value).leaves machine) scopes

theorem leaves_declare {machine : Machine} {scope : Scope} {name : String} {binding : Binding} :
    ((declare scope name binding).leaves machine).store =
      machine.store.declare scope name binding :=
  rfl

/-- The scopes of a tree keep to the store, and each of them has a frame of its own. -/
theorem ScopeTree.sees {machine : Machine} {scopes : List Scope} (tree : ScopeTree machine scopes) :
    ∀ scope ∈ scopes, machine.store.Sees scope ∧ scope ≠ [] := by
  induction tree with
  | root present =>
      intro scope member
      cases List.mem_singleton.mp member
      refine ⟨fun address among => ?_, List.cons_ne_nil _ _⟩
      cases List.mem_singleton.mp among
      exact present
  | enter _ among entered induction =>
      cases entered
      intro scope member
      rcases List.mem_cons.mp member with rfl | before
      · exact ⟨(induction _ among).1.enter [], List.cons_ne_nil _ _⟩
      · refine ⟨(induction scope before).1.mono ?_, (induction scope before).2⟩
        exact Nat.le_of_lt (Nat.lt_of_lt_of_eq (Nat.lt_succ_self _) (Store.size_addFrame _ _).symm)
  | declare name binding _ _ induction =>
      intro scope member
      refine ⟨(induction scope member).1.mono ?_, (induction scope member).2⟩
      rw [leaves_declare, Store.size_declare]
  | @assign machine scopes written name value _ _ induction =>
      intro scope member
      refine ⟨(induction scope member).1.mono ?_, (induction scope member).2⟩
      cases outcome : writePlace written (.binding name) value machine with
      | ok _ after =>
          obtain ⟨address, binding, _, store⟩ := writePlace_eq_ok outcome
          rw [Action.leaves_of_ok outcome, store, Store.size_putBinding]
      | error stop after => rw [Action.leaves_of_error outcome, writePlace_eq_error outcome]

/-! ## What is noticed where -/

/-- Two scopes find a name in the same frame. -/
def Store.Shares (store : Store) (name : String) (scope other : Scope) : Prop :=
  ∃ address binding, store.Finds name scope address binding ∧ store.Finds name other address binding

/-- What assignments and declarations in one scope of a tree mean for all scopes of the tree. -/
structure ActsLexically (machine : Machine) (scopes : List Scope) (scope : Scope) (name : String) :
    Prop where
  /-- An assignment succeeds just if the nearest binding may be changed. -/
  succeeds (value : Value) :
    (∃ after, writePlace scope (.binding name) value machine = .ok () after) ↔
      ∃ address binding,
        machine.store.Finds name scope address binding ∧ binding.assignable = true
  /-- It ends with a type fault just if the nearest binding may not be changed. -/
  constant (value : Value) :
    (∃ reason after,
        writePlace scope (.binding name) value machine = .error (.fault (.type reason)) after) ↔
      ∃ address binding,
        machine.store.Finds name scope address binding ∧ binding.assignable = false
  /-- It ends with an unbound name just if no frame of the scope binds the name. -/
  unbound (value : Value) :
    (∃ missing after,
        writePlace scope (.binding name) value machine = .error (.fault (.unbound missing)) after) ↔
      machine.store.Misses name scope
  /-- An assignment that fails is not noticed. -/
  failed {value : Value} {stop : Stop} {after : Machine} :
    writePlace scope (.binding name) value machine = .error stop after →
      ∀ other ∈ scopes, ∀ wanted,
        after.store.lookup? other wanted = machine.store.lookup? other wanted
  /-- One that succeeds is noticed under the name where it is found in the same frame. -/
  assigned {value : Value} {after : Machine} :
    writePlace scope (.binding name) value machine = .ok () after →
      ∀ other ∈ scopes,
        (machine.store.Shares name scope other → after.store.lookup? other name = some value) ∧
          ∀ wanted, ¬ (wanted = name ∧ machine.store.Shares name scope other) →
            after.store.lookup? other wanted = machine.store.lookup? other wanted
  /-- A declaration is noticed where its frame is reached without meeting the name before. -/
  declared (binding : Binding) :
    ∃ address after, scope.head? = some address ∧
      declare scope name binding machine = .ok () after ∧
        ∀ other ∈ scopes,
          (machine.store.Reaches name other address →
            after.store.lookup? other name = some binding.value) ∧
          ∀ wanted, ¬ (wanted = name ∧ machine.store.Reaches name other address) →
            after.store.lookup? other wanted = machine.store.lookup? other wanted

section

variable {machine : Machine} {scopes : List Scope} {scope : Scope} {name : String}

/-- What is written in a frame is noticed by the scopes that come to it, and by no others. -/
theorem lookup?_written {address : FrameAddress}
    (present : address.index < machine.store.frames.size) (binding : Binding) (other : Scope) :
    (machine.store.Reaches name other address →
        (machine.store.putBinding address name binding).lookup? other name = some binding.value) ∧
      ∀ wanted, ¬ (wanted = name ∧ machine.store.Reaches name other address) →
        (machine.store.putBinding address name binding).lookup? other wanted =
          machine.store.lookup? other wanted := by
  refine ⟨Store.lookup?_putBinding_of_reaches present, fun wanted apart => ?_⟩
  by_cases same : wanted = name
  · subst same
    exact Store.lookup?_putBinding_of_not_reaches fun reaches => apart ⟨rfl, reaches⟩
  · exact Store.lookup?_putBinding_of_ne same

/-- Scopes share a binding if they come to the frame in which one of them finds it. -/
theorem Store.Finds.shares_iff {store : Store} {address : FrameAddress} {binding : Binding}
    (finds : store.Finds name scope address binding) {other : Scope} :
    store.Shares name scope other ↔ store.Reaches name other address := by
  constructor
  · rintro ⟨shared, found, first, second⟩
    exact (finds.unique first).1 ▸ second.1
  · intro reaches
    exact ⟨address, binding, finds, reaches, finds.2⟩

/--
However a tree of scopes has come about, assignments and declarations in any of
its scopes mean for the others what lexical scoping says.
-/
theorem scopes_act_lexically (tree : ScopeTree machine scopes) (member : scope ∈ scopes)
    (name : String) : ActsLexically machine scopes scope name where
  succeeds value := (writePlace_outcomes machine scope name value).1
  constant value := (writePlace_outcomes machine scope name value).2.1
  unbound value := (writePlace_outcomes machine scope name value).2.2
  failed outcome other _ wanted := by rw [writePlace_eq_error outcome]
  assigned outcome other _ := by
    obtain ⟨address, binding, finds, store⟩ := writePlace_eq_ok outcome
    have present := (tree.sees scope member).1 address finds.1.mem
    rw [finds.shares_iff, store]
    exact lookup?_written present _ other
  declared binding := by
    obtain ⟨sees, nonempty⟩ := tree.sees scope member
    obtain ⟨address, outer, rfl⟩ := List.exists_cons_of_ne_nil nonempty
    exact ⟨address, _, rfl, rfl, fun other _ =>
      lookup?_written (sees address List.mem_cons_self) binding other⟩

end

/-- A machine with a frame that binds a name, and a frame further in that binds it again. -/
def branching : Machine where
  store :=
    ⟨#[[("x", ⟨.truth true, true⟩)], [], [("x", ⟨.undefined, false⟩)], []], #[], #[], #[]⟩
  output := #[]
  depth := 0
  depthLimit := usualDepthLimit

/-- A scope, two scopes inside it, and one inside the first of these. -/
def branches : List Scope :=
  [[⟨3⟩, ⟨1⟩, ⟨0⟩], [⟨2⟩, ⟨0⟩], [⟨1⟩, ⟨0⟩], [⟨0⟩]]

theorem scopeTree_branching : ScopeTree branching branches := by
  have root : ScopeTree ⟨⟨#[[]], #[], #[], #[]⟩, #[], 0, usualDepthLimit⟩ [[⟨0⟩]] :=
    .root (by decide)
  have bound := root.declare "x" ⟨.truth true, true⟩ List.mem_cons_self
  have opened := bound.enter List.mem_cons_self rfl
  have beside := opened.enter (List.mem_cons_of_mem _ List.mem_cons_self) rfl
  have again := beside.declare "x" ⟨.undefined, false⟩ List.mem_cons_self
  exact again.enter (List.mem_cons_of_mem _ List.mem_cons_self) rfl

/-- An assignment in the innermost scope passes by the scope in which the name is bound again. -/
theorem scopes_act_lexically_branching :
    ScopeTree branching branches ∧ [⟨3⟩, ⟨1⟩, ⟨0⟩] ∈ branches ∧
      ActsLexically branching branches [⟨3⟩, ⟨1⟩, ⟨0⟩] "x" ∧
        ∃ after,
          writePlace [⟨3⟩, ⟨1⟩, ⟨0⟩] (.binding "x") (.truth false) branching = .ok () after ∧
            after.store.lookup? [⟨1⟩, ⟨0⟩] "x" = some (.truth false) ∧
              after.store.lookup? [⟨2⟩, ⟨0⟩] "x" = branching.store.lookup? [⟨2⟩, ⟨0⟩] "x" := by
  have member : [⟨3⟩, ⟨1⟩, ⟨0⟩] ∈ branches := List.mem_cons_self
  have outer : branching.store.Finds "x" [⟨1⟩, ⟨0⟩] ⟨0⟩ ⟨.truth true, true⟩ :=
    Store.nearest?_eq_some_iff.mp rfl
  have inner : branching.store.Finds "x" [⟨3⟩, ⟨1⟩, ⟨0⟩] ⟨0⟩ ⟨.truth true, true⟩ :=
    Store.nearest?_eq_some_iff.mp rfl
  have shadowing : branching.store.Finds "x" [⟨2⟩, ⟨0⟩] ⟨2⟩ ⟨.undefined, false⟩ :=
    Store.nearest?_eq_some_iff.mp rfl
  have acts := scopes_act_lexically scopeTree_branching member "x"
  obtain ⟨after, outcome⟩ := (acts.succeeds (.truth false)).mpr ⟨_, _, inner, rfl⟩
  refine ⟨scopeTree_branching, member, acts, after, outcome, ?_, ?_⟩
  · exact (acts.assigned outcome _ (by decide)).1 ⟨_, _, inner, outer⟩
  · refine (acts.assigned outcome _ (by decide)).2 "x" ?_
    rintro ⟨_, _, _, first, second⟩
    obtain ⟨rfl, _⟩ := inner.unique first
    obtain ⟨absurd, _⟩ := shadowing.unique second
    cases absurd

end Covenant.Machine
