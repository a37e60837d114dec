import Covenant.Proofs.Regime

/-!
# What runs cannot disturb

Three regimes.  The scopes of all closures stay within the store.  Constants
stay bound, and names that the running code does not declare stay absent, in
the frames that a store already has.  A frame that no closure sees stays as it
is.
-/

namespace Covenant.Machine

namespace Store

theorem frame_putBinding
    (store : Store) {address : FrameAddress} (present : address.index < store.frames.size)
    (name : String) (binding : Binding) :
    (store.putBinding address name binding).frame address =
      Entries.put name binding (store.frame address) := by
  simp only [frame, putBinding, Array.getD_eq_getD_getElem?, Array.getElem?_modify, if_true]
  simp [Array.getElem?_eq_getElem present]

theorem frame_putBinding_of_ne
    (store : Store) {address other : FrameAddress} (apart : other ≠ address)
    (name : String) (binding : Binding) :
    (store.putBinding address name binding).frame other = store.frame other := by
  have indexApart : address.index ≠ other.index := by
    intro equal
    cases address
    cases other
    cases equal
    exact apart rfl
  simp [frame, putBinding, Array.getD_eq_getD_getElem?, Array.getElem?_modify, indexApart]

/-- Writing another name leaves what a frame binds to a name. -/
theorem lookup_putBinding_of_ne
    (store : Store) (address written : FrameAddress) {name key : String} (apart : key ≠ name)
    (binding : Binding) :
    ((store.putBinding written key binding).frame address).lookup name =
      (store.frame address).lookup name := by
  by_cases same : address = written
  · subst same
    by_cases present : address.index < store.frames.size
    · rw [frame_putBinding store present, Entries.lookup_put, if_neg apart.symm]
    · simp [putBinding, frame, present]
  · rw [frame_putBinding_of_ne store same]

theorem frame_addFrame_of_lt
    (store : Store) {address : FrameAddress} (present : address.index < store.frames.size)
    (added : Frame) :
    (store.addFrame added).2.frame address = store.frame address := by
  simp [frame, addFrame, Array.getD_eq_getD_getElem?, Array.getElem?_push,
    Nat.ne_of_lt present]

theorem frame_addFrame (store : Store) (added : Frame) :
    (store.addFrame added).2.frame ⟨store.frames.size⟩ = added := by
  simp [frame, addFrame, Array.getD_eq_getD_getElem?]

theorem size_addFrame (store : Store) (added : Frame) :
    (store.addFrame added).2.frames.size = store.frames.size + 1 := by
  simp [addFrame]

/-- The frame of a binding that is found is part of the scope, and holds the binding. -/
theorem nearest?_eq_some
    {store : Store} {name : String} {address : FrameAddress} {binding : Binding} :
    {scope : Scope} → store.nearest? name scope = some (address, binding) →
      address ∈ scope ∧ (store.frame address).lookup name = some binding
  | [], found => by cases found
  | inner :: outer, found => by
      rw [nearest?] at found
      cases here : (store.frame inner).lookup name with
      | some bound =>
          rw [here] at found
          cases found
          exact ⟨List.mem_cons_self, here⟩
      | none =>
          rw [here] at found
          obtain ⟨member, bound⟩ := nearest?_eq_some found
          exact ⟨List.mem_cons_of_mem _ member, bound⟩

theorem closure?_addClosure (store : Store) (closure : Closure) :
    (store.addClosure closure).2.closure? ⟨store.closures.size⟩ = some closure := by
  simp [closure?, addClosure]

theorem closure?_addClosure_of_some
    {store : Store} {address : ClosureAddress} {closure : Closure}
    (found : store.closure? address = some closure) (added : Closure) :
    (store.addClosure added).2.closure? address = some closure := by
  obtain ⟨present, _⟩ := Array.getElem?_eq_some_iff.mp found
  simp only [closure?, addClosure, Array.getElem?_push, if_neg (Nat.ne_of_lt present)]
  exact found

/-- The closures after one more are the ones before and that one. -/
theorem closure?_addClosure_eq_some
    {store : Store} {address : ClosureAddress} {closure added : Closure}
    (found : (store.addClosure added).2.closure? address = some closure) :
    store.closure? address = some closure ∨ closure = added := by
  simp only [closure?, addClosure, Array.getElem?_push] at found
  split at found
  · cases found
    exact .inr rfl
  · exact .inl found

/-! ## Scopes within a store -/

/-- Every frame of a scope is in a store. -/
def Sees (store : Store) (scope : Scope) : Prop :=
  ∀ address ∈ scope, address.index < store.frames.size

/-- Every closure has a scope within the store. -/
def WellScoped (store : Store) : Prop :=
  ∀ address closure, store.closure? address = some closure → store.Sees closure.scope

theorem Sees.mono
    {store other : Store} {scope : Scope}
    (sees : store.Sees scope) (more : store.frames.size ≤ other.frames.size) :
    other.Sees scope :=
  fun address member => Nat.lt_of_lt_of_le (sees address member) more

/-- A scope that is entered is within the store that has its frame. -/
theorem Sees.enter {store : Store} {scope : Scope} (sees : store.Sees scope) (frame : Frame) :
    (store.addFrame frame).2.Sees (⟨store.frames.size⟩ :: scope) := by
  intro address member
  rw [size_addFrame]
  rcases List.mem_cons.mp member with rfl | outer
  · exact Nat.lt_succ_self _
  · exact Nat.lt_succ_of_lt (sees address outer)

/-- A change of the frames that loses none keeps the scopes of the same closures. -/
theorem WellScoped.mono
    {store other : Store} (wellScoped : store.WellScoped)
    (closures : other.closures = store.closures)
    (more : store.frames.size ≤ other.frames.size) :
    other.WellScoped := by
  intro address closure found
  refine (wellScoped address closure ?_).mono more
  simpa [closure?, closures] using found

end Store

/-- Code runs in scopes within the store, and so do all closures. -/
def scoping : Regime where
  holds := Store.WellScoped
  scope count scope := ∀ address ∈ scope, address.index < count
  may _ _ := True
  scope_mono := fun more sees address member => Nat.lt_of_lt_of_le (sees address member) more
  scope_enter := by
    intro store scope _ sees address member
    rcases List.mem_cons.mp member with rfl | outer
    · exact Nat.lt_succ_self _
    · exact Nat.lt_succ_of_lt (sees address outer)
  may_enter := fun _ => trivial
  closure := fun wellScoped found => wellScoped _ _ found
  cells := fun wellScoped frames closures =>
    wellScoped.mono closures (Nat.le_of_eq (by rw [frames]))
  addFrame := fun frame wellScoped =>
    wellScoped.mono rfl (by rw [Store.size_addFrame]; exact Nat.le_succ _)
  addClosure := by
    intro store added wellScoped sees address closure found
    rcases Store.closure?_addClosure_eq_some found with old | rfl
    · exact wellScoped address closure old
    · exact sees
  declare := by
    intro store scope name binding wellScoped _ _
    refine wellScoped.mono ?_ (Nat.le_of_eq (Store.size_declare store scope name binding).symm)
    cases scope <;> rfl
  assign := by
    intro store other scope name value wellScoped _ assigned
    obtain ⟨address, _, _, _, rfl⟩ := Store.assign_eq_ok.mp assigned
    exact wellScoped.mono rfl (Nat.le_of_eq (Store.size_putBinding store address name _).symm)

/-! ## Constants and absent names -/

namespace Store

/--
In the frames of an earlier store, names of a kind are bound as they were
wherever they were absent or constants; and closures are as they were.
-/
structure Steady (names : String → Prop) (before after : Store) : Prop where
  size : before.frames.size ≤ after.frames.size
  closures (address : ClosureAddress) (closure : Closure) :
    before.closure? address = some closure → after.closure? address = some closure
  bindings (address : FrameAddress) (name : String) :
    address.index < before.frames.size → names name →
      (∀ binding ∈ (before.frame address).lookup name, binding.assignable = false) →
        (after.frame address).lookup name = (before.frame address).lookup name

variable {names : String → Prop} {before after store : Store}

theorem Steady.refl (store : Store) : store.Steady names store :=
  ⟨Nat.le_refl _, fun _ _ found => found, fun _ _ _ _ _ => rfl⟩

/-- Writing one binding is steady if no constant is lost by it and no absence. -/
theorem Steady.putBinding
    (steady : before.Steady names store) {address : FrameAddress} {name : String}
    (free : names name → address.index < before.frames.size →
      ∃ binding ∈ (before.frame address).lookup name, binding.assignable = true)
    (binding : Binding) :
    before.Steady names (store.putBinding address name binding) where
  size := by
    rw [size_putBinding]
    exact steady.size
  closures := steady.closures
  bindings other name' present member constant := by
    rw [← steady.bindings other name' present member constant]
    by_cases same : other = address
    · subst same
      rw [frame_putBinding _ (Nat.lt_of_lt_of_le present steady.size), Entries.lookup_put]
      by_cases written : name' = name
      · subst written
        obtain ⟨bound, found, assignable⟩ := free member present
        rw [constant bound found] at assignable
        cases assignable
      · rw [if_neg written]
    · rw [frame_putBinding_of_ne _ same]

/-- A constant that is found stays the one that is found. -/
theorem Steady.nearest?_eq_some
    (steady : before.Steady names after) {name : String} (member : names name)
    {address : FrameAddress} {value : Value} :
    {scope : Scope} → before.Sees scope →
      before.nearest? name scope = some (address, ⟨value, false⟩) →
        after.nearest? name scope = some (address, ⟨value, false⟩)
  | [], _, found => by cases found
  | inner :: outer, sees, found => by
      rw [nearest?] at found ⊢
      have present := sees inner List.mem_cons_self
      cases here : (before.frame inner).lookup name with
      | some bound =>
          have constant : (⟨value, false⟩ : Binding) = bound ∧ address = inner := by
            rw [here] at found
            cases found
            exact ⟨rfl, rfl⟩
          obtain ⟨rfl, rfl⟩ := constant
          rw [steady.bindings address name present member (by simp [here]), here]
      | none =>
          rw [here] at found
          rw [steady.bindings inner name present member (by simp [here]), here]
          exact nearest?_eq_some steady member
            (fun address inOuter => sees address (List.mem_cons_of_mem _ inOuter)) found

/-- An assignment never writes to a constant. -/
theorem Steady.assign
    (steady : before.Steady names store) {scope : Scope} {name : String} {value : Value}
    {other : Store} (assigned : store.assign scope name value = .ok other) :
    before.Steady names other := by
  obtain ⟨address, binding, found, assignable, rfl⟩ := assign_eq_ok.mp assigned
  refine steady.putBinding (fun member present => ?_) _
  have bound := (Store.nearest?_eq_some found).2
  cases early : (before.frame address).lookup name with
  | none =>
      rw [steady.bindings address name present member (by simp [early]), early] at bound
      cases bound
  | some earlyBinding =>
      cases constant : earlyBinding.assignable with
      | true => exact ⟨earlyBinding, rfl, constant⟩
      | false =>
          rw [steady.bindings address name present member (by simp [early, constant]),
            early] at bound
          cases bound
          rw [constant] at assignable
          cases assignable

end Store

/-- Code that declares none of some names in the frames of a store keeps them steady. -/
def steadiness (names : String → Prop) (before : Store) : Regime where
  holds := before.Steady names
  scope _ _ := True
  may scope name :=
    ∀ address ∈ scope.head?, address.index < before.frames.size → ¬ names name
  scope_mono := fun _ _ => trivial
  scope_enter := fun _ _ => trivial
  may_enter := by
    intro store scope name steady address member present
    cases member
    exact absurd present (Nat.not_lt.mpr steady.size)
  closure := fun _ _ => trivial
  cells := by
    intro store other steady frames closures
    refine ⟨by rw [frames]; exact steady.size, ?_, ?_⟩
    · intro address closure found
      simpa [Store.closure?, closures] using steady.closures address closure found
    · intro address name present member constant
      simpa [Store.frame, frames] using steady.bindings address name present member constant
  addFrame := by
    intro store frame steady
    refine ⟨?_, steady.closures, ?_⟩
    · rw [Store.size_addFrame]
      exact Nat.le_succ_of_le steady.size
    · intro address name present member constant
      rw [Store.frame_addFrame_of_lt _ (Nat.lt_of_lt_of_le present steady.size)]
      exact steady.bindings address name present member constant
  addClosure := by
    intro store added steady _
    refine ⟨steady.size, ?_, steady.bindings⟩
    intro address closure found
    exact Store.closure?_addClosure_of_some (steady.closures address closure found) added
  declare := by
    intro store scope name binding steady _ may
    cases scope with
    | nil => exact steady
    | cons address outer =>
        refine steady.putBinding (fun member present => ?_) binding
        exact (may address rfl present member).elim
  assign := fun steady _ assigned => steady.assign assigned

/-! ## Frames out of sight -/

namespace Store

/-- A frame of the store has some bindings, and no closure sees it. -/
structure Sealed (address : FrameAddress) (bindings : Frame) (store : Store) : Prop where
  present : address.index < store.frames.size
  equal : store.frame address = bindings
  unseen (closure : ClosureAddress) (found : Closure) :
    store.closure? closure = some found → address ∉ found.scope

/-- A frame that has just been added is out of sight. -/
theorem WellScoped.sealed {store : Store} (wellScoped : store.WellScoped) (frame : Frame) :
    (store.addFrame frame).2.Sealed ⟨store.frames.size⟩ frame where
  present := by
    rw [size_addFrame]
    exact Nat.lt_succ_self _
  equal := store.frame_addFrame frame
  unseen closure found outcome member :=
    Nat.lt_irrefl _ (wellScoped closure found outcome _ member)

end Store

/-- Code that runs elsewhere leaves a frame as it is. -/
def sealing (address : FrameAddress) (bindings : Frame) : Regime where
  holds := Store.Sealed address bindings
  scope count scope := address.index < count ∧ address ∉ scope
  may _ _ := True
  scope_mono := fun more unseen => ⟨Nat.lt_of_lt_of_le unseen.1 more, unseen.2⟩
  scope_enter := by
    intro store scope kept unseen
    refine ⟨Nat.lt_succ_of_lt unseen.1, ?_⟩
    intro member
    rcases List.mem_cons.mp member with rfl | outer
    · exact Nat.lt_irrefl _ kept.present
    · exact unseen.2 outer
  may_enter := fun _ => trivial
  closure := fun kept found => ⟨kept.present, kept.unseen _ _ found⟩
  cells := by
    intro store other kept frames closures
    refine ⟨by rw [frames]; exact kept.present, ?_, ?_⟩
    · simpa [Store.frame, frames] using kept.equal
    · intro closure found outcome
      exact kept.unseen closure found (by simpa [Store.closure?, closures] using outcome)
  addFrame := by
    intro store frame kept
    refine ⟨?_, ?_, kept.unseen⟩
    · rw [Store.size_addFrame]
      exact Nat.lt_succ_of_lt kept.present
    · rw [Store.frame_addFrame_of_lt _ kept.present]
      exact kept.equal
  addClosure := by
    intro store added kept unseen
    refine ⟨kept.present, kept.equal, ?_⟩
    intro closure found outcome
    rcases Store.closure?_addClosure_eq_some outcome with old | rfl
    · exact kept.unseen closure found old
    · exact unseen.2
  declare := by
    intro store scope name binding kept unseen _
    cases scope with
    | nil => exact kept
    | cons inner outer =>
        have apart : address ≠ inner := fun same => unseen.2 (same ▸ List.mem_cons_self)
        refine ⟨?_, ?_, kept.unseen⟩
        · rw [Store.size_declare]
          exact kept.present
        · exact (Store.frame_putBinding_of_ne store apart name binding).trans kept.equal
  assign := by
    intro store other scope name value kept unseen assigned
    obtain ⟨inner, binding, found, _, rfl⟩ := Store.assign_eq_ok.mp assigned
    have apart : address ≠ inner :=
      fun same => unseen.2 (same ▸ (Store.nearest?_eq_some found).1)
    refine ⟨?_, ?_, kept.unseen⟩
    · rw [Store.size_putBinding]
      exact kept.present
    · exact (Store.frame_putBinding_of_ne store apart name _).trans kept.equal

end Covenant.Machine
