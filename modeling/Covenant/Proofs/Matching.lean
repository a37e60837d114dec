import Covenant.Proofs.Pairing

/-!
# Changes that keep stores corresponding

A cell that is added to both stores can be paired, and paired cells can be
changed alike.  Cells that are added to the first store alone, and names that
only its program knows, leave the stores corresponding as they are.
-/

namespace Covenant.Machine

namespace Store

variable {code : Correspondence} {pairing later : Pairing} {left right left' right' : Store}

/-! ## Pairs under changes elsewhere -/

theorem MatchesFrame.mono
    {pair : FrameAddress × FrameAddress} (given : MatchesFrame code pairing left right pair)
    (grows : pairing.Extends later)
    (leftSame : left'.frame pair.1 = left.frame pair.1)
    (leftMore : left.frames.size ≤ left'.frames.size)
    (rightSame : right'.frame pair.2 = right.frame pair.2)
    (rightMore : right.frames.size ≤ right'.frames.size) :
    MatchesFrame code later left' right' pair where
  inLeft := Nat.lt_of_lt_of_le given.inLeft leftMore
  inRight := Nat.lt_of_lt_of_le given.inRight rightMore
  bindings name visible := by
    rw [leftSame, rightSame]
    exact Pairing.rel_mono (given.bindings name visible) fun _ _ inner => inner.mono grows

theorem MatchesArray.mono
    {pair : ArrayAddress × ArrayAddress} (given : MatchesArray pairing left right pair)
    (grows : pairing.Extends later)
    (leftSame : left'.elements pair.1 = left.elements pair.1)
    (leftMore : left.arrays.size ≤ left'.arrays.size)
    (rightSame : right'.elements pair.2 = right.elements pair.2)
    (rightMore : right.arrays.size ≤ right'.arrays.size) :
    MatchesArray later left' right' pair where
  inLeft := Nat.lt_of_lt_of_le given.inLeft leftMore
  inRight := Nat.lt_of_lt_of_le given.inRight rightMore
  elements := by
    rw [leftSame, rightSame]
    exact given.elements.mono grows

theorem MatchesObject.mono
    {pair : ObjectAddress × ObjectAddress} (given : MatchesObject pairing left right pair)
    (grows : pairing.Extends later)
    (leftSame : left'.object pair.1 = left.object pair.1)
    (leftMore : left.objects.size ≤ left'.objects.size)
    (rightSame : right'.object pair.2 = right.object pair.2)
    (rightMore : right.objects.size ≤ right'.objects.size) :
    MatchesObject later left' right' pair where
  inLeft := Nat.lt_of_lt_of_le given.inLeft leftMore
  inRight := Nat.lt_of_lt_of_le given.inRight rightMore
  kind := by rw [leftSame, rightSame, given.kind]
  properties := by
    rw [leftSame, rightSame]
    exact given.properties.mono grows

/-- Closures of a store are still there in another one. -/
def KeepsClosures (before after : Store) : Prop :=
  ∀ address closure, before.closure? address = some closure →
    after.closure? address = some closure

theorem KeepsClosures.of_same (same : left'.closures = left.closures) :
    left.KeepsClosures left' := by
  intro address closure found
  simpa [closure?, same] using found

theorem keepsClosures_addClosure (store : Store) (closure : Closure) :
    store.KeepsClosures (store.addClosure closure).2 :=
  fun _ _ found => closure?_addClosure_of_some found closure

theorem MatchesClosure.mono
    {pair : ClosureAddress × ClosureAddress} (given : MatchesClosure code pairing left right pair)
    (grows : pairing.Extends later)
    (leftKeeps : left.KeepsClosures left') (rightKeeps : right.KeepsClosures right') :
    MatchesClosure code later left' right' pair := by
  obtain ⟨closure, corresponding, found, present, same, scope⟩ := given
  exact ⟨closure, corresponding, leftKeeps _ _ found, rightKeeps _ _ present, same,
    scope.mono grows⟩

theorem Transparent.mono
    {value : Value} (transparent : left.Transparent value) (keeps : left.KeepsClosures left') :
    left'.Transparent value := by
  obtain ⟨address, closure, checker, parameter, equal, found, same, guards⟩ := transparent
  exact ⟨address, closure, checker, parameter, equal, keeps _ _ found, same, guards⟩

/-- Adding to one side other cells than frames keeps what is known of checkers. -/
theorem Matches.checkers_mono
    (given : Matches code pairing left right) (same : left'.frames = left.frames)
    (keeps : left.KeepsClosures left') (pair : FrameAddress × FrameAddress)
    (member : pair ∈ pairing.frames) (name : String) (binding : Binding)
    (checker : code.checker name) (bound : (left'.frame pair.1).lookup name = some binding) :
    left'.Transparent binding.value := by
  have equal : left'.frame pair.1 = left.frame pair.1 := by
    rw [Store.frame, Store.frame, same]
  rw [equal] at bound
  exact (given.checkers pair member name binding checker bound).mono keeps

/-! ## What has just been added -/

theorem elements_addArray (store : Store) (elements : Array Value) :
    (store.addArray elements).2.elements ⟨store.arrays.size⟩ = elements := by
  simp [Store.elements, addArray, Array.getD_eq_getD_getElem?]

theorem elements_addArray_of_lt
    (store : Store) {address : ArrayAddress} (present : address.index < store.arrays.size)
    (elements : Array Value) :
    (store.addArray elements).2.elements address = store.elements address := by
  simp [Store.elements, addArray, Array.getD_eq_getD_getElem?, Array.getElem?_push,
    Nat.ne_of_lt present]

theorem object_addObject (store : Store) (object : Object) :
    (store.addObject object).2.object ⟨store.objects.size⟩ = object := by
  simp [Store.object, addObject, Array.getD_eq_getD_getElem?]

theorem object_addObject_of_lt
    (store : Store) {address : ObjectAddress} (present : address.index < store.objects.size)
    (object : Object) :
    (store.addObject object).2.object address = store.object address := by
  simp [Store.object, addObject, Array.getD_eq_getD_getElem?, Array.getElem?_push,
    Nat.ne_of_lt present]

/-! ## Cells that are added to both stores -/

/-- Frames with corresponding bindings of the names that both programs know. -/
def RelatesFrames (code : Correspondence) (pairing : Pairing) (left right : Frame) : Prop :=
  ∀ name, code.visible name →
    Option.Rel pairing.RelatesBinding (left.lookup name) (right.lookup name)

theorem Matches.addFrames
    (given : Matches code pairing left right) {first second : Frame}
    (frames : RelatesFrames code pairing first second)
    (bare : ∀ name, code.checker name → first.lookup name = none) :
    Matches code (pairing.withFrame ⟨left.frames.size⟩ ⟨right.frames.size⟩)
      (left.addFrame first).2 (right.addFrame second).2 where
  frames := by
    refine given.frames.cons (fun pair member equal => ?_) fun pair member equal => ?_
    · exact Nat.lt_irrefl left.frames.size (by simpa [equal] using (given.frame pair member).inLeft)
    · exact Nat.lt_irrefl right.frames.size
        (by simpa [equal] using (given.frame pair member).inRight)
  arrays := given.arrays
  objects := given.objects
  closures := given.closures
  frame pair member := by
    have grows := pairing.extends_withFrame ⟨left.frames.size⟩ ⟨right.frames.size⟩
    rcases List.mem_cons.mp member with rfl | old
    · refine ⟨by simp [size_addFrame], by simp [size_addFrame], fun name visible => ?_⟩
      rw [frame_addFrame, frame_addFrame]
      exact Pairing.rel_mono (frames name visible) fun _ _ inner => inner.mono grows
    · have known := given.frame pair old
      exact known.mono grows (frame_addFrame_of_lt _ known.inLeft _)
        (by rw [size_addFrame]; exact Nat.le_succ _) (frame_addFrame_of_lt _ known.inRight _)
        (by rw [size_addFrame]; exact Nat.le_succ _)
  array pair member := (given.array pair member).mono (pairing.extends_withFrame _ _) rfl
    (Nat.le_refl _) rfl (Nat.le_refl _)
  object pair member := (given.object pair member).mono (pairing.extends_withFrame _ _) rfl
    (Nat.le_refl _) rfl (Nat.le_refl _)
  closure pair member := (given.closure pair member).mono (pairing.extends_withFrame _ _)
    (.of_same rfl) (.of_same rfl)
  checkers pair member name binding checker bound := by
    rcases List.mem_cons.mp member with rfl | old
    · rw [frame_addFrame, bare name checker] at bound
      cases bound
    · rw [frame_addFrame_of_lt _ (given.frame pair old).inLeft] at bound
      exact (given.checkers pair old name binding checker bound).mono (.of_same rfl)

theorem Matches.addArrays
    (given : Matches code pairing left right) {first second : List Value}
    (elements : pairing.RelatesAll first second) :
    Matches code (pairing.withArray ⟨left.arrays.size⟩ ⟨right.arrays.size⟩)
      (left.addArray first.toArray).2 (right.addArray second.toArray).2 where
  frames := given.frames
  arrays := by
    refine given.arrays.cons (fun pair member equal => ?_) fun pair member equal => ?_
    · exact Nat.lt_irrefl left.arrays.size (by simpa [equal] using (given.array pair member).inLeft)
    · exact Nat.lt_irrefl right.arrays.size
        (by simpa [equal] using (given.array pair member).inRight)
  objects := given.objects
  closures := given.closures
  frame pair member := (given.frame pair member).mono (pairing.extends_withArray _ _) rfl
    (Nat.le_refl _) rfl (Nat.le_refl _)
  array pair member := by
    have grows := pairing.extends_withArray ⟨left.arrays.size⟩ ⟨right.arrays.size⟩
    rcases List.mem_cons.mp member with rfl | old
    · refine ⟨by simp [addArray], by simp [addArray], ?_⟩
      rw [elements_addArray, elements_addArray]
      exact elements.mono grows
    · have known := given.array pair old
      exact known.mono grows (elements_addArray_of_lt _ known.inLeft _) (by simp [addArray])
        (elements_addArray_of_lt _ known.inRight _) (by simp [addArray])
  object pair member := (given.object pair member).mono (pairing.extends_withArray _ _) rfl
    (Nat.le_refl _) rfl (Nat.le_refl _)
  closure pair member := (given.closure pair member).mono (pairing.extends_withArray _ _)
    (.of_same rfl) (.of_same rfl)
  checkers := given.checkers_mono rfl (.of_same rfl)

theorem Matches.addObjects
    (given : Matches code pairing left right) (kind : ObjectKind)
    {first second : List (String × Value)} (entries : pairing.RelatesEntries first second) :
    Matches code (pairing.withObject ⟨left.objects.size⟩ ⟨right.objects.size⟩)
      (left.addObject ⟨kind, first⟩).2 (right.addObject ⟨kind, second⟩).2 where
  frames := given.frames
  arrays := given.arrays
  objects := by
    refine given.objects.cons (fun pair member equal => ?_) fun pair member equal => ?_
    · exact Nat.lt_irrefl left.objects.size
        (by simpa [equal] using (given.object pair member).inLeft)
    · exact Nat.lt_irrefl right.objects.size
        (by simpa [equal] using (given.object pair member).inRight)
  closures := given.closures
  frame pair member := (given.frame pair member).mono (pairing.extends_withObject _ _) rfl
    (Nat.le_refl _) rfl (Nat.le_refl _)
  array pair member := (given.array pair member).mono (pairing.extends_withObject _ _) rfl
    (Nat.le_refl _) rfl (Nat.le_refl _)
  object pair member := by
    have grows := pairing.extends_withObject ⟨left.objects.size⟩ ⟨right.objects.size⟩
    rcases List.mem_cons.mp member with rfl | old
    · refine ⟨by simp [addObject], by simp [addObject], ?_, ?_⟩
      · rw [object_addObject, object_addObject]
      · rw [object_addObject, object_addObject]
        exact entries.mono grows
    · have known := given.object pair old
      exact known.mono grows (object_addObject_of_lt _ known.inLeft _) (by simp [addObject])
        (object_addObject_of_lt _ known.inRight _) (by simp [addObject])
  closure pair member := (given.closure pair member).mono (pairing.extends_withObject _ _)
    (.of_same rfl) (.of_same rfl)
  checkers := given.checkers_mono rfl (.of_same rfl)

theorem Matches.addClosures
    (given : Matches code pairing left right) {first second : Closure}
    (functions : code.function first.function second.function)
    (scopes : pairing.RelatesScope first.scope second.scope) :
    Matches code (pairing.withClosure ⟨left.closures.size⟩ ⟨right.closures.size⟩)
      (left.addClosure first).2 (right.addClosure second).2 where
  frames := given.frames
  arrays := given.arrays
  objects := given.objects
  closures := by
    refine given.closures.cons (fun pair member equal => ?_) fun pair member equal => ?_
    · obtain ⟨closure, _, found, _⟩ := given.closure pair member
      rw [equal] at found
      simp [closure?] at found
    · obtain ⟨_, closure, _, found, _⟩ := given.closure pair member
      rw [equal] at found
      simp [closure?] at found
  frame pair member := (given.frame pair member).mono (pairing.extends_withClosure _ _) rfl
    (Nat.le_refl _) rfl (Nat.le_refl _)
  array pair member := (given.array pair member).mono (pairing.extends_withClosure _ _) rfl
    (Nat.le_refl _) rfl (Nat.le_refl _)
  object pair member := (given.object pair member).mono (pairing.extends_withClosure _ _) rfl
    (Nat.le_refl _) rfl (Nat.le_refl _)
  closure pair member := by
    have grows := pairing.extends_withClosure ⟨left.closures.size⟩ ⟨right.closures.size⟩
    rcases List.mem_cons.mp member with rfl | old
    · exact ⟨first, second, closure?_addClosure _ _, closure?_addClosure _ _, functions,
        scopes.mono grows⟩
    · exact (given.closure pair old).mono grows (keepsClosures_addClosure _ _)
        (keepsClosures_addClosure _ _)
  checkers := given.checkers_mono rfl (keepsClosures_addClosure _ _)

/-! ## Cells that are changed in both stores -/

/-- Names mean corresponding bindings in scopes that correspond. -/
theorem Matches.nearest?
    (given : Matches code pairing left right) {name : String} (visible : code.visible name)
    {scope corresponding : Scope} (scopes : pairing.RelatesScope scope corresponding) :
    (left.nearest? name scope = none ∧ right.nearest? name corresponding = none) ∨
      ∃ address other binding bound,
        left.nearest? name scope = some (address, binding) ∧
          right.nearest? name corresponding = some (other, bound) ∧
            (address, other) ∈ pairing.frames ∧ pairing.RelatesBinding binding bound := by
  induction scopes with
  | nil => exact .inl ⟨rfl, rfl⟩
  | @cons address other outer others paired _ inductionHypothesis =>
      rw [Store.nearest?, Store.nearest?]
      have here := (given.frame _ paired).bindings name visible
      cases first : (left.frame address).lookup name with
      | none =>
          cases second : (right.frame other).lookup name with
          | none => exact inductionHypothesis
          | some bound =>
              rw [first, second] at here
              cases here
      | some binding =>
          cases second : (right.frame other).lookup name with
          | none =>
              rw [first, second] at here
              cases here
          | some bound =>
              rw [first, second] at here
              cases here with
              | some related =>
                  exact .inr ⟨address, other, binding, bound, rfl, rfl, paired, related⟩

theorem Matches.putBindings
    (given : Matches code pairing left right) {address other : FrameAddress}
    (paired : (address, other) ∈ pairing.frames) {name : String} (visible : code.visible name)
    {binding bound : Binding} (related : pairing.RelatesBinding binding bound) :
    Matches code pairing (left.putBinding address name binding)
      (right.putBinding other name bound) where
  frames := given.frames
  arrays := given.arrays
  objects := given.objects
  closures := given.closures
  frame pair member := by
    have known := given.frame pair member
    refine ⟨by rw [size_putBinding]; exact known.inLeft,
      by rw [size_putBinding]; exact known.inRight, fun name' visible' => ?_⟩
    have together := given.frames pair member _ paired
    by_cases same : pair.1 = address
    · have equal : pair.2 = other := together.mp same
      rw [same, equal, frame_putBinding _ (same ▸ known.inLeft),
        frame_putBinding _ (equal ▸ known.inRight), Entries.lookup_put, Entries.lookup_put]
      by_cases written : name' = name
      · rw [if_pos written, if_pos written]
        exact .some related
      · rw [if_neg written, if_neg written, ← same, ← equal]
        exact known.bindings name' visible'
    · have apart : pair.2 ≠ other := fun equal => same (together.mpr equal)
      rw [frame_putBinding_of_ne _ same, frame_putBinding_of_ne _ apart]
      exact known.bindings name' visible'
  array pair member := (given.array pair member).mono (.refl pairing) rfl (Nat.le_refl _) rfl
    (Nat.le_refl _)
  object pair member := (given.object pair member).mono (.refl pairing) rfl (Nat.le_refl _) rfl
    (Nat.le_refl _)
  closure := given.closure
  checkers pair member name' value checker boundTo := by
    by_cases same : pair.1 = address
    · rw [same, frame_putBinding _ (given.frame _ paired).inLeft, Entries.lookup_put] at boundTo
      by_cases written : name' = name
      · exact absurd (written ▸ visible) (code.apart checker)
      · rw [if_neg written, ← same] at boundTo
        exact given.checkers pair member name' value checker boundTo
    · rw [frame_putBinding_of_ne _ same] at boundTo
      exact given.checkers pair member name' value checker boundTo

theorem elements_modifyElements
    (store : Store) {address : ArrayAddress} (present : address.index < store.arrays.size)
    (change : Array Value → Array Value) :
    (store.modifyElements address change).elements address =
      change (store.elements address) := by
  simp only [Store.elements, modifyElements, Array.getD_eq_getD_getElem?, Array.getElem?_modify,
    if_true]
  simp [Array.getElem?_eq_getElem present]

theorem elements_modifyElements_of_ne
    (store : Store) {address other : ArrayAddress} (apart : other ≠ address)
    (change : Array Value → Array Value) :
    (store.modifyElements address change).elements other = store.elements other := by
  have indexApart : address.index ≠ other.index := by
    intro equal
    cases address
    cases other
    cases equal
    exact apart rfl
  simp [Store.elements, modifyElements, Array.getD_eq_getD_getElem?, Array.getElem?_modify,
    indexApart]

theorem object_putProperty
    (store : Store) {address : ObjectAddress} (present : address.index < store.objects.size)
    (key : String) (value : Value) :
    (store.putProperty address key value).object address =
      { store.object address with
        properties := Entries.put key value (store.object address).properties } := by
  simp only [Store.object, putProperty, Array.getD_eq_getD_getElem?, Array.getElem?_modify,
    if_true]
  simp [Array.getElem?_eq_getElem present]

theorem object_putProperty_of_ne
    (store : Store) {address other : ObjectAddress} (apart : other ≠ address)
    (key : String) (value : Value) :
    (store.putProperty address key value).object other = store.object other := by
  have indexApart : address.index ≠ other.index := by
    intro equal
    cases address
    cases other
    cases equal
    exact apart rfl
  simp [Store.object, putProperty, Array.getD_eq_getD_getElem?, Array.getElem?_modify,
    indexApart]

/-- Paired arrays can be changed by changes that take related elements to related ones. -/
theorem Matches.modifyElements
    (given : Matches code pairing left right) {address other : ArrayAddress}
    (paired : (address, other) ∈ pairing.arrays) {change alike : Array Value → Array Value}
    (related : ∀ first second, pairing.RelatesAll first.toList second.toList →
      pairing.RelatesAll (change first).toList (alike second).toList) :
    Matches code pairing (left.modifyElements address change)
      (right.modifyElements other alike) where
  frames := given.frames
  arrays := given.arrays
  objects := given.objects
  closures := given.closures
  frame pair member := (given.frame pair member).mono (.refl pairing) rfl (Nat.le_refl _) rfl
    (Nat.le_refl _)
  array pair member := by
    have known := given.array pair member
    have together := given.arrays pair member _ paired
    refine ⟨by simpa [Store.modifyElements] using known.inLeft,
      by simpa [Store.modifyElements] using known.inRight, ?_⟩
    by_cases same : pair.1 = address
    · have equal : pair.2 = other := together.mp same
      rw [same, equal, elements_modifyElements _ (same ▸ known.inLeft),
        elements_modifyElements _ (equal ▸ known.inRight), ← same, ← equal]
      exact related _ _ known.elements
    · have apart : pair.2 ≠ other := fun equal => same (together.mpr equal)
      rw [elements_modifyElements_of_ne _ same, elements_modifyElements_of_ne _ apart]
      exact known.elements
  object pair member := (given.object pair member).mono (.refl pairing) rfl (Nat.le_refl _) rfl
    (Nat.le_refl _)
  closure := given.closure
  checkers := given.checkers

/-- Paired objects can be given related properties. -/
theorem Matches.putProperty
    (given : Matches code pairing left right) {address other : ObjectAddress}
    (paired : (address, other) ∈ pairing.objects) (key : String) {value corresponding : Value}
    (related : pairing.Relates value corresponding) :
    Matches code pairing (left.putProperty address key value)
      (right.putProperty other key corresponding) where
  frames := given.frames
  arrays := given.arrays
  objects := given.objects
  closures := given.closures
  frame pair member := (given.frame pair member).mono (.refl pairing) rfl (Nat.le_refl _) rfl
    (Nat.le_refl _)
  array pair member := (given.array pair member).mono (.refl pairing) rfl (Nat.le_refl _) rfl
    (Nat.le_refl _)
  object pair member := by
    have known := given.object pair member
    have together := given.objects pair member _ paired
    by_cases same : pair.1 = address
    · have equal : pair.2 = other := together.mp same
      refine ⟨by simpa [Store.putProperty] using known.inLeft,
        by simpa [Store.putProperty] using known.inRight, ?_, ?_⟩
      · rw [same, equal, object_putProperty _ (same ▸ known.inLeft),
          object_putProperty _ (equal ▸ known.inRight), ← same, ← equal]
        exact known.kind
      · rw [same, equal, object_putProperty _ (same ▸ known.inLeft),
          object_putProperty _ (equal ▸ known.inRight), ← same, ← equal]
        exact known.properties.put key related
    · have apart : pair.2 ≠ other := fun equal => same (together.mpr equal)
      refine ⟨by simpa [Store.putProperty] using known.inLeft,
        by simpa [Store.putProperty] using known.inRight, ?_, ?_⟩
      · rw [object_putProperty_of_ne _ same, object_putProperty_of_ne _ apart]
        exact known.kind
      · rw [object_putProperty_of_ne _ same, object_putProperty_of_ne _ apart]
        exact known.properties
  closure := given.closure
  checkers := given.checkers

/-! ## Changes of the first store alone -/

/--
A store has grown by what its program does beyond the other one: what both
programs know of its cells is as it was, and in its frames names of checkers
have been bound to nothing but functions that give their argument back.
-/
structure Grows (code : Correspondence) (before after : Store) : Prop where
  frames : before.frames.size ≤ after.frames.size
  frame (address : FrameAddress) (name : String) : address.index < before.frames.size →
    code.visible name → (after.frame address).lookup name = (before.frame address).lookup name
  arrays : before.arrays.size ≤ after.arrays.size
  elements (address : ArrayAddress) : address.index < before.arrays.size →
    after.elements address = before.elements address
  objects : before.objects.size ≤ after.objects.size
  object (address : ObjectAddress) : address.index < before.objects.size →
    after.object address = before.object address
  closures : before.KeepsClosures after
  checkers (address : FrameAddress) (name : String) (binding : Binding) :
    address.index < before.frames.size → code.checker name →
      (after.frame address).lookup name = some binding →
        (before.frame address).lookup name = some binding ∨ after.Transparent binding.value

theorem Grows.refl (store : Store) : store.Grows code store where
  frames := Nat.le_refl _
  frame _ _ _ _ := rfl
  arrays := Nat.le_refl _
  elements _ _ := rfl
  objects := Nat.le_refl _
  object _ _ := rfl
  closures _ _ found := found
  checkers _ _ _ _ _ bound := .inl bound

theorem Grows.trans
    {before between after : Store} (first : before.Grows code between)
    (second : between.Grows code after) : before.Grows code after where
  frames := Nat.le_trans first.frames second.frames
  frame address name present visible := by
    rw [second.frame address name (Nat.lt_of_lt_of_le present first.frames) visible,
      first.frame address name present visible]
  arrays := Nat.le_trans first.arrays second.arrays
  elements address present := by
    rw [second.elements address (Nat.lt_of_lt_of_le present first.arrays),
      first.elements address present]
  objects := Nat.le_trans first.objects second.objects
  object address present := by
    rw [second.object address (Nat.lt_of_lt_of_le present first.objects),
      first.object address present]
  closures address closure found := second.closures _ _ (first.closures _ _ found)
  checkers address name binding present checker bound := by
    have between := Nat.lt_of_lt_of_le present first.frames
    rcases second.checkers address name binding between checker bound with early | transparent
    · rcases first.checkers address name binding present checker early with earlier | transparent
      · exact .inl earlier
      · exact .inr (transparent.mono second.closures)
    · exact .inr transparent

/-- Stores correspond as before when the first one has grown. -/
theorem Matches.grows
    (given : Matches code pairing left right) (grown : left.Grows code left') :
    Matches code pairing left' right where
  frames := given.frames
  arrays := given.arrays
  objects := given.objects
  closures := given.closures
  frame pair member := by
    have known := given.frame pair member
    refine ⟨Nat.lt_of_lt_of_le known.inLeft grown.frames, known.inRight, fun name visible => ?_⟩
    rw [grown.frame _ name known.inLeft visible]
    exact known.bindings name visible
  array pair member := by
    have known := given.array pair member
    exact known.mono (.refl pairing) (grown.elements _ known.inLeft) grown.arrays rfl
      (Nat.le_refl _)
  object pair member := by
    have known := given.object pair member
    exact known.mono (.refl pairing) (grown.object _ known.inLeft) grown.objects rfl
      (Nat.le_refl _)
  closure pair member :=
    (given.closure pair member).mono (.refl pairing) grown.closures (.of_same rfl)
  checkers pair member name binding checker bound := by
    have present := (given.frame pair member).inLeft
    rcases grown.checkers pair.1 name binding present checker bound with before | transparent
    · exact (given.checkers pair member name binding checker before).mono grown.closures
    · exact transparent

theorem grows_addArray (store : Store) (elements : Array Value) :
    store.Grows code (store.addArray elements).2 where
  frames := Nat.le_refl _
  frame _ _ _ _ := rfl
  arrays := by simp [addArray]
  elements address present := elements_addArray_of_lt store present elements
  objects := Nat.le_refl _
  object _ _ := rfl
  closures _ _ found := found
  checkers _ _ _ _ _ bound := .inl bound

theorem grows_addObject (store : Store) (object : Object) :
    store.Grows code (store.addObject object).2 where
  frames := Nat.le_refl _
  frame _ _ _ _ := rfl
  arrays := Nat.le_refl _
  elements _ _ := rfl
  objects := by simp [addObject]
  object address present := object_addObject_of_lt store present object
  closures _ _ found := found
  checkers _ _ _ _ _ bound := .inl bound

theorem grows_addClosure (store : Store) (closure : Closure) :
    store.Grows code (store.addClosure closure).2 where
  frames := Nat.le_refl _
  frame _ _ _ _ := rfl
  arrays := Nat.le_refl _
  elements _ _ := rfl
  objects := Nat.le_refl _
  object _ _ := rfl
  closures := keepsClosures_addClosure store closure
  checkers _ _ _ _ _ bound := .inl bound

theorem grows_addFrame (store : Store) (added : Frame) :
    store.Grows code (store.addFrame added).2 where
  frames := by
    rw [size_addFrame]
    exact Nat.le_succ _
  frame address name present _ := by rw [frame_addFrame_of_lt _ present]
  arrays := Nat.le_refl _
  elements _ _ := rfl
  objects := Nat.le_refl _
  object _ _ := rfl
  closures _ _ found := found
  checkers address name binding present _ bound := by
    rw [frame_addFrame_of_lt _ present] at bound
    exact .inl bound

/-- A name that only the first program knows can be bound. -/
theorem grows_putBinding
    (store : Store) {address : FrameAddress} {name : String} (hidden : ¬ code.visible name)
    {binding : Binding} (fits : code.checker name → store.Transparent binding.value) :
    store.Grows code (store.putBinding address name binding) where
  frames := by rw [size_putBinding]
  frame other name' present visible := by
    by_cases same : other = address
    · subst same
      rw [frame_putBinding _ present, Entries.lookup_put,
        if_neg fun written : name' = name => hidden (written ▸ visible)]
    · rw [frame_putBinding_of_ne _ same]
  arrays := Nat.le_refl _
  elements _ _ := rfl
  objects := Nat.le_refl _
  object _ _ := rfl
  closures _ _ found := found
  checkers other name' value present checker bound := by
    by_cases same : other = address
    · subst same
      rw [frame_putBinding _ present, Entries.lookup_put] at bound
      by_cases written : name' = name
      · subst written
        rw [if_pos rfl] at bound
        cases bound
        exact .inr ((fits checker).mono (.of_same rfl))
      · rw [if_neg written] at bound
        exact .inl bound
    · rw [frame_putBinding_of_ne _ same] at bound
      exact .inl bound

end Store

end Covenant.Machine
