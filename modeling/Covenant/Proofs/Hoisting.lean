import Covenant.Proofs.Enforcement
import Covenant.Proofs.Performance

/-!
# Functions that are bound before statements run

Before the first statement of a list runs, the functions that are declared in
the list are bound in the innermost frame, one after the other, so that of
several functions with one name the last stays.  When control comes to a
declaration nothing is left to do.

Only the statements of the list itself count.  A declaration under a label is
passed over, so that its function is never bound unless the label is dropped.
-/

namespace Covenant.Machine

/-! ## Declarations in a list -/

/-- The function that a statement declares under a name. -/
def declared? (name : String) : Statement → Option Function
  | .declare function => if function.name = some name then some function else none
  | _ => none

/-- The last function that some statements declare under a name. -/
def lastDeclared? (name : String) (statements : List Statement) : Option Function :=
  statements.reverse.findSome? (declared? name)

theorem lastDeclared?_concat (name : String) (before : List Statement) (last : Statement) :
    lastDeclared? name (before ++ [last]) =
      (declared? name last).or (lastDeclared? name before) := by
  rw [lastDeclared?, List.reverse_append, List.reverse_singleton, List.singleton_append,
    List.findSome?_cons]
  cases declared? name last <;> rfl

theorem declared?_eq_some {name : String} {statement : Statement} {function : Function} :
    declared? name statement = some function ↔
      statement = .declare function ∧ function.name = some name := by
  cases statement with
  | declare written =>
      rw [declared?, Option.ite_none_right_eq_some, Option.some_inj, Statement.declare.injEq]
      constructor
      · rintro ⟨named, rfl⟩
        exact ⟨rfl, named⟩
      · rintro ⟨rfl, named⟩
        exact ⟨named, rfl⟩
  | _ => simp [declared?]

/-- A function that is declared in a list is the last one of its name, or another one is. -/
theorem lastDeclared?_of_mem {name : String} {statements : List Statement} {function : Function}
    (member : .declare function ∈ statements) (named : function.name = some name) :
    (lastDeclared? name statements).isSome := by
  rw [lastDeclared?, List.findSome?_isSome_iff]
  exact ⟨_, List.mem_reverse.mpr member, by
    rw [declared?_eq_some.mpr ⟨rfl, named⟩]
    rfl⟩

/-! ## Binding the functions of a list -/

/-- A store in which a closure of a function has been made and bound in a frame. -/
def Store.bindFunction (store : Store) (address : FrameAddress) (outer : Scope) (name : String)
    (function : Function) : Store :=
  (store.addClosure ⟨function, address :: outer⟩).2.putBinding address name
    ⟨.closure ⟨store.closures.size⟩, true⟩

/-- The functions of some statements are bound in a frame, and nothing else has changed. -/
structure Hoisted (address : FrameAddress) (outer : Scope) (statements : List Statement)
    (before after : Store) : Prop where
  /-- A name is bound to a closure of the last function that is declared under it. -/
  declared {name : String} {function : Function} :
    lastDeclared? name statements = some function →
      ∃ closure, (after.frame address).lookup name = some ⟨.closure closure, true⟩ ∧
        after.closure? closure = some ⟨function, address :: outer⟩
  /-- A name under which none is declared means what it meant. -/
  undeclared {name : String} :
    lastDeclared? name statements = none →
      (after.frame address).lookup name = (before.frame address).lookup name
  elsewhere {other : FrameAddress} : other ≠ address → after.frame other = before.frame other
  closures {closure : ClosureAddress} {found : Closure} :
    before.closure? closure = some found → after.closure? closure = some found
  size : after.frames.size = before.frames.size
  arrays : after.arrays = before.arrays
  objects : after.objects = before.objects

namespace Hoisted

variable {address : FrameAddress} {outer : Scope} {statements : List Statement}
  {statement : Statement} {before between : Store}

theorem nil (store : Store) : Hoisted address outer [] store store where
  declared absurd := by cases absurd
  undeclared _ := rfl
  elsewhere _ := rfl
  closures found := found
  size := rfl
  arrays := rfl
  objects := rfl

/-- A statement that declares no function under a name leaves the store as it is. -/
theorem skip (hoisted : Hoisted address outer statements before between)
    (nothing : ∀ name, declared? name statement = none) :
    Hoisted address outer (statements ++ [statement]) before between where
  declared last := by
    rw [lastDeclared?_concat, nothing, Option.none_or] at last
    exact hoisted.declared last
  undeclared absent := by
    rw [lastDeclared?_concat, nothing, Option.none_or] at absent
    exact hoisted.undeclared absent
  elsewhere := hoisted.elsewhere
  closures := hoisted.closures
  size := hoisted.size
  arrays := hoisted.arrays
  objects := hoisted.objects

/-- One more function is bound, in place of an earlier one of the same name. -/
theorem bind {name : String} {function : Function}
    (hoisted : Hoisted address outer statements before between)
    (present : address.index < before.frames.size) (named : function.name = some name) :
    Hoisted address outer (statements ++ [.declare function]) before
      (between.bindFunction address outer name function) := by
  have there : address.index < (between.addClosure ⟨function, address :: outer⟩).2.frames.size :=
    Nat.lt_of_lt_of_eq present hoisted.size.symm
  have frame : (between.bindFunction address outer name function).frame address =
      Entries.put name ⟨.closure ⟨between.closures.size⟩, true⟩ (between.frame address) :=
    Store.frame_putBinding _ there _ _
  refine ⟨fun {wanted found} last => ?_, fun {wanted} absent => ?_, fun apart => ?_,
    fun found => ?_, ?_, hoisted.arrays, hoisted.objects⟩
  · rw [frame, Entries.lookup_put]
    by_cases same : wanted = name
    · subst same
      rw [lastDeclared?_concat, declared?_eq_some.mpr ⟨rfl, named⟩, Option.some_or] at last
      cases last
      exact ⟨_, if_pos rfl, Store.closure?_addClosure between _⟩
    · rw [lastDeclared?_concat, declared?, named,
        if_neg fun equal => same (Option.some_inj.mp equal).symm, Option.none_or] at last
      obtain ⟨closure, bound, made⟩ := hoisted.declared last
      exact ⟨closure, (if_neg same).trans bound, Store.closure?_addClosure_of_some made _⟩
  · rw [lastDeclared?_concat, Option.or_eq_none_iff, declared?, named] at absent
    have apart : wanted ≠ name := by
      rintro rfl
      simp at absent
    rw [frame, Entries.lookup_put, if_neg apart]
    exact hoisted.undeclared absent.2
  · exact (Store.frame_putBinding_of_ne _ apart _ _).trans (hoisted.elsewhere apart)
  · exact Store.closure?_addClosure_of_some (hoisted.closures found) _
  · exact (Store.size_putBinding _ _ _ _).trans hoisted.size

end Hoisted

section

variable {address : FrameAddress} {outer : Scope} {machine : Machine}

theorem hoist_declare {name : String} {function : Function} (named : function.name = some name) :
    hoist (address :: outer) [.declare function] machine =
      .ok () { machine with store := machine.store.bindFunction address outer name function } := by
  simp only [hoist, List.forM, named]
  rfl

/-- Statements other than declarations of functions with a name need no preparation. -/
theorem hoist_of_undeclared {statement : Statement}
    (nothing : ∀ name, declared? name statement = none) :
    hoist (address :: outer) [statement] machine = .ok () machine := by
  cases statement with
  | declare function =>
      cases named : function.name with
      | none =>
          simp only [hoist, List.forM, named]
          rfl
      | some name => cases (nothing name).symm.trans (declared?_eq_some.mpr ⟨rfl, named⟩)
  | _ => rfl

/-- Binding the functions of a list never fails, whatever the list consists of. -/
theorem hoist_binds (outer : Scope) (present : address.index < machine.store.frames.size)
    (statements : List Statement) :
    ∃ store, hoist (address :: outer) statements machine =
        .ok () { machine with store := store } ∧
      Hoisted address outer statements machine.store store := by
  induction statements using List.reverseRecOn with
  | nil => exact ⟨machine.store, rfl, .nil _⟩
  | append_singleton statements last induction =>
      obtain ⟨between, outcome, hoisted⟩ := induction
      rw [hoist_append, Action.bind_of_ok outcome]
      by_cases declares : ∃ name function, declared? name last = some function
      · obtain ⟨name, function, declares⟩ := declares
        obtain ⟨rfl, named⟩ := declared?_eq_some.mp declares
        exact ⟨_, hoist_declare named, hoisted.bind present named⟩
      · have nothing (name : String) : declared? name last = none :=
          Option.eq_none_iff_forall_ne_some.mpr fun function found =>
            declares ⟨name, function, found⟩
        exact ⟨between, hoist_of_undeclared nothing, hoisted.skip nothing⟩

end

/-! ## Statements that run after that -/

/-- A frame that binds a name still binds it after any binding has been written. -/
theorem Store.isSome_lookup_putBinding {store : Store} {address written : FrameAddress}
    {name key : String} {binding : Binding}
    (bound : ((store.frame address).lookup name).isSome) :
    (((store.putBinding written key binding).frame address).lookup name).isSome := by
  by_cases same : address = written
  · subst same
    by_cases present : address.index < store.frames.size
    · rw [frame_putBinding store present, Entries.lookup_put]
      split
      · rfl
      · exact bound
    · simp [frame, present] at bound
  · rwa [frame_putBinding_of_ne store same]

/-- Whatever code runs, a frame goes on to bind a name. -/
def binding (address : FrameAddress) (name : String) : Regime where
  holds store := address.index < store.frames.size ∧ ((store.frame address).lookup name).isSome
  scope _ _ := True
  may _ _ := True
  scope_mono := fun _ _ => trivial
  scope_enter := fun _ _ => trivial
  may_enter := fun _ => trivial
  closure := fun _ _ => trivial
  cells := by
    rintro store other ⟨present, bound⟩ frames _
    exact ⟨by rwa [frames], by simpa [Store.frame, frames] using bound⟩
  addFrame := by
    rintro store frame ⟨present, bound⟩
    refine ⟨?_, ?_⟩
    · rw [Store.size_addFrame]
      exact Nat.lt_succ_of_lt present
    · rwa [Store.frame_addFrame_of_lt _ present]
  addClosure := fun bound _ => bound
  declare := by
    rintro store (_ | ⟨inner, outer⟩) written binding ⟨present, bound⟩ _ _
    · exact ⟨present, bound⟩
    · exact ⟨by rwa [Store.size_declare], Store.isSome_lookup_putBinding bound⟩
  assign := by
    rintro store other scope written value ⟨present, bound⟩ _ assigned
    obtain ⟨inner, _, _, _, rfl⟩ := Store.assign_eq_ok.mp assigned
    exact ⟨by rwa [Store.size_putBinding], Store.isSome_lookup_putBinding bound⟩

section

variable {fuel : Nat} {address : FrameAddress} {outer : Scope} {statements : List Statement}
  {statement : Statement} {machine start : Machine}

/--
When control comes to a statement of a list, the functions of the whole list
have been bound, and their names are still bound in the frame of the list.
-/
theorem hoisted_of_part (present : address.index < machine.store.frames.size)
    (part : Part fuel (.executeAll (address :: outer) statements) machine
      (.execute (address :: outer) none statement) start) :
    ∃ store, hoist (address :: outer) statements machine =
        .ok () { machine with store := store } ∧
      Hoisted address outer statements machine.store store ∧
        ∀ name, (lastDeclared? name statements).isSome →
          ((start.store.frame address).lookup name).isSome := by
  obtain ⟨store, outcome, hoisted⟩ := hoist_binds outer present statements
  refine ⟨store, outcome, hoisted, fun name declares => ?_⟩
  obtain ⟨function, last⟩ := Option.isSome_iff_exists.mp declares
  obtain ⟨closure, bound, _⟩ := hoisted.declared last
  cases part with
  | @statement _ before rest _ _ _ _ prepared ran =>
      cases outcome.symm.trans prepared
      have keeps : (binding address name).Keeps (address :: outer)
          (inTurn (execute fuel (address :: outer) none) before) :=
        Regime.keeps_inTurn before fun statement _ =>
          (preserves (binding address name) fuel).execute _ none statement
            (Parts.onStatement_of_all (fun _ => trivial) (fun _ _ _ => trivial)
              (fun _ _ _ => trivial) statement)
      have holds : (binding address name).holds store :=
        ⟨Nat.lt_of_lt_of_eq present hoisted.size.symm, Option.isSome_iff_exists.mpr ⟨_, bound⟩⟩
      exact ((keeps _ _ _ holds trivial ran).1).2

/--
A declaration that control comes to in a list had its name bound beforehand, to
a closure of the last function that the list declares under it.
-/
theorem bound_of_declaration {function : Function} {name : String}
    (present : address.index < machine.store.frames.size)
    (named : function.name = some name)
    (part : Part fuel (.executeAll (address :: outer) statements) machine
      (.execute (address :: outer) none (.declare function)) start) :
    ∃ store last closure, hoist (address :: outer) statements machine =
        .ok () { machine with store := store } ∧
      lastDeclared? name statements = some last ∧
        (store.frame address).lookup name = some ⟨.closure closure, true⟩ ∧
          store.closure? closure = some ⟨last, address :: outer⟩ ∧
            ((start.store.frame address).lookup name).isSome := by
  have member : .declare function ∈ statements := by
    cases part with
    | statement => exact List.mem_append_right _ List.mem_cons_self
  have declares := lastDeclared?_of_mem member named
  obtain ⟨store, outcome, hoisted, still⟩ := hoisted_of_part present part
  obtain ⟨last, found⟩ := Option.isSome_iff_exists.mp declares
  obtain ⟨closure, bound, made⟩ := hoisted.declared found
  exact ⟨store, last, closure, outcome, found, bound, made, still name declares⟩

end

/-! ## Declarations under labels -/

/--
A function whose declaration stands under a label is not bound, and nothing else
happens either; without the label it is bound.
-/
theorem bound_without_label {function : Function} {name : String} {machine : Machine}
    {address : FrameAddress} {outer : Scope}
    (present : address.index < machine.store.frames.size) (named : function.name = some name)
    (label : String) (fuel : Nat) :
    executeAll (fuel + 3) (address :: outer) [.labeled label (.declare function)] machine =
        .ok .finished machine ∧
      ∃ store closure,
        executeAll (fuel + 2) (address :: outer)
            (Statement.labeled label (.declare function)).unlabeled machine =
          .ok .finished { machine with store := store } ∧
        (store.frame address).lookup name = some ⟨.closure closure, true⟩ ∧
          store.closure? closure = some ⟨function, address :: outer⟩ := by
  refine ⟨rfl, ?_⟩
  have last : lastDeclared? name [.declare function] = some function := by
    rw [← List.nil_append [_], lastDeclared?_concat, declared?_eq_some.mpr ⟨rfl, named⟩,
      Option.some_or]
  obtain ⟨store, outcome, hoisted⟩ := hoist_binds outer present [.declare function]
  obtain ⟨closure, bound, made⟩ := hoisted.declared last
  refine ⟨store, closure, ?_, bound, made⟩
  rw [Statement.unlabeled, executeAll, Action.bind_of_ok outcome]
  · rfl
  · rintro statements ⟨⟩

end Covenant.Machine
