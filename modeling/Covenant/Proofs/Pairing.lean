import Mathlib.Data.List.Forall2
import Mathlib.Data.Option.Basic
import Covenant.Proofs.Functions
import Covenant.Proofs.Stability

/-!
# Stores that correspond

Two runs can do the same with different addresses: one of them may make cells
that the other one does not make.  A pairing says which cells of one store
stand for which cells of the other one.  Values correspond if they are equal up
to the pairing, and stores do if paired cells have corresponding contents.

The first store may hold more than the second one.  Its paired frames may bind
further names, of which those of checkers are bound to nothing but functions
that give their argument back.
-/

namespace Covenant.Machine

/-- Which cells of one store stand for which cells of another one. -/
structure Pairing where
  frames : List (FrameAddress × FrameAddress)
  arrays : List (ArrayAddress × ArrayAddress)
  objects : List (ObjectAddress × ObjectAddress)
  closures : List (ClosureAddress × ClosureAddress)

/-- Functions that cannot be told apart without calling them, and that are entered alike. -/
structure Alike (left right : Function) : Prop where
  name : left.name = right.name
  parameters : left.parameters = right.parameters
  isArrow : left.isArrow = right.isArrow
  isAsync : left.isAsync = right.isAsync
  isGenerator : left.isGenerator = right.isGenerator

/-- How two programs correspond. -/
structure Correspondence where
  /-- A function of the second program in the place of one of the first program. -/
  function : Function → Function → Prop
  alike {left right : Function} : function left right → Alike left right
  /-- The names that both programs know. -/
  visible : String → Prop
  receiver : visible "this"
  named {left right : Function} {name : String} :
    function left right → left.name = some name → visible name
  parameter {left right : Function} {name : String} :
    function left right → name ∈ left.parameters → visible name
  /-- The names of checkers, which only the first program knows. -/
  checker : String → Prop
  apart {name : String} : checker name → ¬ visible name

namespace Pairing

/-- Addresses are paired with one address at most, in both directions. -/
def OneToOne {α : Type} (pairs : List (α × α)) : Prop :=
  ∀ first ∈ pairs, ∀ second ∈ pairs, first.1 = second.1 ↔ first.2 = second.2

/-- A pair of addresses that occur in no pair can be added. -/
theorem OneToOne.cons {α : Type} {pairs : List (α × α)} (oneToOne : OneToOne pairs)
    {left right : α} (newLeft : ∀ pair ∈ pairs, pair.1 ≠ left)
    (newRight : ∀ pair ∈ pairs, pair.2 ≠ right) :
    OneToOne ((left, right) :: pairs) := by
  intro first firstMember second secondMember
  rcases List.mem_cons.mp firstMember with rfl | firstOld
  · rcases List.mem_cons.mp secondMember with rfl | secondOld
    · exact ⟨fun _ => rfl, fun _ => rfl⟩
    · exact ⟨fun equal => (newLeft second secondOld equal.symm).elim,
        fun equal => (newRight second secondOld equal.symm).elim⟩
  · rcases List.mem_cons.mp secondMember with rfl | secondOld
    · exact ⟨fun equal => (newLeft first firstOld equal).elim,
        fun equal => (newRight first firstOld equal).elim⟩
    · exact oneToOne first firstOld second secondOld

/-- A later pairing keeps the pairs of an earlier one. -/
structure Extends (earlier later : Pairing) : Prop where
  frames : earlier.frames ⊆ later.frames
  arrays : earlier.arrays ⊆ later.arrays
  objects : earlier.objects ⊆ later.objects
  closures : earlier.closures ⊆ later.closures

theorem Extends.refl (pairing : Pairing) : pairing.Extends pairing :=
  ⟨List.Subset.refl _, List.Subset.refl _, List.Subset.refl _, List.Subset.refl _⟩

theorem Extends.trans
    {first second third : Pairing}
    (before : first.Extends second) (after : second.Extends third) :
    first.Extends third :=
  ⟨List.Subset.trans before.frames after.frames, List.Subset.trans before.arrays after.arrays,
    List.Subset.trans before.objects after.objects,
    List.Subset.trans before.closures after.closures⟩

/-- A pairing with one more pair of frames. -/
def withFrame (pairing : Pairing) (left right : FrameAddress) : Pairing :=
  { pairing with frames := (left, right) :: pairing.frames }

/-- A pairing with one more pair of arrays. -/
def withArray (pairing : Pairing) (left right : ArrayAddress) : Pairing :=
  { pairing with arrays := (left, right) :: pairing.arrays }

/-- A pairing with one more pair of objects. -/
def withObject (pairing : Pairing) (left right : ObjectAddress) : Pairing :=
  { pairing with objects := (left, right) :: pairing.objects }

/-- A pairing with one more pair of closures. -/
def withClosure (pairing : Pairing) (left right : ClosureAddress) : Pairing :=
  { pairing with closures := (left, right) :: pairing.closures }

theorem extends_withFrame (pairing : Pairing) (left right : FrameAddress) :
    pairing.Extends (pairing.withFrame left right) :=
  ⟨List.subset_cons_self _ _, List.Subset.refl _, List.Subset.refl _, List.Subset.refl _⟩

theorem extends_withArray (pairing : Pairing) (left right : ArrayAddress) :
    pairing.Extends (pairing.withArray left right) :=
  ⟨List.Subset.refl _, List.subset_cons_self _ _, List.Subset.refl _, List.Subset.refl _⟩

theorem extends_withObject (pairing : Pairing) (left right : ObjectAddress) :
    pairing.Extends (pairing.withObject left right) :=
  ⟨List.Subset.refl _, List.Subset.refl _, List.subset_cons_self _ _, List.Subset.refl _⟩

theorem extends_withClosure (pairing : Pairing) (left right : ClosureAddress) :
    pairing.Extends (pairing.withClosure left right) :=
  ⟨List.Subset.refl _, List.Subset.refl _, List.Subset.refl _, List.subset_cons_self _ _⟩

/-! ## Corresponding values -/

/-- Values that are equal up to a pairing. -/
inductive Relates (pairing : Pairing) : Value → Value → Prop where
  | primitive (literal : Literal) : Relates pairing (.primitive literal) (.primitive literal)
  | array {left right : ArrayAddress} (paired : (left, right) ∈ pairing.arrays) :
      Relates pairing (.array left) (.array right)
  | object {left right : ObjectAddress} (paired : (left, right) ∈ pairing.objects) :
      Relates pairing (.object left) (.object right)
  | closure {left right : ClosureAddress} (paired : (left, right) ∈ pairing.closures) :
      Relates pairing (.closure left) (.closure right)
  | builtin (function : Builtin) : Relates pairing (.builtin function) (.builtin function)

/-- Lists of corresponding values. -/
abbrev RelatesAll (pairing : Pairing) : List Value → List Value → Prop :=
  List.Forall₂ pairing.Relates

/-- Entries with the same keys and corresponding values. -/
def RelatesEntries (pairing : Pairing) : List (String × Value) → List (String × Value) → Prop :=
  List.Forall₂ fun left right => left.1 = right.1 ∧ pairing.Relates left.2 right.2

/-- Bindings of corresponding values that are equally assignable. -/
structure RelatesBinding (pairing : Pairing) (left right : Binding) : Prop where
  value : pairing.Relates left.value right.value
  assignable : left.assignable = right.assignable

/-- Scopes whose frames are paired one by one. -/
def RelatesScope (pairing : Pairing) : Scope → Scope → Prop :=
  List.Forall₂ fun left right => (left, right) ∈ pairing.frames

/-- Optional values that are related are related by every wider relation. -/
theorem rel_mono {α : Type} {narrow wide : α → α → Prop}
    {left right : Option α} (related : Option.Rel narrow left right)
    (wider : ∀ first second, narrow first second → wide first second) :
    Option.Rel wide left right := by
  cases related with
  | none => exact .none
  | some inner => exact .some (wider _ _ inner)

section

variable {pairing later : Pairing}

theorem Relates.mono
    {left right : Value} (related : pairing.Relates left right)
    (grows : pairing.Extends later) : later.Relates left right := by
  cases related with
  | primitive literal => exact .primitive literal
  | array paired => exact .array (grows.arrays paired)
  | object paired => exact .object (grows.objects paired)
  | closure paired => exact .closure (grows.closures paired)
  | builtin function => exact .builtin function

theorem RelatesAll.mono
    {left right : List Value} (related : pairing.RelatesAll left right)
    (grows : pairing.Extends later) : later.RelatesAll left right :=
  List.Forall₂.imp (fun _ _ inner => inner.mono grows) related

theorem RelatesEntries.mono
    {left right : List (String × Value)} (related : pairing.RelatesEntries left right)
    (grows : pairing.Extends later) : later.RelatesEntries left right :=
  List.Forall₂.imp (fun _ _ inner => ⟨inner.1, inner.2.mono grows⟩) related

theorem RelatesBinding.mono
    {left right : Binding} (related : pairing.RelatesBinding left right)
    (grows : pairing.Extends later) : later.RelatesBinding left right :=
  ⟨related.value.mono grows, related.assignable⟩

theorem RelatesScope.mono
    {left right : Scope} (related : pairing.RelatesScope left right)
    (grows : pairing.Extends later) : later.RelatesScope left right :=
  List.Forall₂.imp (fun _ _ paired => grows.frames paired) related

/-- Corresponding entries have corresponding values under each key. -/
theorem RelatesEntries.lookup
    {left right : List (String × Value)} (related : pairing.RelatesEntries left right)
    (key : String) :
    Option.Rel pairing.Relates (left.lookup key) (right.lookup key) := by
  induction related with
  | nil => exact .none
  | @cons first second rest others head _ inductionHypothesis =>
      obtain ⟨name, value⟩ := first
      obtain ⟨other, corresponding⟩ := second
      obtain ⟨rfl, related⟩ := head
      rw [List.lookup_cons, List.lookup_cons]
      cases key == name with
      | true => exact .some related
      | false => exact inductionHypothesis

/-- Writing corresponding values keeps entries corresponding. -/
theorem RelatesEntries.put
    {left right : List (String × Value)} (related : pairing.RelatesEntries left right)
    (key : String) {value corresponding : Value} (given : pairing.Relates value corresponding) :
    pairing.RelatesEntries (Entries.put key value left) (Entries.put key corresponding right) := by
  induction related with
  | nil => exact .cons ⟨rfl, given⟩ .nil
  | @cons first second rest others head tail inductionHypothesis =>
      obtain ⟨name, old⟩ := first
      obtain ⟨other, older⟩ := second
      obtain ⟨rfl, olds⟩ := head
      rw [Entries.put, Entries.put]
      by_cases same : name = key
      · rw [if_pos same, if_pos same]
        exact .cons ⟨rfl, given⟩ tail
      · rw [if_neg same, if_neg same]
        exact .cons ⟨rfl, olds⟩ inductionHypothesis

/-- Inserting corresponding values keeps entries corresponding. -/
theorem RelatesEntries.insert
    {left right : List (String × Value)} (related : pairing.RelatesEntries left right)
    (key : String) {value corresponding : Value} (given : pairing.Relates value corresponding) :
    pairing.RelatesEntries (Entries.insert key value left)
      (Entries.insert key corresponding right) := by
  induction related with
  | nil => exact .cons ⟨rfl, given⟩ .nil
  | @cons first second rest others head tail inductionHypothesis =>
      obtain ⟨name, old⟩ := first
      obtain ⟨other, older⟩ := second
      obtain ⟨rfl, olds⟩ := head
      rw [Entries.insert, Entries.insert]
      split
      · exact .cons ⟨rfl, given⟩ tail
      · split
        · exact .cons ⟨rfl, given⟩ (.cons ⟨rfl, olds⟩ tail)
        · exact .cons ⟨rfl, olds⟩ inductionHypothesis

/-- Entries that are added one after the other correspond if they do one by one. -/
theorem RelatesEntries.foldl
    (add : String → Value → List (String × Value) → List (String × Value))
    (keeps : ∀ {table other key value corresponding}, pairing.RelatesEntries table other →
      pairing.Relates value corresponding →
        pairing.RelatesEntries (add key value table) (add key corresponding other))
    {left right : List (String × Value)} (related : pairing.RelatesEntries left right) :
    ∀ {table other}, pairing.RelatesEntries table other →
      pairing.RelatesEntries (left.foldl (fun table entry => add entry.1 entry.2 table) table)
        (right.foldl (fun table entry => add entry.1 entry.2 table) other) := by
  induction related with
  | nil => exact id
  | @cons first second rest others head _ inductionHypothesis =>
      intro table other tables
      obtain ⟨same, values⟩ := head
      rw [List.foldl_cons, List.foldl_cons, same]
      exact inductionHypothesis (keeps tables values)

theorem RelatesEntries.ofList
    {left right : List (String × Value)} (related : pairing.RelatesEntries left right) :
    pairing.RelatesEntries (Entries.ofList left) (Entries.ofList right) :=
  foldl Entries.put (fun tables values => tables.put _ values) related .nil

theorem RelatesEntries.sort
    {left right : List (String × Value)} (related : pairing.RelatesEntries left right) :
    pairing.RelatesEntries (Entries.sort left) (Entries.sort right) :=
  foldl Entries.insert (fun tables values => tables.insert _ values) related .nil

end

end Pairing

/-! ## Corresponding stores -/

namespace Store

open Contract in
/-- A function that runs guards without calls and gives its argument back. -/
def Transparent (store : Store) (value : Value) : Prop :=
  ∃ address closure, ∃ checker : Checker, ∃ parameter,
    value = .closure address ∧ store.closure? address = some closure ∧
      closure.function = checker.function parameter ∧
        ∀ guard ∈ checker.guards, IsPlainGuard false guard

/-- A frame of one store stands for one of another store. -/
structure MatchesFrame (code : Correspondence) (pairing : Pairing) (left right : Store)
    (pair : FrameAddress × FrameAddress) : Prop where
  inLeft : pair.1.index < left.frames.size
  inRight : pair.2.index < right.frames.size
  bindings (name : String) : code.visible name →
    Option.Rel pairing.RelatesBinding ((left.frame pair.1).lookup name)
      ((right.frame pair.2).lookup name)

/-- An array of one store stands for one of another store. -/
structure MatchesArray (pairing : Pairing) (left right : Store)
    (pair : ArrayAddress × ArrayAddress) : Prop where
  inLeft : pair.1.index < left.arrays.size
  inRight : pair.2.index < right.arrays.size
  elements : pairing.RelatesAll (left.elements pair.1).toList (right.elements pair.2).toList

/-- An object of one store stands for one of another store. -/
structure MatchesObject (pairing : Pairing) (left right : Store)
    (pair : ObjectAddress × ObjectAddress) : Prop where
  inLeft : pair.1.index < left.objects.size
  inRight : pair.2.index < right.objects.size
  kind : (left.object pair.1).kind = (right.object pair.2).kind
  properties :
    pairing.RelatesEntries (left.object pair.1).properties (right.object pair.2).properties

/-- A closure of one store stands for one of another store. -/
def MatchesClosure (code : Correspondence) (pairing : Pairing) (left right : Store)
    (pair : ClosureAddress × ClosureAddress) : Prop :=
  ∃ closure corresponding,
    left.closure? pair.1 = some closure ∧ right.closure? pair.2 = some corresponding ∧
      code.function closure.function corresponding.function ∧
        pairing.RelatesScope closure.scope corresponding.scope

/-- Paired cells of two stores have corresponding contents. -/
structure Matches (code : Correspondence) (pairing : Pairing) (left right : Store) : Prop where
  frames : Pairing.OneToOne pairing.frames
  arrays : Pairing.OneToOne pairing.arrays
  objects : Pairing.OneToOne pairing.objects
  closures : Pairing.OneToOne pairing.closures
  frame : ∀ pair ∈ pairing.frames, MatchesFrame code pairing left right pair
  array : ∀ pair ∈ pairing.arrays, MatchesArray pairing left right pair
  object : ∀ pair ∈ pairing.objects, MatchesObject pairing left right pair
  closure : ∀ pair ∈ pairing.closures, MatchesClosure code pairing left right pair
  checkers : ∀ pair ∈ pairing.frames, ∀ name binding, code.checker name →
    (left.frame pair.1).lookup name = some binding → left.Transparent binding.value

end Store

end Covenant.Machine
