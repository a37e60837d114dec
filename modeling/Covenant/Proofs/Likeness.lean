import Mathlib.Data.List.Perm.Subperm
import Covenant.Machine.Session
import Covenant.Proofs.Matching

/-!
# Corresponding values are alike

In stores that correspond, corresponding values have the same texts, convert
to the same primitives and the same interchange values, compare alike and have
corresponding properties, and writing to them keeps the stores corresponding.

Values are followed to a depth that depends on the size of a store.  As no
value is followed into itself, the depth is never used up, so it makes no
difference that one of the stores holds more.
-/

namespace Covenant.Machine

/-! ## Depth -/

namespace Store

/-- A value is an array or an object of a store. -/
inductive Holds (store : Store) : Value → Prop where
  | array {address : ArrayAddress} (present : address.index < store.arrays.size) :
      Holds store (.array address)
  | object {address : ObjectAddress} (present : address.index < store.objects.size) :
      Holds store (.object address)

/-- The arrays and objects of a store. -/
def containers (store : Store) : List Value :=
  (List.range store.arrays.size).map (fun index => .array ⟨index⟩) ++
    (List.range store.objects.size).map (fun index => .object ⟨index⟩)

theorem length_containers (store : Store) : store.containers.length = store.depthBound := by
  simp [containers, depthBound]

theorem Holds.mem_containers {store : Store} {value : Value} (held : store.Holds value) :
    value ∈ store.containers := by
  cases held with
  | @array address present =>
      refine List.mem_append_left _ (List.mem_map.mpr ⟨address.index, ?_, rfl⟩)
      exact List.mem_range.mpr present
  | @object address present =>
      refine List.mem_append_right _ (List.mem_map.mpr ⟨address.index, ?_, rfl⟩)
      exact List.mem_range.mpr present

/--
There is room for following a value that is contained in some others: those are
distinct, and the depth that is left is enough for all containers beside them.
-/
structure Room (store : Store) (depth : Nat) (outer : List Value) : Prop where
  distinct : outer.Nodup
  held : ∀ value ∈ outer, store.Holds value
  enough : store.depthBound ≤ depth + outer.length

theorem Room.start (store : Store) : store.Room store.depthBound [] where
  distinct := List.nodup_nil
  held _ member := by cases member
  enough := Nat.le_add_right _ _

/-- Where a container is entered that contains none of the others there is depth left. -/
theorem Room.exists_succ
    {store : Store} {depth : Nat} {outer : List Value} {value : Value}
    (room : store.Room depth outer) (held : store.Holds value) (new : value ∉ outer) :
    ∃ less, depth = less + 1 ∧ store.Room less (value :: outer) := by
  have distinct : (value :: outer).Nodup := List.nodup_cons.mpr ⟨new, room.distinct⟩
  have allHeld : ∀ other ∈ value :: outer, store.Holds other := by
    intro other member
    rcases List.mem_cons.mp member with rfl | old
    · exact held
    · exact room.held other old
  have within : value :: outer ⊆ store.containers :=
    fun other member => (allHeld other member).mem_containers
  have short := (List.subperm_of_subset distinct within).length_le
  rw [length_containers, List.length_cons] at short
  have enough := room.enough
  refine ⟨depth - 1, by omega, distinct, allHeld, ?_⟩
  rw [List.length_cons]
  omega

end Store

variable {code : Correspondence} {pairing : Pairing} {left right : Store}

/-! ## Values by themselves -/

namespace Pairing.Relates

variable {value corresponding : Value} (related : pairing.Relates value corresponding)

include related

theorem isNullish_eq : value.isNullish = corresponding.isNullish := by
  cases related <;> rfl

theorem isTruthy_eq : value.isTruthy = corresponding.isTruthy := by
  cases related <;> rfl

theorem shortCircuits_eq (operator : LogicalOperator) :
    shortCircuits operator value = shortCircuits operator corresponding := by
  cases related <;> cases operator <;> rfl

theorem isCallable_eq : value.isCallable = corresponding.isCallable := by
  cases related <;> rfl

theorem typeName_eq : value.typeName = corresponding.typeName := by
  cases related <;> rfl

end Pairing.Relates

namespace Store.Matches

variable (given : Matches code pairing left right)

include given

/-- Values are equal just if the values that correspond to them are. -/
theorem eq_iff
    {first second first' second' : Value}
    (one : pairing.Relates first first') (two : pairing.Relates second second') :
    first = second ↔ first' = second' := by
  cases one with
  | primitive literal => cases two <;> simp
  | builtin function => cases two <;> simp
  | array paired =>
      cases two with
      | array other => simpa using given.arrays _ paired _ other
      | _ => simp
  | object paired =>
      cases two with
      | object other => simpa using given.objects _ paired _ other
      | _ => simp
  | closure paired =>
      cases two with
      | closure other => simpa using given.closures _ paired _ other
      | _ => simp

/-- A value is among some values just if the value that corresponds to it is among theirs. -/
theorem mem_iff
    {values others : List Value} (all : pairing.RelatesAll values others)
    {value corresponding : Value} (related : pairing.Relates value corresponding) :
    value ∈ values ↔ corresponding ∈ others := by
  induction all with
  | nil => simp
  | cons head _ inductionHypothesis =>
      rw [List.mem_cons, List.mem_cons, inductionHypothesis, given.eq_iff related head]

theorem strictEquals_eq
    {first second first' second' : Value}
    (one : pairing.Relates first first') (two : pairing.Relates second second') :
    first.strictEquals second = first'.strictEquals second' := by
  have same := given.eq_iff one two
  cases one with
  | primitive literal => cases two <;> rfl
  | builtin function => cases two <;> rfl
  | array paired =>
      cases two with
      | array other =>
          rw [Bool.eq_iff_iff]
          simpa [Value.strictEquals] using same
      | _ => rfl
  | object paired =>
      cases two with
      | object other =>
          rw [Bool.eq_iff_iff]
          simpa [Value.strictEquals] using same
      | _ => rfl
  | closure paired =>
      cases two with
      | closure other =>
          rw [Bool.eq_iff_iff]
          simpa [Value.strictEquals] using same
      | _ => rfl

/-- What corresponds to an array or an object is one. -/
theorem holds
    {value corresponding : Value} (related : pairing.Relates value corresponding)
    (held : left.Holds value) : right.Holds corresponding := by
  cases related with
  | array paired => exact .array (given.array _ paired).inRight
  | object paired => exact .object (given.object _ paired).inRight
  | _ => cases held

end Store.Matches

/-! ## Texts -/

theorem map_eq_of_forall₂ {α β γ : Type} {related : α → β → Prop} {first : α → γ} {second : β → γ}
    {values : List α} {others : List β} (all : List.Forall₂ related values others)
    (same : ∀ value other, related value other → first value = second other) :
    values.map first = others.map second := by
  induction all with
  | nil => rfl
  | cons head _ inductionHypothesis =>
      rw [List.map_cons, List.map_cons, same _ _ head, inductionHypothesis]

theorem any_eq_of_forall₂ {α β : Type} {related : α → β → Prop} {first : α → Bool}
    {second : β → Bool} {values : List α} {others : List β}
    (all : List.Forall₂ related values others)
    (same : ∀ value other, related value other → first value = second other) :
    values.any first = others.any second := by
  induction all with
  | nil => rfl
  | cons head _ inductionHypothesis =>
      rw [List.any_cons, List.any_cons, same _ _ head, inductionHypothesis]

namespace Value

theorem textWithin_of_mem
    {store : Store} {outer : List Value} {value : Value} (held : store.Holds value)
    (depth : Nat) (member : value ∈ outer) : value.textWithin store depth outer = "" := by
  cases held <;> cases depth <;> simp [textWithin, member]

theorem isWrittenWithin_of_mem
    {store : Store} {target : ArrayAddress} {outer : List Value} {value : Value}
    (held : store.Holds value) (depth : Nat) (member : value ∈ outer) :
    value.isWrittenWithin store target depth outer = false := by
  cases held <;> cases depth <;> simp [isWrittenWithin, member]

theorem toJsonWithin_of_mem
    {store : Store} {outer : List Value} {value : Value} (held : store.Holds value)
    (depth : Nat) (member : value ∈ outer) : value.toJsonWithin store depth outer = .null := by
  cases held <;> cases depth <;> simp [toJsonWithin, member]

end Value

namespace Store.Matches

variable (given : Matches code pairing left right)

include given

/-- The names of corresponding closures. -/
theorem closureName_eq
    {address other : ClosureAddress} (paired : (address, other) ∈ pairing.closures) :
    ((left.closure? address).bind fun closure => closure.function.name) =
      (right.closure? other).bind fun closure => closure.function.name := by
  obtain ⟨closure, corresponding, found, present, same, _⟩ := given.closure _ paired
  rw [found, present]
  exact (code.alike same).name

/--
What two functions make of corresponding values is the same, wherever there is
room for following the values, if it is the same of values that are neither
arrays nor objects, of values that are met again inside themselves, and of a
value whenever it is the same of all values in it.
-/
theorem follow_eq
    {α : Type} {first second : Nat → List Value → Value → α}
    (leaf : ∀ depth less outer others {value corresponding},
      pairing.Relates value corresponding → ¬ left.Holds value →
        first depth outer value = second less others corresponding)
    (again : ∀ depth less {outer others value corresponding},
      left.Holds value → right.Holds corresponding → value ∈ outer → corresponding ∈ others →
        first depth outer value = second less others corresponding)
    (inside : ∀ depth less {outer others value corresponding},
      pairing.Relates value corresponding → left.Holds value → value ∉ outer →
        corresponding ∉ others →
          (∀ {inner other}, pairing.Relates inner other →
            first depth (value :: outer) inner = second less (corresponding :: others) other) →
            first (depth + 1) outer value = second (less + 1) others corresponding)
    (depth : Nat) :
    ∀ {less : Nat} {outer others : List Value} {value corresponding : Value},
      left.Room depth outer → right.Room less others → pairing.RelatesAll outer others →
        pairing.Relates value corresponding →
          first depth outer value = second less others corresponding := by
  induction depth with
  | zero =>
      intro less outer others value corresponding room space all related
      by_cases held : left.Holds value
      · have inRight := given.holds related held
        by_cases member : value ∈ outer
        · exact again 0 less held inRight member ((given.mem_iff all related).mp member)
        · obtain ⟨_, absurd, _⟩ := room.exists_succ held member
          cases absurd
      · exact leaf 0 less outer others related held
  | succ depth inductionHypothesis =>
      intro less outer others value corresponding room space all related
      by_cases held : left.Holds value
      · have inRight := given.holds related held
        have together := given.mem_iff all related
        by_cases member : value ∈ outer
        · exact again _ less held inRight member (together.mp member)
        · obtain ⟨_, equal, roomInside⟩ := room.exists_succ held member
          cases equal
          obtain ⟨fewer, rfl, spaceInside⟩ :=
            space.exists_succ inRight fun absurd => member (together.mpr absurd)
          refine inside depth fewer related held member
            (fun absurd => member (together.mpr absurd)) fun related' => ?_
          exact inductionHypothesis roomInside spaceInside (.cons related all) related'
      · exact leaf _ less outer others related held

/-- Corresponding values have the same text. -/
theorem toText_eq {value corresponding : Value} (related : pairing.Relates value corresponding) :
    value.toText left = corresponding.toText right := by
  refine given.follow_eq
    (fun depth less outer others value corresponding related free => ?_)
    (fun depth less outer others value corresponding inLeft inRight member among => ?_)
    (fun depth less outer others value corresponding related held new fresh same => ?_)
    left.depthBound (.start left) (.start right) .nil related
  · cases related with
    | primitive literal => cases depth <;> cases less <;> rfl
    | builtin function => cases depth <;> cases less <;> rfl
    | closure paired =>
        have names := given.closureName_eq paired
        cases depth <;> cases less <;> simp only [Value.textWithin, names]
    | array paired => exact (free (.array (given.array _ paired).inLeft)).elim
    | object paired => exact (free (.object (given.object _ paired).inLeft)).elim
  · rw [Value.textWithin_of_mem inLeft _ member, Value.textWithin_of_mem inRight _ among]
  · cases related with
    | array paired =>
        have elements := (given.array _ paired).elements
        simp only [Value.textWithin, List.contains_iff_mem, new, fresh, if_false]
        refine congrArg _ (map_eq_of_forall₂ elements fun element other inner => ?_)
        rw [inner.isNullish_eq, same inner]
    | object paired =>
        have object := given.object _ paired
        simp only [Value.textWithin, List.contains_iff_mem, new, fresh, if_false, object.kind]
        cases (right.object _).kind with
        | plain => rfl
        | error =>
            have message := object.properties.lookup "message"
            revert message
            cases (left.object _).properties.lookup "message" <;>
              cases (right.object _).properties.lookup "message" <;> intro message <;>
                cases message
            · rfl
            · next inner => simp only [same inner]
    | _ => cases held

/-- The text of corresponding values contains that of corresponding arrays, or not. -/
theorem isWrittenWith_eq
    {address other : ArrayAddress} (target : (address, other) ∈ pairing.arrays)
    {value corresponding : Value} (related : pairing.Relates value corresponding) :
    value.isWrittenWith left address = corresponding.isWrittenWith right other := by
  refine given.follow_eq
    (fun depth less outer others value corresponding related free => ?_)
    (fun depth less outer others value corresponding inLeft inRight member among => ?_)
    (fun depth less outer others value corresponding related held new fresh same => ?_)
    left.depthBound (.start left) (.start right) .nil related
  · cases related with
    | primitive literal => cases depth <;> cases less <;> rfl
    | builtin function => cases depth <;> cases less <;> rfl
    | closure paired => cases depth <;> cases less <;> rfl
    | array paired => exact (free (.array (given.array _ paired).inLeft)).elim
    | object paired => exact (free (.object (given.object _ paired).inLeft)).elim
  · rw [Value.isWrittenWithin_of_mem inLeft _ member,
      Value.isWrittenWithin_of_mem inRight _ among]
  · cases related with
    | @array found present paired =>
        have elements := (given.array _ paired).elements
        have identity : (found == address) = (present == other) := by
          rw [Bool.eq_iff_iff, beq_iff_eq, beq_iff_eq]
          exact given.arrays _ paired _ target
        simp only [Value.isWrittenWithin, List.contains_iff_mem, new, fresh, if_false, identity]
        exact congrArg _ (any_eq_of_forall₂ elements fun element other inner => same inner)
    | object paired =>
        have object := given.object _ paired
        simp only [Value.isWrittenWithin, List.contains_iff_mem, new, fresh, if_false, object.kind]
        cases (right.object _).kind with
        | plain => rfl
        | error =>
            have message := object.properties.lookup "message"
            revert message
            cases (left.object _).properties.lookup "message" <;>
              cases (right.object _).properties.lookup "message" <;> intro message <;>
                cases message
            · rfl
            · next inner => simp only [same inner]
    | _ => cases held

/-- Corresponding values are the same interchange value. -/
theorem toJson_eq {value corresponding : Value} (related : pairing.Relates value corresponding) :
    value.toJson left = corresponding.toJson right := by
  refine given.follow_eq
    (fun depth less outer others value corresponding related free => ?_)
    (fun depth less outer others value corresponding inLeft inRight member among => ?_)
    (fun depth less outer others value corresponding related held new fresh same => ?_)
    left.depthBound (.start left) (.start right) .nil related
  · cases related with
    | primitive literal => cases depth <;> cases less <;> rfl
    | builtin function => cases depth <;> cases less <;> rfl
    | closure paired => cases depth <;> cases less <;> rfl
    | array paired => exact (free (.array (given.array _ paired).inLeft)).elim
    | object paired => exact (free (.object (given.object _ paired).inLeft)).elim
  · rw [Value.toJsonWithin_of_mem inLeft _ member, Value.toJsonWithin_of_mem inRight _ among]
  · cases related with
    | array paired =>
        have elements := (given.array _ paired).elements
        simp only [Value.toJsonWithin, List.contains_iff_mem, new, fresh, if_false]
        exact congrArg _ (map_eq_of_forall₂ elements fun element other inner => same inner)
    | object paired =>
        have properties := (given.object _ paired).properties
        simp only [Value.toJsonWithin, List.contains_iff_mem, new, fresh, if_false]
        refine congrArg (fun entries => Json.object (Entries.sort entries))
          (map_eq_of_forall₂ properties fun entry other inner => ?_)
        rw [inner.1, same inner.2]
    | _ => cases held

/-! ## Conversions -/

theorem toPrimitive_eq
    {value corresponding : Value} (related : pairing.Relates value corresponding) :
    value.toPrimitive left = corresponding.toPrimitive right := by
  have text := given.toText_eq related
  cases related with
  | primitive literal => rfl
  | _ => simp only [Value.toPrimitive, text]

theorem toNumber_eq
    {value corresponding : Value} (related : pairing.Relates value corresponding) :
    value.toNumber left = corresponding.toNumber right := by
  rw [Value.toNumber, Value.toNumber, given.toPrimitive_eq related]

theorem toKey_eq {value corresponding : Value} (related : pairing.Relates value corresponding) :
    value.toKey left = corresponding.toKey right := by
  rw [Value.toKey, Value.toKey, given.toPrimitive_eq related]

theorem isError_eq {value corresponding : Value} (related : pairing.Relates value corresponding) :
    value.isError left = corresponding.isError right := by
  cases related with
  | object paired => rw [Value.isError, Value.isError, (given.object _ paired).kind]
  | _ => rfl

theorem looseEquals_eq
    {first second first' second' : Value}
    (one : pairing.Relates first first') (two : pairing.Relates second second') :
    first.looseEquals left second = first'.looseEquals right second' := by
  have strict := given.strictEquals_eq one two
  have primitives := given.toPrimitive_eq one
  have others := given.toPrimitive_eq two
  cases one <;> cases two <;> simp only [Value.looseEquals, strict, primitives, others]

/-! ## Operators -/

theorem unaryResult_related
    (operator : UnaryOperator) {operand corresponding : Value}
    (related : pairing.Relates operand corresponding) :
    pairing.Relates (unaryResult left operator operand)
      (unaryResult right operator corresponding) := by
  cases operator <;>
    simp only [unaryResult, related.isTruthy_eq, related.typeName_eq,
      given.toPrimitive_eq related] <;>
    exact .primitive _

theorem instanceTest_eq_ok
    {first second first' second' : Value} {result : Bool}
    (one : pairing.Relates first first') (two : pairing.Relates second second')
    (outcome : instanceTest left first second = .ok result) :
    instanceTest right first' second' = .ok result := by
  have error := given.isError_eq one
  cases two with
  | builtin function =>
      cases function with
      | makeError =>
          rw [instanceTest] at outcome ⊢
          rw [← error]
          exact outcome
      | writeLine => exact outcome
  | closure paired => exact outcome
  | primitive | array | object => cases outcome

/-- Corresponding values have the same keys. -/
theorem hasProperty_eq_ok
    {base corresponding : Value} {key : String} {result : Bool}
    (related : pairing.Relates base corresponding)
    (outcome : left.hasProperty base key = .ok result) :
    right.hasProperty corresponding key = .ok result := by
  cases related with
  | object paired =>
      have properties := (given.object _ paired).properties.lookup key
      simp only [Store.hasProperty] at outcome ⊢
      revert properties outcome
      cases (left.object _).properties.lookup key <;>
        cases (right.object _).properties.lookup key <;> intro outcome properties <;>
          cases properties <;> exact outcome
  | array paired =>
      have size := (given.array _ paired).elements.length_eq
      simp only [Array.length_toList] at size
      simp only [Store.hasProperty, size] at outcome ⊢
      exact outcome
  | primitive | closure | builtin => cases outcome

theorem binaryResult_eq_ok
    {operator : BinaryOperator} {first second first' second' result : Value}
    (one : pairing.Relates first first') (two : pairing.Relates second second')
    (outcome : binaryResult left operator first second = .ok result) :
    ∃ corresponding,
      binaryResult right operator first' second' = .ok corresponding ∧
        pairing.Relates result corresponding := by
  have strict := given.strictEquals_eq one two
  have loose := given.looseEquals_eq one two
  have primitives := given.toPrimitive_eq one
  have others := given.toPrimitive_eq two
  have keys := given.toKey_eq one
  cases operator with
  | inside =>
      simp only [binaryResult, keys] at outcome ⊢
      cases found : left.hasProperty second (first'.toKey right) with
      | error fault =>
          rw [found] at outcome
          cases outcome
      | ok present =>
          rw [found] at outcome
          cases outcome
          rw [given.hasProperty_eq_ok two found]
          exact ⟨_, rfl, .primitive _⟩
  | instanceOf =>
      simp only [binaryResult] at outcome ⊢
      cases found : instanceTest left first second with
      | error fault =>
          rw [found] at outcome
          cases outcome
      | ok holds =>
          rw [found] at outcome
          cases outcome
          rw [given.instanceTest_eq_ok one two found]
          exact ⟨_, rfl, .primitive _⟩
  | strictEq | strictNotEq | eq | notEq =>
      simp only [binaryResult, strict, loose] at outcome ⊢
      cases outcome
      exact ⟨_, rfl, .primitive _⟩
  | _ =>
      simp only [binaryResult, primitives, others] at outcome ⊢
      split at outcome <;> cases outcome <;> exact ⟨_, rfl, .primitive _⟩

end Store.Matches

/-! ## Elements -/

namespace Pairing.RelatesAll

variable {values others : List Value}

theorem getElem? (related : pairing.RelatesAll values others) (index : Nat) :
    Option.Rel pairing.Relates values[index]? others[index]? := by
  induction related generalizing index with
  | nil => exact .none
  | cons head _ inductionHypothesis =>
      cases index with
      | zero => exact .some head
      | succ index => exact inductionHypothesis index

theorem set
    (related : pairing.RelatesAll values others) (index : Nat) {value corresponding : Value}
    (given : pairing.Relates value corresponding) :
    pairing.RelatesAll (values.set index value) (others.set index corresponding) := by
  induction related generalizing index with
  | nil => exact .nil
  | cons head rest inductionHypothesis =>
      cases index with
      | zero => exact .cons given rest
      | succ index => exact .cons head (inductionHypothesis index)

theorem replicate
    (count : Nat) {value corresponding : Value} (given : pairing.Relates value corresponding) :
    pairing.RelatesAll (List.replicate count value) (List.replicate count corresponding) := by
  induction count with
  | zero => exact .nil
  | succ count inductionHypothesis => exact .cons given inductionHypothesis

theorem headD
    (related : pairing.RelatesAll values others) {value corresponding : Value}
    (given : pairing.Relates value corresponding) :
    pairing.Relates (values.headD value) (others.headD corresponding) := by
  cases related with
  | nil => exact given
  | cons head _ => exact head

end Pairing.RelatesAll

theorem relates_getD
    {value corresponding : Option Value} (related : Option.Rel pairing.Relates value corresponding) :
    pairing.Relates (value.getD .undefined) (corresponding.getD .undefined) := by
  cases related with
  | none => exact .primitive _
  | some inner => exact inner

theorem textProperty_related (text key : String) :
    pairing.Relates (textProperty text key) (textProperty text key) := by
  unfold textProperty
  split
  · exact .primitive _
  · split <;> exact .primitive _

section

variable {elements others : Array Value}
  (related : pairing.RelatesAll elements.toList others.toList)

include related

theorem size_eq_of_related : elements.size = others.size := by
  simpa using related.length_eq

theorem arrayProperty_related (key : String) :
    pairing.Relates (arrayProperty elements key) (arrayProperty others key) := by
  unfold arrayProperty
  rw [size_eq_of_related related]
  split
  · exact .primitive _
  · refine relates_getD ?_
    cases arrayIndex? key with
    | none => exact .none
    | some index => simpa using related.getElem? index

theorem resizeElements_related (length : Nat) :
    pairing.RelatesAll (resizeElements length elements).toList
      (resizeElements length others).toList := by
  unfold resizeElements
  rw [size_eq_of_related related]
  split
  · simpa using List.forall₂_take length related
  · have filling : pairing.Relates .undefined .undefined := .primitive _
    simpa using List.rel_append related
      (Pairing.RelatesAll.replicate (length - others.size) filling)

theorem setElement_related
    (index : Nat) {value corresponding : Value} (given : pairing.Relates value corresponding) :
    pairing.RelatesAll (setElement index value elements).toList
      (setElement index corresponding others).toList := by
  unfold setElement
  rw [size_eq_of_related related]
  split
  · simpa using related.set index given
  · simpa using List.rel_append (resizeElements_related related index) (.cons given .nil)

end

/-! ## Properties -/

namespace Store.Matches

variable (given : Matches code pairing left right)

include given

/-- Corresponding values have corresponding properties. -/
theorem property_eq_ok
    {base corresponding result : Value} {key : String}
    (related : pairing.Relates base corresponding)
    (outcome : left.property base key = .ok result) :
    ∃ found,
      right.property corresponding key = .ok found ∧ pairing.Relates result found := by
  cases related with
  | primitive literal =>
      cases literal with
      | undefined | null => cases outcome
      | bool | number =>
          cases outcome
          exact ⟨_, rfl, .primitive _⟩
      | string text =>
          cases outcome
          exact ⟨_, rfl, textProperty_related text key⟩
  | builtin function =>
      cases outcome
      exact ⟨_, rfl, .primitive _⟩
  | array paired =>
      cases outcome
      exact ⟨_, rfl, arrayProperty_related (given.array _ paired).elements key⟩
  | object paired =>
      cases outcome
      exact ⟨_, rfl, relates_getD ((given.object _ paired).properties.lookup key)⟩
  | closure paired =>
      obtain ⟨closure, other, found, present, same, _⟩ := given.closure _ paired
      have alike := code.alike same
      simp only [Store.property, found, present, functionProperty, alike.name,
        alike.parameters] at outcome ⊢
      cases outcome
      refine ⟨_, rfl, ?_⟩
      split
      · exact .primitive _
      · split <;> exact .primitive _

/-- Names have corresponding values in scopes that correspond. -/
theorem lookup?_related
    {name : String} (visible : code.visible name) {scope corresponding : Scope}
    (scopes : pairing.RelatesScope scope corresponding) :
    Option.Rel pairing.Relates (left.lookup? scope name) (right.lookup? corresponding name) := by
  rw [Store.lookup?, Store.lookup?]
  rcases given.nearest? visible scopes with ⟨first, second⟩ | found
  · rw [first, second]
    exact .none
  · obtain ⟨_, _, binding, bound, first, second, _, related⟩ := found
    rw [first, second]
    exact .some related.value

theorem read_eq_ok
    {name : String} (visible : code.visible name) {scope corresponding : Scope} {result : Value}
    (scopes : pairing.RelatesScope scope corresponding)
    (outcome : left.read scope name = .ok result) :
    ∃ found, right.read corresponding name = .ok found ∧ pairing.Relates result found := by
  have related := given.lookup?_related visible scopes
  unfold Store.read at outcome ⊢
  revert related outcome
  cases left.lookup? scope name <;> cases right.lookup? corresponding name <;>
    intro outcome related <;> cases related <;> cases outcome
  exact ⟨_, rfl, ‹_›⟩

/-! ## Writing -/

/-- Declaring a name alike in innermost frames that are paired keeps stores corresponding. -/
theorem declare
    {name : String} (visible : code.visible name) {scope corresponding : Scope}
    (scopes : pairing.RelatesScope scope corresponding) {binding bound : Binding}
    (related : pairing.RelatesBinding binding bound) :
    Matches code pairing (left.declare scope name binding)
      (right.declare corresponding name bound) := by
  cases scopes with
  | nil => exact given
  | cons paired _ => exact given.putBindings paired visible related

theorem assign_eq_ok
    {name : String} (visible : code.visible name) {scope corresponding : Scope}
    (scopes : pairing.RelatesScope scope corresponding) {value other : Value}
    (related : pairing.Relates value other) {left' : Store}
    (outcome : left.assign scope name value = .ok left') :
    ∃ right', right.assign corresponding name other = .ok right' ∧
      Matches code pairing left' right' := by
  obtain ⟨address, binding, found, assignable, rfl⟩ := Store.assign_eq_ok.mp outcome
  rcases given.nearest? visible scopes with ⟨missing, _⟩ | both
  · rw [missing] at found
    cases found
  · obtain ⟨_, target, _, bound, first, second, paired, bindings⟩ := both
    rw [first] at found
    cases found
    refine ⟨_, Store.assign_eq_ok.mpr ⟨target, bound, second, ?_, rfl⟩, ?_⟩
    · rw [← bindings.assignable]
      exact assignable
    · exact given.putBindings paired visible ⟨related, rfl⟩

/-- Writing corresponding values to corresponding ones keeps stores corresponding. -/
theorem setProperty_eq_ok
    {base corresponding value other : Value} {key : String}
    (bases : pairing.Relates base corresponding) (values : pairing.Relates value other)
    {left' : Store} (outcome : left.setProperty base key value = .ok left') :
    ∃ right', right.setProperty corresponding key other = .ok right' ∧
      Matches code pairing left' right' := by
  unfold Store.setProperty at outcome ⊢
  cases bases with
  | primitive literal =>
      cases literal with
      | undefined | null => cases outcome
      | bool | number | string =>
          cases outcome
          exact ⟨right, rfl, given⟩
  | builtin function =>
      cases outcome
      exact ⟨right, rfl, given⟩
  | closure paired =>
      cases outcome
      exact ⟨right, rfl, given⟩
  | object paired =>
      cases outcome
      exact ⟨_, rfl, given.putProperty paired key values⟩
  | @array address target paired =>
      simp only [Store.resolveWrite] at outcome ⊢
      by_cases length : key = "length"
      · simp only [length, if_true, Store.resolveLength, given.isWrittenWith_eq paired values,
          given.toNumber_eq values] at outcome ⊢
        cases written : other.isWrittenWith right target with
        | true =>
            simp only [written, if_true] at outcome
            cases outcome
        | false =>
            simp only [written, Bool.false_eq_true, if_false] at outcome ⊢
            cases asked : arrayLength? (other.toNumber right) with
            | none =>
                simp only [asked] at outcome
                cases outcome
            | some count =>
                simp only [asked] at outcome ⊢
                by_cases large : maxArrayLength < count
                · simp only [large, if_true] at outcome
                  cases outcome
                · simp only [large, if_false] at outcome ⊢
                  cases outcome
                  exact ⟨_, rfl, given.modifyElements paired fun _ _ elements =>
                    resizeElements_related elements count⟩
      · simp only [length, if_false] at outcome ⊢
        cases denoted : arrayIndex? key with
        | none =>
            simp only [denoted] at outcome ⊢
            cases outcome
            exact ⟨right, rfl, given⟩
        | some index =>
            simp only [denoted] at outcome ⊢
            by_cases large : maxArrayLength ≤ index
            · simp only [large, if_true] at outcome
              cases outcome
            · simp only [large, if_false] at outcome ⊢
              cases outcome
              exact ⟨_, rfl, given.modifyElements paired fun _ _ elements =>
                setElement_related elements index values⟩

end Store.Matches

end Covenant.Machine
