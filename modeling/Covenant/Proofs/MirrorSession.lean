import Covenant.Proofs.Counterpart
import Covenant.Proofs.Guarantee
import Covenant.Proofs.Simulation

/-!
# Sessions that correspond

A session starts from the same machine for every program, and receives its
arguments in the same way.  A session of a woven program is therefore mirrored
by one of the program that it is woven from, as long as the function that is
called has a name that both programs know.

Other names are not bound at the top level, so that they cannot be called.
-/

namespace Covenant.Machine

open Contract
open Covenant.Machine.Action (Mirrors)

/-! ## Receiving arguments -/

/-- Adding cells to corresponding stores gives results that are related. -/
def AddsAlike {α : Type} (code : Correspondence) (related : Pairing → α → α → Prop)
    (add : StateM Store α) : Prop :=
  ∀ pairing left right, Store.Matches code pairing left right → ∃ later,
    pairing.Extends later ∧ (add left).2.Matches code later (add right).2 ∧
      related later (add left).1 (add right).1

section

variable {α β : Type} {code : Correspondence} {related : Pairing → α → α → Prop}
  {final : Pairing → β → β → Prop}

theorem AddsAlike.pure {value : α} (same : ∀ pairing, related pairing value value) :
    AddsAlike code related (Pure.pure value) :=
  fun pairing _ _ given => ⟨pairing, .refl pairing, given, same pairing⟩

/-- Further cells are added alike if they are for every pairing that has grown. -/
theorem AddsAlike.bind {first : StateM Store α} {next : α → StateM Store β}
    (adds : AddsAlike code related first)
    (rest : ∀ {pairing left right value corresponding}, Store.Matches code pairing left right →
      related pairing value corresponding → ∃ later, pairing.Extends later ∧
        (next value left).2.Matches code later (next corresponding right).2 ∧
          final later (next value left).1 (next corresponding right).1) :
    AddsAlike code final (first >>= next) := by
  intro pairing left right given
  obtain ⟨later, grows, between, values⟩ := adds pairing left right given
  obtain ⟨last, more, finally', results⟩ := rest between values
  exact ⟨last, grows.trans more, finally', results⟩

end

section

variable {code : Correspondence}

open Value

mutual

/-- Receiving a value adds corresponding cells. -/
theorem addsAlike_ofJson : (json : Json) → AddsAlike code Pairing.Relates (ofJson json)
  | .null | .bool _ | .integer _ | .number _ | .string _ => by
      rw [ofJson]
      exact .pure fun _ => .primitive _
  | .array elements => by
      rw [ofJson]
      exact (addsAlike_ofElements elements).bind fun given values =>
        ⟨_, Pairing.extends_withArray _ _ _, given.addArrays values, .array List.mem_cons_self⟩
  | .object entries => by
      rw [ofJson]
      exact (addsAlike_ofEntries entries).bind fun given properties =>
        ⟨_, Pairing.extends_withObject _ _ _, given.addObjects .plain properties.sort,
          .object List.mem_cons_self⟩

theorem addsAlike_ofElements :
    (elements : List Json) → AddsAlike code Pairing.RelatesAll (ofElements elements)
  | [] => by
      rw [ofElements]
      exact .pure fun _ => .nil
  | element :: rest => by
      rw [ofElements]
      refine (addsAlike_ofJson element).bind fun given value => ?_
      obtain ⟨later, grows, between, values⟩ := addsAlike_ofElements rest _ _ _ given
      exact ⟨later, grows, between, .cons (value.mono grows) values⟩

theorem addsAlike_ofEntries :
    (entries : List (String × Json)) → AddsAlike code Pairing.RelatesEntries (ofEntries entries)
  | [] => by
      rw [ofEntries]
      exact .pure fun _ => .nil
  | (_, element) :: rest => by
      rw [ofEntries]
      refine (addsAlike_ofJson element).bind fun given value => ?_
      obtain ⟨later, grows, between, values⟩ := addsAlike_ofEntries rest _ _ _ given
      exact ⟨later, grows, between, .cons ⟨rfl, value.mono grows⟩ values⟩

end

theorem mirrors_receive {pairing : Pairing} (arguments : List Json) :
    Mirrors code pairing Pairing.RelatesAll (receive arguments) (receive arguments) :=
  .allocate (addsAlike_ofElements arguments _)

end

/-! ## The machine at the start -/

/-- The cells of a fresh machine, paired with themselves. -/
def freshPairing : Pairing :=
  (Pairing.withObject ⟨[], [], [], []⟩ ⟨0⟩ ⟨0⟩).withFrame ⟨0⟩ ⟨0⟩

theorem relatesScope_globalScope : freshPairing.RelatesScope globalScope globalScope :=
  .cons List.mem_cons_self .nil

/-- A frame of bindings that are related to themselves is related to itself. -/
theorem rel_lookup_self
    {pairing : Pairing} {frame : Frame}
    (each : ∀ entry ∈ frame, pairing.RelatesBinding entry.2 entry.2) (name : String) :
    Option.Rel pairing.RelatesBinding (frame.lookup name) (frame.lookup name) := by
  induction frame with
  | nil => exact .none
  | cons entry rest induction =>
      obtain ⟨known, binding⟩ := entry
      rw [List.lookup_cons]
      split
      · exact .some (each _ List.mem_cons_self)
      · exact induction fun other member => each other (List.mem_cons_of_mem _ member)

section

variable {code : Correspondence}

theorem matches_empty : Store.empty.Matches code ⟨[], [], [], []⟩ Store.empty where
  frames := by intro first member; cases member
  arrays := by intro first member; cases member
  objects := by intro first member; cases member
  closures := by intro first member; cases member
  frame := by intro pair member; cases member
  array := by intro pair member; cases member
  object := by intro pair member; cases member
  closure := by intro pair member; cases member
  checkers := by intro pair member; cases member

/-- A fresh machine corresponds to itself, if checkers do not have the names that it binds. -/
theorem corresponds_fresh
    (bare : ∀ name console, code.checker name → (globalFrame console).lookup name = none)
    (depthLimit : Nat) :
    Corresponds code freshPairing (fresh depthLimit) (fresh depthLimit) := by
  have console := (@matches_empty code).addObjects .plain
    (.cons ⟨rfl, .builtin .writeLine⟩ .nil : Pairing.RelatesEntries _
      [("log", .builtin .writeLine)] [("log", .builtin .writeLine)])
  refine ⟨console.addFrames (fun name _ => rel_lookup_self ?_ name) (bare · _), rfl, rfl, rfl⟩
  intro entry member
  simp only [globalFrame, List.mem_cons, List.not_mem_nil, or_false] at member
  rcases member with rfl | rfl | rfl | rfl | rfl
  · exact ⟨.primitive _, rfl⟩
  · exact ⟨.primitive _, rfl⟩
  · exact ⟨.primitive _, rfl⟩
  · exact ⟨.builtin _, rfl⟩
  · exact ⟨.object List.mem_cons_self, rfl⟩

end

/-! ## Whole sessions -/

section

variable {code : Correspondence}
  (closed : ∀ {function other : Function}, code.function function other →
    Woven.OnBody code function.body other.body)

include closed

theorem mirrors_load
    (fuel : Nat) {program other : Program}
    (woven : Woven.OnStatements code program.statements other.statements) :
    Mirrors code freshPairing (fun _ _ _ => True) (load fuel program) (load fuel other) := by
  refine ((simulates closed fuel).executeAll relatesScope_globalScope woven).bind
    fun later _ _ _ completions => ?_
  cases completions with
  | finished => exact .pure trivial
  | returned _ => exact .pure trivial
  | broken label => exact .throw _ _
  | continued label => exact .throw _ _

theorem mirrors_callGlobal
    (fuel : Nat) {pairing : Pairing} (scopes : pairing.RelatesScope globalScope globalScope)
    {name : String} (visible : code.visible name) {values others : List Value}
    (given : pairing.RelatesAll values others) :
    Mirrors code pairing Pairing.Relates (callGlobal fuel name values)
      (callGlobal fuel name others) := by
  have looks : Mirrors code pairing (fun later => Option.Rel later.Relates)
      (Action.query fun store => store.lookup? globalScope name)
      (Action.query fun store => store.lookup? globalScope name) :=
    .query fun _ _ stores => stores.lookup?_related visible scopes
  refine looks.bind fun later _ _ grows callees => ?_
  cases callees with
  | none => exact .throw _ _
  | some related =>
      dsimp only
      rw [← related.isCallable_eq]
      split
      · exact (simulates closed fuel).call related (.primitive _) (given.mono grows)
      · exact .throw _ _

/-- A session of a woven program is mirrored by one of the program it is woven from. -/
theorem mirrors_run
    (fuel : Nat) {program other : Program}
    (woven : Woven.OnStatements code program.statements other.statements)
    {name : String} (visible : code.visible name) (arguments : List Json) :
    Mirrors code freshPairing Pairing.Relates (program.run fuel name arguments)
      (other.run fuel name arguments) := by
  refine Mirrors.next (mirrors_load closed fuel woven) fun later grows => ?_
  refine (mirrors_receive arguments).bind fun last _ _ more values => ?_
  exact mirrors_callGlobal closed fuel
    (relatesScope_globalScope.mono (grows.trans more)) visible values

end

/-! ## Names that cannot be called -/

/-- Names of a kind that are bound neither at the start nor by a program cannot be called. -/
theorem not_hidden_of_run
    {hidden : String → Prop} {fuel depthLimit : Nat} {program : Program} {name : String}
    {arguments : List Json} {result : Value} {after : Machine}
    (bare : ∀ name console, hidden name → (globalFrame console).lookup name = none)
    (avoids : (avoiding hidden).OnStatements program.statements)
    (outcome : program.run fuel name arguments (fresh depthLimit) = .ok result after) :
    ¬ hidden name := by
  intro member
  let start := (fresh depthLimit).store
  have permitted : ((steadiness hidden start).permits globalScope).OnStatements
      program.statements :=
    Parts.OnStatements.imp (avoiding_implies fun _ visible _ _ _ => visible) _ avoids
  obtain ⟨_, loaded, loads, outcome⟩ := Action.bind_eq_ok.mp outcome
  obtain ⟨values, received, receives, outcome⟩ := Action.bind_eq_ok.mp outcome
  obtain ⟨callee, _, looks, outcome⟩ := Action.bind_eq_ok.mp outcome
  have steady := (Discipline.keeps_load (Regime.permits_program permitted) _ _ _ (.refl start) trivial
    loads).1
  have steadily := (Discipline.kept_receive arguments _ _ _ steady receives).1
  have unbound : (start.frame ⟨0⟩).lookup name = none := bare name _ member
  have still : (received.store.frame ⟨0⟩).lookup name = none := by
    rw [steadily.bindings ⟨0⟩ name Nat.zero_lt_one member (by simp [unbound]), unbound]
  have missing : received.store.lookup? globalScope name = none := by
    simp [Store.lookup?, globalScope, Store.nearest?, still]
  cases looks
  simp only [missing] at outcome
  cases outcome

end Covenant.Machine
