import Covenant.Proofs.Capture
import Covenant.Proofs.Walk

/-!
# How a walk makes progress

A walk only adds to what it carries along: names are taken and never given
back, checkers and constants are added under names that were free before.
Names that are in use at one moment are therefore told apart from all names
that are handed out later.
-/

namespace Covenant.Contract

/-! ## The steps of a walk -/

namespace Context

/-- The marker for values on entry, where it counts as one. -/
def marker? (context : Context) : Option String :=
  if context.captures then some context.settings.tokens.old else none

end Context

namespace Pass

/-- What a pass tells the capture of values on entry. -/
def capture (pass : Pass) : Capture :=
  ⟨pass.captured, pass.work.supply, 0⟩

/-- A pass after a capture of values on entry. -/
def capturing (pass : Pass) (capture : Capture) : Pass :=
  { pass with
    captured := capture.captured
    work := { pass.work with supply := capture.supply } }

/-- A pass after a checker was given a name. -/
def naming (pass : Pass) (name : String) : Pass :=
  { pass with
    work :=
      { supply := ⟨name :: pass.work.supply.taken⟩
        helperNames := name :: pass.work.helperNames
        summary := { pass.work.summary with helpers := pass.work.summary.helpers + 1 } } }

end Pass

namespace Summary

/-- More guards were made. -/
def addGuards (guards : Nat) (summary : Summary) : Summary :=
  { summary with guards := summary.guards + guards }

end Summary

/-- Values on entry are captured from the state that the pass tells, or not at all. -/
theorem captureOldValues_of_captures
    {context : Context} (captures : context.captures = true)
    (found : List Condition) (pass : Pass) :
    captureOldValues context found pass =
      .ok
        ((found.mapM (Capture.replaceInCondition context.settings.tokens.old) pass.capture).1,
          pass.capturing
            (found.mapM (Capture.replaceInCondition context.settings.tokens.old) pass.capture).2) := by
  rw [captureOldValues, if_pos captures]
  rfl

/-- Where nothing is captured, conditions stay as they are. -/
theorem captureOldValues_of_not_captures
    {context : Context} (idle : context.captures = false)
    (found : List Condition) (pass : Pass) :
    captureOldValues context found pass = .ok (found, pass) := by
  rw [captureOldValues, idle]
  rfl

/-- Conditions become conditions in which the values on entry are captured. -/
theorem captureOldValues_eq_ok
    {context : Context} {found captured : List Condition} {pass after : Pass}
    (outcome : captureOldValues context found pass = .ok (captured, after)) :
    ∃ capture : Capture,
      after = pass.capturing capture ∧
        pass.capture.Precedes capture ∧
          List.Forall₂ (Condition.CapturedAs capture.captured context.marker?) found captured ∧
            ∀ calls, (∀ condition ∈ found, condition.isPlain context.marker? calls = true) →
              (∀ condition ∈ captured, condition.isPlain none calls = true) ∧
                (pass.capture.InitsArePlain calls → capture.InitsArePlain calls) := by
  cases captures : context.captures with
  | false =>
      have marker : context.marker? = none := by simp [Context.marker?, captures]
      rw [captureOldValues_of_not_captures captures] at outcome
      cases outcome
      refine ⟨pass.capture, rfl, .refl _, ?_, fun calls plain => ?_⟩
      · refine List.forall₂_same.mpr fun condition _ => ?_
        rw [marker]
        exact ⟨.refl (fun _ => trivial) (fun _ => rfl) _, .refl (fun _ => trivial) (fun _ => rfl) _⟩
      · rw [marker] at plain
        exact ⟨plain, id⟩
  | true =>
      have marker : context.marker? = some context.settings.tokens.old := by
        simp [Context.marker?, captures]
      rw [captureOldValues_of_captures captures] at outcome
      cases outcome
      have relates := Replacer.Yields.mapM found
        (fun condition _ => Capture.replaceInCondition_yields context.settings.tokens.old condition)
        pass.capture _ _ rfl
      refine ⟨_, rfl, relates.1, ?_, fun calls plain => ?_⟩
      · refine (relates.2 ⟨pass.capture, _⟩ (.refl _) (.refl _)).imp fun source target inner => ?_
        rw [marker]
        exact ⟨inner.1.mono Capture.exchange_within, inner.2.mono Capture.exchange_within⟩
      · rw [marker] at plain
        have plainly := Replacer.Yields.mapM found
          (fun condition member => Capture.replaceInCondition_plain condition (plain condition member))
          pass.capture _ _ rfl
        refine ⟨fun condition member => ?_, plainly.1⟩
        have each := plainly.2 ⟨pass.capture, _⟩ id id
        obtain ⟨source, _, holds⟩ := exists_mem_of_forall₂ each condition member
        exact holds

/-- Guards that replace a contract are the clauses of its conditions. -/
theorem placeGuards_eq_ok
    {site : Site} {body : Statement} {guards : List Statement} {pass after : Pass}
    (outcome : placeGuards site body pass = .ok (guards, after)) :
    ∃ found,
      conditions site body = .ok found ∧
        guards = (found.map (Condition.withMessage site)).map (Condition.clause site) ∧
          (∀ condition ∈ found.map (Condition.withMessage site), condition.Clean) ∧
            after = pass.counted (.addGuards guards.length) := by
  unfold placeGuards at outcome
  obtain ⟨clauses, between, assembles, outcome⟩ := step_bind_eq_ok.mp outcome
  obtain ⟨assembled, rfl⟩ := step_lift_eq_ok.mp assembles
  rw [step_bind_of_ok (count_apply _ pass)] at outcome
  obtain ⟨rfl, rfl⟩ := step_pure_eq_ok.mp outcome
  obtain ⟨found, outcomes, equal, clean⟩ := assemble_eq_ok assembled
  exact ⟨found, outcomes, equal, clean, rfl⟩

/-- Guards of a checker are made in three steps: conditions, captured values on entry, clauses. -/
theorem steps_of_checkedGuards
    {context : Context} {site : Site} {body : Statement} {guards : List Statement}
    {pass after : Pass}
    (outcome : checkedGuards context site body pass = .ok (guards, after)) :
    ∃ prepared captured between,
      prepare site body = .ok prepared ∧
        captureOldValues context prepared pass = .ok (captured, between) ∧
          guards = captured.map (Condition.clause site) ∧
            after = between.counted (.addGuards guards.length) := by
  unfold checkedGuards at outcome
  rcases step_bind_eq_ok.mp outcome with ⟨prepared, _, prepares, outcome⟩
  rcases step_lift_eq_ok.mp prepares with ⟨preparation, rfl⟩
  rcases step_bind_eq_ok.mp outcome with ⟨captured, between, captures, outcome⟩
  rcases step_bind_eq_ok.mp outcome with ⟨clauses, _, makes, outcome⟩
  rcases step_lift_eq_ok.mp makes with ⟨made, rfl⟩
  rw [step_bind_of_ok (count_apply _ between)] at outcome
  rcases step_pure_eq_ok.mp outcome with ⟨rfl, rfl⟩
  exact ⟨prepared, captured, between, preparation, captures, guards_eq_ok made, rfl⟩

/-- Guards of a checker are the clauses of conditions in which values on entry are captured. -/
theorem checkedGuards_eq_ok
    {context : Context} {site : Site} {body : Statement} {guards : List Statement}
    {pass after : Pass}
    (outcome : checkedGuards context site body pass = .ok (guards, after)) :
    ∃ found captured, ∃ capture : Capture,
      conditions site body = .ok found ∧
        (∀ condition ∈ found.map (Condition.withMessage site), condition.Clean) ∧
          List.Forall₂ (Condition.CapturedAs capture.captured context.marker?)
            (found.map (Condition.withMessage site)) captured ∧
          guards = captured.map (Condition.clause site) ∧
            after = (pass.capturing capture).counted (.addGuards guards.length) ∧
              pass.capture.Precedes capture ∧
                ∀ calls,
                  (∀ condition ∈ found.map (Condition.withMessage site),
                    condition.isPlain context.marker? calls = true) →
                    (∀ condition ∈ captured, condition.isPlain none calls = true) ∧
                      (pass.capture.InitsArePlain calls → capture.InitsArePlain calls) := by
  rcases steps_of_checkedGuards outcome with
    ⟨prepared, captured, between, preparation, captures, rfl, rfl⟩
  rcases prepare_eq_ok preparation with ⟨found, outcomes, rfl, clean⟩
  rcases captureOldValues_eq_ok captures with ⟨capture, rfl, precedes, relates, plain⟩
  exact ⟨found, captured, capture, outcomes, clean, relates, rfl, rfl, precedes, plain⟩

/-- A checker has a name that was free, and the guards that it is given. -/
theorem makeChecker_eq_ok
    {site : Site} {role : String} {guards : List Statement} {checker : Checker}
    {pass after : Pass}
    (outcome : makeChecker site role guards pass = .ok (checker, after)) :
    checker.guards = guards ∧ pass.work.supply.Offers checker.name ∧
      after = pass.naming checker.name := by
  cases outcome
  exact ⟨rfl, NameSupply.generate_fresh _ _, rfl⟩

/-! ## What is carried along only grows -/

/-- A name was free at one moment and is taken at a later one. -/
structure HandedOut (earlier later : Work) (name : String) : Prop where
  offered : earlier.supply.Offers name
  taken : name ∈ later.supply.taken

theorem HandedOut.free
    {earlier later : Work} {name : String} (out : HandedOut earlier later name) :
    name ∉ earlier.supply.taken :=
  out.offered.free

/-- Names are only ever taken, and checkers are named by names that were free. -/
structure Work.Precedes (earlier later : Work) : Prop where
  taken : earlier.supply.taken ⊆ later.supply.taken
  helpers : earlier.helperNames ⊆ later.helperNames
  named : ∀ name ∈ later.helperNames, name ∈ earlier.helperNames ∨ HandedOut earlier later name

namespace Work

theorem Precedes.refl (work : Work) : work.Precedes work :=
  ⟨List.Subset.refl _, List.Subset.refl _, fun _ member => .inl member⟩

/-- A name that is handed out in a part of a stretch of time is handed out in it. -/
theorem Precedes.handedOut
    {first second third fourth : Work} {name : String}
    (before : first.Precedes second) (out : HandedOut second third name)
    (after : third.Precedes fourth) :
    HandedOut first fourth name :=
  ⟨⟨fun taken => out.free (before.taken taken), out.offered.coined⟩, after.taken out.taken⟩

theorem Precedes.trans
    {first second third : Work}
    (before : first.Precedes second) (after : second.Precedes third) :
    first.Precedes third := by
  refine ⟨List.Subset.trans before.taken after.taken,
    List.Subset.trans before.helpers after.helpers, ?_⟩
  intro name member
  rcases after.named name member with earlier | out
  · rcases before.named name earlier with first | out
    · exact .inl first
    · exact .inr ((Precedes.refl first).handedOut out after)
  · exact .inr (before.handedOut out (.refl third))

/-- A change of the summary is no progress. -/
theorem precedes_of_same
    {earlier later : Work}
    (supply : earlier.supply = later.supply) (helpers : earlier.helperNames = later.helperNames) :
    earlier.Precedes later :=
  ⟨by rw [supply]; exact List.Subset.refl _, by rw [helpers]; exact List.Subset.refl _,
    fun name member => .inl (by rwa [helpers])⟩

/-- The course of a transformation. -/
def course : Replacer.Course Work :=
  ⟨Precedes, Precedes.refl, Precedes.trans⟩

end Work

/-- What a walk remembers for its function is only added to, under names that were free. -/
structure Pass.Precedes (earlier later : Pass) : Prop where
  work : earlier.work.Precedes later.work
  captured : earlier.captured.bindings ⊆ later.captured.bindings
  capturing : ∀ binding ∈ later.captured.bindings,
    binding ∈ earlier.captured.bindings ∨ HandedOut earlier.work later.work binding.name
  postconditions : earlier.postconditions ⊆ later.postconditions
  checking : ∀ checker ∈ later.postconditions,
    checker ∈ earlier.postconditions ∨ HandedOut earlier.work later.work checker.name

namespace Pass

theorem Precedes.refl (pass : Pass) : pass.Precedes pass :=
  ⟨.refl _, List.Subset.refl _, fun _ member => .inl member, List.Subset.refl _,
    fun _ member => .inl member⟩

theorem Precedes.trans
    {first second third : Pass}
    (before : first.Precedes second) (after : second.Precedes third) :
    first.Precedes third := by
  refine ⟨before.work.trans after.work, List.Subset.trans before.captured after.captured, ?_,
    List.Subset.trans before.postconditions after.postconditions, ?_⟩
  · intro binding member
    rcases after.capturing binding member with earlier | out
    · rcases before.capturing binding earlier with first | out
      · exact .inl first
      · exact .inr ((Work.Precedes.refl _).handedOut out after.work)
    · exact .inr (before.work.handedOut out (.refl _))
  · intro checker member
    rcases after.checking checker member with earlier | out
    · rcases before.checking checker earlier with first | out
      · exact .inl first
      · exact .inr ((Work.Precedes.refl _).handedOut out after.work)
    · exact .inr (before.work.handedOut out (.refl _))

theorem precedes_counted (pass : Pass) (change : Summary → Summary) :
    pass.Precedes (pass.counted change) :=
  ⟨Work.precedes_of_same rfl rfl, List.Subset.refl _, fun _ member => .inl member,
    List.Subset.refl _, fun _ member => .inl member⟩

theorem precedes_capturing
    {pass : Pass} {capture : Capture} (precedes : pass.capture.Precedes capture) :
    pass.Precedes (pass.capturing capture) := by
  obtain ⟨added, equal, fresh⟩ := precedes.captured
  refine ⟨⟨precedes.taken, List.Subset.refl _, fun _ member => .inl member⟩, ?_, ?_,
    List.Subset.refl _, fun _ member => .inl member⟩
  · intro binding member
    exact precedes.binding_mem member
  · intro binding member
    rw [capturing, equal] at member
    rcases List.mem_append.mp member with old | new
    · exact .inl old
    · exact .inr ⟨(fresh binding new).1, (fresh binding new).2⟩

theorem precedes_naming
    {pass : Pass} {name : String} (free : pass.work.supply.Offers name) :
    pass.Precedes (pass.naming name) := by
  refine ⟨⟨List.subset_cons_self _ _, List.subset_cons_self _ _, ?_⟩, List.Subset.refl _,
    fun _ member => .inl member, List.Subset.refl _, fun _ member => .inl member⟩
  intro other member
  rcases List.mem_cons.mp member with rfl | old
  · exact .inr ⟨free, List.mem_cons_self⟩
  · exact .inl old

theorem precedes_withPostcondition
    {pass : Pass} {checker : Checker} (free : pass.work.supply.Offers checker.name) :
    pass.Precedes ((pass.naming checker.name).withPostcondition checker) := by
  refine ⟨(precedes_naming free).work, List.Subset.refl _, fun _ member => .inl member,
    List.subset_append_left _ _, ?_⟩
  intro other member
  rcases List.mem_append.mp member with old | new
  · exact .inl old
  · rw [List.mem_singleton.mp new]
    exact .inr ⟨free, List.mem_cons_self⟩

end Pass

/-- The guards of a contract are made without giving anything back. -/
theorem precedes_of_checkedGuards
    {context : Context} {site : Site} {body : Statement} {guards : List Statement}
    {pass after : Pass}
    (outcome : checkedGuards context site body pass = .ok (guards, after)) :
    pass.Precedes after := by
  obtain ⟨_, _, capture, _, _, _, _, rfl, precedes, _⟩ := checkedGuards_eq_ok outcome
  exact (Pass.precedes_capturing precedes).trans (Pass.precedes_counted _ _)

/-- A walk only makes progress. -/
theorem Walks.precedes
    {context : Context} {stretch : Stretch} {pass after : Pass} {result : List Statement}
    (walks : Walks context stretch pass result after) :
    pass.Precedes after := by
  induction walks with
  | done before pass => exact .refl pass
  | ignored _ _ _ induction => exact induction
  | stripped _ _ _ _ induction => exact (Pass.precedes_counted _ _).trans induction
  | inPlace _ _ _ _ assembles _ induction =>
      obtain ⟨_, _, _, _, rfl⟩ := placeGuards_eq_ok assembles
      exact (Pass.precedes_counted _ _).trans induction
  | postcondition _ _ _ assembles names _ induction =>
      obtain ⟨_, free, rfl⟩ := makeChecker_eq_ok names
      exact ((precedes_of_checkedGuards assembles).trans
        (Pass.precedes_withPostcondition free)).trans induction
  | invariant _ _ _ assembles names _ induction =>
      obtain ⟨_, free, rfl⟩ := makeChecker_eq_ok names
      exact (((precedes_of_checkedGuards assembles).trans (Pass.precedes_naming free)).trans
        (Pass.precedes_counted _ _)).trans induction
  | kept _ _ _ _ firstInduction induction => exact firstInduction.trans induction
  | removed _ _ _ induction => exact (Pass.precedes_counted _ _).trans induction
  | inlined _ _ _ induction => exact (Pass.precedes_counted _ _).trans induction
  | other _ _ _ firstInduction induction => exact firstInduction.trans induction
  | unlabeled _ _ _ firstInduction induction => exact firstInduction.trans induction
  | simple _ => exact .refl _
  | block _ induction => exact induction
  | labeled _ induction => exact induction
  | branch _ induction => exact induction
  | branches _ _ firstInduction secondInduction => exact firstInduction.trans secondInduction
  | whileLoop _ induction => exact induction
  | doWhileLoop _ induction => exact induction
  | forLoop _ induction => exact induction
  | wrapped _ _ induction => exact induction
  | bare _ _ induction => exact induction

/-! ## What is carried along stays in order -/

/--
The names of checkers and constants are taken and told apart, and what
checkers and constants evaluate is plain.
-/
structure Pass.Sound (pass : Pass) : Prop where
  helpers : pass.work.helperNames ⊆ pass.work.supply.taken
  captured : ∀ binding ∈ pass.captured.bindings,
    binding.name ∈ pass.work.supply.taken ∧ binding.name ∉ pass.work.helperNames ∧
      binding.init.isPlain none true = true
  checkers : ∀ checker ∈ pass.postconditions,
    checker.name ∈ pass.work.helperNames ∧ ∀ guard ∈ checker.guards, IsPlainGuard true guard
  distinct : (pass.postconditions.map (·.name)).Nodup

namespace Pass

/-- A walk starts in order if checkers have taken names. -/
theorem sound_start
    {work : Work} (helpers : work.helperNames ⊆ work.supply.taken) :
    Sound ⟨work, .empty, []⟩ where
  helpers := helpers
  captured := by
    intro binding member
    cases member
  checkers := by
    intro checker member
    cases member
  distinct := List.nodup_nil

theorem Sound.counted {pass : Pass} (sound : pass.Sound) (change : Summary → Summary) :
    (pass.counted change).Sound :=
  ⟨sound.helpers, sound.captured, sound.checkers, sound.distinct⟩

theorem Sound.capturing
    {pass : Pass} {capture : Capture} (sound : pass.Sound)
    (precedes : pass.capture.Precedes capture)
    (plain : pass.capture.InitsArePlain true → capture.InitsArePlain true) :
    (pass.capturing capture).Sound where
  helpers := List.Subset.trans sound.helpers precedes.taken
  captured := by
    intro binding member
    have initPlain := plain (fun old among => (sound.captured old among).2.2) binding member
    obtain ⟨added, equal, fresh⟩ := precedes.captured
    have among : binding ∈ capture.captured.bindings := member
    rw [equal] at among
    rcases List.mem_append.mp among with old | new
    · obtain ⟨taken, apart, _⟩ := sound.captured binding old
      exact ⟨precedes.taken taken, apart, initPlain⟩
    · obtain ⟨free, taken⟩ := fresh binding new
      exact ⟨taken, fun helper => free.free (sound.helpers helper), initPlain⟩
  checkers := sound.checkers
  distinct := sound.distinct

theorem Sound.naming
    {pass : Pass} {name : String} (sound : pass.Sound)
    (free : pass.work.supply.Offers name) :
    (pass.naming name).Sound where
  helpers := List.cons_subset_cons name sound.helpers
  captured := by
    intro binding member
    obtain ⟨taken, apart, plain⟩ := sound.captured binding member
    refine ⟨List.mem_cons_of_mem _ taken, ?_, plain⟩
    intro helper
    rcases List.mem_cons.mp helper with equal | old
    · exact free.free (equal ▸ taken)
    · exact apart old
  checkers := by
    intro checker member
    obtain ⟨helper, plain⟩ := sound.checkers checker member
    exact ⟨List.mem_cons_of_mem _ helper, plain⟩
  distinct := sound.distinct

theorem Sound.withPostcondition
    {pass : Pass} {checker : Checker} (sound : pass.Sound)
    (free : pass.work.supply.Offers checker.name)
    (plain : ∀ guard ∈ checker.guards, IsPlainGuard true guard) :
    ((pass.naming checker.name).withPostcondition checker).Sound where
  helpers := (sound.naming free).helpers
  captured := (sound.naming free).captured
  checkers := by
    intro other member
    rcases List.mem_append.mp member with old | new
    · exact (sound.naming free).checkers other old
    · rw [List.mem_singleton.mp new]
      exact ⟨List.mem_cons_self, plain⟩
  distinct := by
    have apart : checker.name ∉ pass.postconditions.map (·.name) := by
      intro member
      obtain ⟨other, among, equal⟩ := List.mem_map.mp member
      exact free.free (equal ▸ sound.helpers (sound.checkers other among).1)
    change ((pass.postconditions ++ [checker]).map (·.name)).Nodup
    rw [List.map_append, List.map_singleton]
    exact sound.distinct.append (List.nodup_singleton _) (by simpa using apart)

end Pass

/-- Making guards for a checker keeps a pass in order, and the guards are plain. -/
theorem sound_of_checkedGuards
    {context : Context} {site : Site} {body : Statement} {guards : List Statement}
    {pass after : Pass} (sound : pass.Sound)
    (outcome : checkedGuards context site body pass = .ok (guards, after)) :
    after.Sound ∧ ∀ guard ∈ guards, IsPlainGuard true guard := by
  obtain ⟨found, captured, capture, _, clean, _, rfl, rfl, precedes, plain⟩ :=
    checkedGuards_eq_ok outcome
  obtain ⟨capturedPlain, initsPlain⟩ :=
    plain true fun condition member => (clean condition member).isPlain context.marker?
  exact ⟨(sound.capturing precedes initsPlain).counted _,
    isPlainGuard_of_mem_map_clause capturedPlain⟩

/-- A walk keeps what it carries along in order. -/
theorem Walks.sound
    {context : Context} {stretch : Stretch} {pass after : Pass} {result : List Statement}
    (walks : Walks context stretch pass result after) :
    pass.Sound → after.Sound := by
  induction walks with
  | done before pass => exact id
  | ignored _ _ _ induction => exact induction
  | stripped _ _ _ _ induction => exact fun sound => induction (sound.counted _)
  | inPlace _ _ _ _ assembles _ induction =>
      obtain ⟨_, _, _, _, rfl⟩ := placeGuards_eq_ok assembles
      exact fun sound => induction (sound.counted _)
  | postcondition _ _ _ assembles names _ induction =>
      intro sound
      obtain ⟨guarded, plain⟩ := sound_of_checkedGuards sound assembles
      obtain ⟨rfl, free, rfl⟩ := makeChecker_eq_ok names
      exact induction (guarded.withPostcondition free plain)
  | invariant _ _ _ assembles names _ induction =>
      intro sound
      obtain ⟨guarded, plain⟩ := sound_of_checkedGuards sound assembles
      obtain ⟨rfl, free, rfl⟩ := makeChecker_eq_ok names
      exact induction ((guarded.naming free).counted _)
  | kept _ _ _ _ firstInduction induction => exact fun sound => induction (firstInduction sound)
  | removed _ _ _ induction => exact fun sound => induction (sound.counted _)
  | inlined _ _ _ induction => exact fun sound => induction (sound.counted _)
  | other _ _ _ firstInduction induction => exact fun sound => induction (firstInduction sound)
  | unlabeled _ _ _ firstInduction induction => exact fun sound => induction (firstInduction sound)
  | simple _ => exact id
  | block _ induction => exact induction
  | labeled _ induction => exact induction
  | branch _ induction => exact induction
  | branches _ _ firstInduction secondInduction =>
      exact fun sound => secondInduction (firstInduction sound)
  | whileLoop _ induction => exact induction
  | doWhileLoop _ induction => exact induction
  | forLoop _ induction => exact induction
  | wrapped _ _ induction => exact induction
  | bare _ _ induction => exact induction

/-- A checker of an invariant as later moments see it. -/
structure Wired (last : Pass) (checker : Checker) : Prop where
  named : checker.name ∈ last.work.helperNames
  apart : ∀ other ∈ last.postconditions, other.name ≠ checker.name
  plain : ∀ guard ∈ checker.guards, IsPlainGuard true guard

/-- The checker of an invariant is wired as far as any later moment can see. -/
theorem wired_of_naming
    {checker : Checker} {pass last : Pass} (sound : pass.Sound)
    (free : pass.work.supply.Offers checker.name)
    (plain : ∀ guard ∈ checker.guards, IsPlainGuard true guard)
    (late : (pass.naming checker.name).Precedes last) :
    Wired last checker where
  named := late.work.helpers List.mem_cons_self
  apart := by
    intro other member equal
    rcases late.checking other member with early | out
    · exact free.free (equal ▸ sound.helpers (sound.checkers other early).1)
    · exact out.free (equal ▸ List.mem_cons_self)
  plain := plain

end Covenant.Contract
