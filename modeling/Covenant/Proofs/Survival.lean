import Covenant.Proofs.Postcondition

/-!
# Which functions survive

The functions of a program are told apart from those of checkers by the names
that declarations introduce: checkers have names that the program does not
have.  What a walk leaves of the functions of some statements are those that
stand neither in a contract nor in code for another environment, in order; and
transforming the functions in statements relates them one by one.
-/

namespace Covenant.Contract

/-- Whether a declaration introduces one of some names. -/
def introduces (names : List String) (declarators : List Declarator) : Bool :=
  declarators.any fun declarator => names.contains declarator.name

/-- The functions in statements, if declarations introduce one of some names. -/
def functions (names : List String) : Collection Function where
  expression expression := functionsOf (expression.nodes false)
  function function := [function]
  declared declarators :=
    if introduces names declarators then functionsOf (nodesOfDeclarators false declarators) else []
  labeled _ _ := none

/-- Those functions in statements that are not removed along with contracts or environments. -/
def survivors (settings : Settings) (place : Place) (names : List String) :
    Collection Function where
  expression := (functions names).expression
  function := (functions names).function
  declared := (functions names).declared
  labeled label body :=
    match settings.roleOf label with
    | .contract kind =>
      some (if place.ignores kind then (functions names).ofStatement body else [])
    | .environment => if settings.actionFor label = .remove then some [] else none
    | .other => none

/-- Routing keeps the functions in statements. -/
theorem functions_routes (names : List String) (checker : Checker) :
    (functions names).Routes checker id where
  expression _ := List.map_id _
  argument argument := by
    simp [functions, Checker.call, Expression.nodes, nodesOfExpressions]
  bare := rfl
  check := rfl
  function _ := rfl
  declared _ := List.map_id _
  labeled _ _ := rfl

theorem survivors_routes (settings : Settings) (place : Place) (names : List String)
    (checker : Checker) :
    (survivors settings place names).Routes checker id where
  expression := (functions_routes names checker).expression
  argument := (functions_routes names checker).argument
  bare := rfl
  check := rfl
  function _ := rfl
  declared := (functions_routes names checker).declared
  labeled label body := by
    simp only [survivors, Collection.ofStatement_route (functions_routes names checker)]
    split
    · split <;> simp
    · split <;> rfl
    · rfl

section

variable {names : List String}

theorem functions_labeled (label : String) (body : Statement) :
    (functions names).ofStatement (.labeled label body) = (functions names).ofStatement body := by
  rw [Collection.ofStatement]
  rfl

section

variable {settings : Settings} {place : Place} {label : String}

/-- Of a contract no function survives, unless the contract is left alone. -/
theorem survivors_of_contract
    {kind : Kind} (role : settings.roleOf label = .contract kind) (body : Statement) :
    (survivors settings place names).ofStatement (.labeled label body) =
      if place.ignores kind then (functions names).ofStatement body else [] := by
  simp only [Collection.ofStatement, survivors, role]

theorem survivors_of_removed
    (role : settings.roleOf label = .environment) (action : settings.actionFor label = .remove)
    (body : Statement) :
    (survivors settings place names).ofStatement (.labeled label body) = [] := by
  simp only [Collection.ofStatement, survivors, role, action, if_true]

/-- Of code that stays the same functions survive with its label as without it. -/
theorem survivors_of_entered
    (enters : settings.roleOf label = .other ∨
      settings.roleOf label = .environment ∧ settings.actionFor label ≠ .remove)
    (body : Statement) :
    (survivors settings place names).ofStatement (.labeled label body) =
      (survivors settings place names).ofStatement body := by
  have inside : (survivors settings place names).labeled label body = none := by
    rcases enters with role | ⟨role, action⟩
    · simp only [survivors, role]
    · simp only [survivors, role, action, if_false]
  rw [Collection.ofStatement, inside]

end

/-- Guards contain no functions. -/
theorem functions_of_isPlainGuard
    {calls : Bool} {guard : Statement} (plain : IsPlainGuard calls guard) :
    (functions names).ofStatement guard = [] := by
  obtain ⟨test, message, rfl, testPlain, messagePlain⟩ := plain
  simp [guardClause, Collection.ofStatement, Collection.ofStatements, Collection.ofAlternate,
    functions, Expression.nodes, nodesOfExpressions, Expression.functionsOf_plain test testPlain,
    Expression.functionsOf_plain message messagePlain]

theorem functions_clauses
    {found : List Condition} (clean : ∀ condition ∈ found, condition.Clean) (site : Site) :
    (functions names).ofStatements (found.map (Condition.clause site)) = [] :=
  Collection.ofStatements_eq_nil fun guard member =>
    functions_of_isPlainGuard (isPlainGuard_of_mem_map_clause
      (fun condition among => (clean condition among).isPlain none) guard member)

/-- A declaration of a checker introduces no name of the program. -/
theorem functions_declaration
    {checker : Checker} (free : checker.name ∉ names) (parameter : String) :
    (functions names).ofStatement (checker.declaration parameter) = [] := by
  simp [Checker.declaration, Collection.ofStatement, functions, introduces, free]

theorem functions_entry
    {checker : Checker} (free : checker.name ∉ names) (parameter : String) :
    (functions names).ofStatements (checker.entry parameter) = [] := by
  refine Collection.ofStatements_eq_nil fun statement member => ?_
  rcases List.mem_cons.mp member with rfl | second
  · exact functions_declaration free parameter
  · rw [List.mem_singleton.mp second]
    rfl

/-- Statements that contain no others lose no functions. -/
theorem survivors_of_isSimple
    {settings : Settings} {place : Place} {statement : Statement}
    (simple : isSimple statement = true) :
    (survivors settings place names).ofStatement statement =
      (functions names).ofStatement statement := by
  cases statement with
  | block | labeled | branch | whileLoop | doWhileLoop | forLoop => cases simple
  | giveBack argument => cases argument <;> rfl
  | _ => rfl

theorem survivors_ofLoopInit (settings : Settings) (place : Place) (init : Option LoopInit) :
    (survivors settings place names).ofLoopInit init = (functions names).ofLoopInit init := by
  cases init with
  | none => rfl
  | some init => cases init <;> rfl

theorem survivors_ofOptional
    (settings : Settings) (place : Place) (expression : Option Expression) :
    (survivors settings place names).ofOptional expression =
      (functions names).ofOptional expression := by
  cases expression <;> rfl

/-- The functions in the part of a stretch that has already been walked. -/
def Stretch.walked (names : List String) : Stretch → List Function
  | list before _ => (functions names).ofStatements before
  | inside _ | slot _ => []

/-- A walk leaves the functions that survive, in order. -/
theorem Walks.functions
    {context : Context} {stretch : Stretch} {pass after : Pass} {result : List Statement}
    (walks : Walks context stretch pass result after) :
    pass.work.Sound (· ∈ names) → stretch.IsOpen context →
      (Contract.functions names).ofStatements result =
        stretch.walked names ++
          stretch.collected (survivors context.settings context.place names) := by
  induction walks with
  | done before pass =>
      intro _ _
      simp [Stretch.walked, Stretch.collected, Collection.ofStatements]
  | ignored role ignores _ induction =>
      intro sound _
      have ignored : context.place.ignores _ = true := ignores
      rw [induction sound trivial]
      simp [Stretch.walked, Stretch.collected, Collection.ofStatements,
        Collection.ofStatements_append, functions_labeled, survivors_of_contract role, ignored]
  | stripped role counts _ _ induction =>
      intro sound _
      have counted : context.place.ignores _ = false := counts
      rw [induction (sound.later (Pass.precedes_counted _ _).work) trivial]
      simp [Stretch.walked, Stretch.collected, Collection.ofStatements,
        survivors_of_contract role, counted]
  | inPlace role counts _ _ assembles _ induction =>
      intro sound _
      obtain ⟨_, _, rfl, clean, rfl⟩ := placeGuards_eq_ok assembles
      have counted : context.place.ignores _ = false := counts
      rw [induction (sound.later (Pass.precedes_counted _ _).work) trivial]
      simp only [Stretch.walked, Stretch.collected, Collection.ofStatements_append,
        functions_clauses clean]
      simp [Collection.ofStatements, survivors_of_contract role, counted]
  | postcondition role counts _ assembles introduced _ induction =>
      intro sound _
      obtain ⟨_, free, rfl⟩ := makeChecker_eq_ok introduced
      have counted : context.place.ignores _ = false := counts
      rw [induction (sound.later ((precedes_of_checkedGuards assembles).trans
        (Pass.precedes_withPostcondition free)).work) trivial]
      simp [Stretch.walked, Stretch.collected, Collection.ofStatements,
        survivors_of_contract role, counted]
  | @invariant _ _ _ _ _ _ checker _ _ _ _ role counts _ assembles introduced _ induction =>
      intro sound _
      obtain ⟨_, free, rfl⟩ := makeChecker_eq_ok introduced
      have counted : context.place.ignores _ = false := counts
      have unknown : checker.name ∉ names := fun member =>
        free.free ((sound.later (precedes_of_checkedGuards assembles).work).known member).1
      have routes := functions_routes names checker
      have others := survivors_routes context.settings context.place names checker
      rw [induction (sound.later (((precedes_of_checkedGuards assembles).trans
        (Pass.precedes_naming free)).trans (Pass.precedes_counted _ _)).work) trivial]
      simp [Stretch.walked, Stretch.collected, Collection.ofStatements,
        Collection.ofStatements_append, Collection.ofStatements_routeAll routes,
        Collection.ofStatements_routeAll others, Collection.ofStatements_exitCheck others,
        functions_entry unknown, survivors_of_contract role, counted]
  | kept role action first _ firstInduction induction =>
      intro sound _
      have inner := firstInduction sound trivial
      have enters := @survivors_of_entered names context.settings context.place _
        (.inr ⟨role, by simp [action]⟩)
      simp only [Stretch.walked, Stretch.collected, Collection.ofStatements_singleton,
        List.nil_append] at inner
      rw [induction (sound.later first.precedes.work) trivial]
      simp [Stretch.walked, Stretch.collected, Collection.ofStatements,
        Collection.ofStatements_append, functions_labeled, inner, enters]
  | other role first _ firstInduction induction =>
      intro sound _
      have inner := firstInduction sound trivial
      have enters := @survivors_of_entered names context.settings context.place _ (.inl role)
      simp only [Stretch.walked, Stretch.collected, Collection.ofStatements_singleton,
        List.nil_append] at inner
      rw [induction (sound.later first.precedes.work) trivial]
      simp [Stretch.walked, Stretch.collected, Collection.ofStatements,
        Collection.ofStatements_append, functions_labeled, inner, enters]
  | removed role action _ induction =>
      intro sound _
      rw [induction (sound.later (Pass.precedes_counted _ _).work) trivial]
      simp [Stretch.walked, Stretch.collected, Collection.ofStatements,
        survivors_of_removed role action]
  | inlined role action _ induction =>
      intro sound _
      have enters := @survivors_of_entered names context.settings context.place _
        (.inr ⟨role, by simp [action]⟩)
      rw [induction (sound.later (Pass.precedes_counted _ _).work) trivial]
      simp [Stretch.walked, Stretch.collected, Collection.ofStatements_append,
        Collection.ofStatements_unlabeled, Collection.ofStatements, enters]
  | unlabeled plain first _ firstInduction induction =>
      intro sound _
      rw [induction (sound.later first.precedes.work) trivial]
      have inner := firstInduction sound (by simp [Stretch.IsOpen, Context.recognizes, plain])
      simp only [Stretch.walked, Stretch.collected, Collection.ofStatements_singleton,
        List.nil_append] at inner
      simp [Stretch.walked, Stretch.collected, Collection.ofStatements_append,
        Collection.ofStatements, inner]
  | simple simple =>
      intro _ _
      rw [Collection.ofStatements_singleton, Stretch.walked, Stretch.collected,
        survivors_of_isSimple simple, List.nil_append]
  | block _ induction =>
      intro sound _
      have inner := induction sound trivial
      rw [Collection.ofStatements_singleton, Collection.ofStatement, inner]
      rfl
  | @labeled label _ _ _ _ _ induction =>
      intro sound unknown
      have role : context.settings.roleOf label = .other := by
        simpa [Stretch.IsOpen, Context.recognizes, Statement.label?] using unknown
      have inner := induction sound trivial
      rw [Collection.ofStatements_singleton] at inner
      rw [Collection.ofStatements_singleton, functions_labeled, inner]
      simp only [Stretch.collected, survivors_of_entered (.inl role)]
      rfl
  | branch _ induction =>
      intro sound _
      have inner := induction sound trivial
      simp only [Stretch.walked, Stretch.collected, Collection.ofStatements_singleton,
        List.nil_append] at inner
      rw [Collection.ofStatements_singleton, Collection.ofStatement, inner]
      rfl
  | branches first _ firstInduction secondInduction =>
      intro sound _
      have inner := firstInduction sound trivial
      have other := secondInduction (sound.later first.precedes.work) trivial
      simp only [Stretch.walked, Stretch.collected, Collection.ofStatements_singleton,
        List.nil_append] at inner other
      rw [Collection.ofStatements_singleton, Collection.ofStatement, inner,
        Collection.ofAlternate, other]
      rfl
  | whileLoop _ induction | doWhileLoop _ induction =>
      intro sound _
      have inner := induction sound trivial
      simp only [Stretch.walked, Stretch.collected, Collection.ofStatements_singleton,
        List.nil_append] at inner
      rw [Collection.ofStatements_singleton, Collection.ofStatement, inner]
      rfl
  | forLoop _ induction =>
      intro sound _
      have inner := induction sound trivial
      simp only [Stretch.walked, Stretch.collected, Collection.ofStatements_singleton,
        List.nil_append] at inner
      rw [Collection.ofStatements_singleton, Collection.ofStatement, inner, Stretch.walked,
        Stretch.collected, Collection.ofStatement, survivors_ofLoopInit, survivors_ofOptional,
        survivors_ofOptional]
      rfl
  | wrapped _ _ induction =>
      intro sound _
      have inner := induction sound trivial
      rw [Collection.ofStatements_singleton, Collection.ofStatement, inner]
      simp [Stretch.walked, Stretch.collected, Collection.ofStatements]
  | bare unknown _ induction =>
      intro sound _
      exact induction sound unknown

/-- What stands in front of a function with contracts contains no functions of the program. -/
theorem functions_prologue
    {parameter : String} {pass : Pass}
    (sound : pass.Sound) (known : pass.work.Sound (· ∈ names)) :
    (functions names).ofStatements (prologue parameter pass) = [] := by
  rw [prologue, Collection.ofStatements_append]
  have checkers : (functions names).ofStatements
      (pass.postconditions.map (·.declaration parameter)) = [] := by
    refine Collection.ofStatements_eq_nil fun statement member => ?_
    obtain ⟨checker, among, rfl⟩ := List.mem_map.mp member
    refine functions_declaration (fun unknown => ?_) parameter
    exact (known.known unknown).2 (sound.checkers checker among).1
  have constants : (functions names).ofStatements pass.captured.declarations = [] := by
    refine Collection.ofStatements_eq_nil fun statement member => ?_
    obtain ⟨binding, among, rfl⟩ := List.mem_map.mp member
    have init := Expression.functionsOf_plain binding.init (sound.captured binding among).2.2
    simp [Collection.ofStatement, functions, nodesOfDeclarators, nodesOfOptional, init]
  rw [checkers, constants, List.append_nil]

/-- Postconditions add no functions to the statements of a function. -/
theorem functions_applyPostconditions (checkers : List Checker) :
    ∀ statements,
      (functions names).ofStatements (checkers.foldl applyPostcondition statements) =
        (functions names).ofStatements statements := by
  induction checkers with
  | nil => exact fun _ => rfl
  | cons checker rest induction =>
      intro statements
      have routes := functions_routes names checker
      rw [List.foldl_cons, induction, applyPostcondition, Checker.appendExitCheck,
        Collection.ofStatements_append, Collection.ofStatements_routeAll routes, List.map_id,
        Collection.ofStatements_exitCheck routes, List.append_nil]

/-- Transforming the functions in statements relates them one by one. -/
theorem functions_carried
    {transform : Function → Transforming Function} {earliest latest : Work}
    {related : Function → Function → Prop}
    (sound : earliest.Sound (· ∈ names))
    (relates : ∀ source target,
      (nestedExchange transform earliest latest).function source target →
        related source target) :
    Collection.Carried (nestedExchange transform earliest latest) (functions names)
      (functions names) related where
  expression inner :=
    (inner.functions fun _ _ absurd => absurd).imp relates
  function inner := .cons (relates _ _ inner) .nil
  declared {source target} inner := by
    have same : introduces names source = introduces names target := by
      have equal := inner.names
      unfold namesOfDeclarators at equal
      have any (declarators : List Declarator) : introduces names declarators =
          (declarators.map (·.name)).any names.contains := by
        simp [introduces, List.any_map, Function.comp_def]
      rw [any, any, equal]
    simp only [functions, same]
    split
    · exact (inner.functions fun _ _ absurd => absurd).imp relates
    · exact .nil
  statement := by
    rintro source target ⟨rfl, state, early, _, declares⟩
    have nothing : (functions names).ofStatement source = [] := by
      cases source with
      | bindings kind declarators =>
          have unknown : introduces names declarators = false := by
            refine List.any_eq_false.mpr fun declarator member introduced => ?_
            have helper := List.all_eq_true.mp declares declarator member
            exact ((sound.later early).known (List.contains_iff_mem.mp introduced)).2
              (List.contains_iff_mem.mp helper)
          simp [Collection.ofStatement, functions, unknown]
      | _ => cases declares
    rw [nothing]
    exact .nil
  labeled _ _ := ⟨rfl, rfl⟩

end

end Covenant.Contract
