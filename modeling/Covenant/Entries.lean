/-!
# Entries

Values under textual keys, as lists of pairs.  `put` keeps the order in which
keys were first written, as objects and tables do; `sort` brings the keys
into the order of their code points, and of equal keys keeps the last value.
-/

namespace Covenant.Entries

/-- Replace the value of a key, or add an entry at the end. -/
def put {α : Type} (key : String) (value : α) : List (String × α) → List (String × α)
  | [] => [(key, value)]
  | (name, old) :: rest =>
    if name = key then (name, value) :: rest else (name, old) :: put key value rest

/-- A key that was put has its value, and every other key keeps its own. -/
theorem lookup_put {α : Type} (key name : String) (value : α) (entries : List (String × α)) :
    (put key value entries).lookup name =
      if name = key then some value else entries.lookup name := by
  induction entries with
  | nil =>
    by_cases same : name = key
    · simp [put, same]
    · simp [put, List.lookup_cons, same, beq_eq_false_iff_ne.mpr same]
  | cons entry rest hypothesis =>
    obtain ⟨present, old⟩ := entry
    by_cases found : present = key
    · by_cases same : name = key
      · simp [put, found, same]
      · simp [put, found, same, List.lookup_cons, beq_eq_false_iff_ne.mpr same]
    · by_cases same : name = present
      · subst same
        simp [put, found]
      · simp [put, found, List.lookup_cons, beq_eq_false_iff_ne.mpr same, hypothesis]

/-- Entries put one after the other into an empty list. -/
def ofList {α : Type} (entries : List (String × α)) : List (String × α) :=
  entries.foldl (fun table entry => put entry.1 entry.2 table) []

/-- Put an entry into a list with ascending keys. -/
def insert {α : Type} (key : String) (value : α) : List (String × α) → List (String × α)
  | [] => [(key, value)]
  | (name, old) :: rest =>
    if key = name then (name, value) :: rest
    else if key < name then (key, value) :: (name, old) :: rest
    else (name, old) :: insert key value rest

/-- The entries with ascending keys, each key with its last value. -/
def sort {α : Type} (entries : List (String × α)) : List (String × α) :=
  entries.foldl (fun table entry => insert entry.1 entry.2 table) []

end Covenant.Entries
