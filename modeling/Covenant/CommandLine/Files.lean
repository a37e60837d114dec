import Covenant.Entries

/-!
# Files

Access to files as an interface, and a table of texts that offers it.  A path
in a table is taken apart at its slashes; empty parts and single dots lead
nowhere and do not count.  A directory stands wherever a longer path goes
through it.  Refusals are worded as the system words them.
-/

namespace Covenant.CommandLine

/-- Access to files; a refusal gives the reason as the system words it. -/
structure Files (m : Type → Type) where
  read : (path : String) → m (Except String String)
  write : (path content : String) → m (Except String Unit)

/-- Why the system refuses an access. -/
inductive Refusal where
  | notFound
  | isDirectory
  | notDirectory
  deriving DecidableEq, Repr

/-- The words of the system for a refusal. -/
def Refusal.reason : Refusal → String
  | notFound => "No such file or directory (os error 2)"
  | isDirectory => "Is a directory (os error 21)"
  | notDirectory => "Not a directory (os error 20)"

/-- Texts under the parts of their paths. -/
abbrev FileTable := List (List String × String)

namespace FileTable

/-- The parts of a path that lead somewhere. -/
def parts (path : String) : List String :=
  (path.splitOn "/").filter fun part => part ≠ "" && part ≠ "."

/-- Whether a path can only mean a directory. -/
def endsInDirectory (path : String) : Bool :=
  path.endsWith "/" || path.endsWith "/."

/-- A table of the given files. -/
def ofFiles (files : List (String × String)) : FileTable :=
  files.map fun file => (parts file.1, file.2)

/-- The text of a file. -/
def read (table : FileTable) (path : String) : Except Refusal String :=
  match table.lookup (parts path) with
  | some text => if endsInDirectory path then .error .notDirectory else .ok text
  | none =>
    if table.any fun file => (parts path).isPrefixOf file.1 then .error .isDirectory
    else if table.any fun file => file.1.isPrefixOf (parts path) then .error .notDirectory
    else .error .notFound

/-- Write the text of a file, in a directory that is there. -/
def write (table : FileTable) (path content : String) : Except Refusal FileTable :=
  let place := parts path
  match table.read path with
  | .error .isDirectory => .error .isDirectory
  | .error .notDirectory => .error .notDirectory
  | _ =>
    if place.isEmpty || endsInDirectory path then
      .error .isDirectory
    else if place.dropLast.isEmpty || table.any fun file => place.dropLast.isPrefixOf file.1 then
      .ok ((place, content) :: table.filter fun file => file.1 ≠ place)
    else
      .error .notFound

/-- Access to the files of a table. -/
def files : Files (StateM FileTable) where
  read path := do
    return (read (← get) path).mapError Refusal.reason
  write path content := do
    match write (← get) path content with
    | .ok table =>
      set table
      return .ok ()
    | .error refusal => return .error refusal.reason

end FileTable

end Covenant.CommandLine
