/-!
# Where the log goes

The log can be appended to a file, which is created if it is not there.  Whether that is possible
follows from the path and from the directories that exist.

* `Host` — what is known of the files of a host.
* `LogTarget.walk` — the directory to which the parts of a path lead.
* `LogTarget.check` — why a path cannot be opened, if it cannot.
-/

set_option autoImplicit false

namespace BlockMachine

/-- The reasons why a log file cannot be opened. -/
inductive LogProblem where
  | invalidInput
  | invalidFilename
  | notFound
  | isADirectory
  | notADirectory
  | permissionDenied
  | executableFileBusy
  /-- The host has a reason for which there is no name. -/
  | uncategorized
  deriving DecidableEq, Repr

/-- The name of a reason. -/
def LogProblem.name : LogProblem → String
  | invalidInput => "InvalidInput"
  | invalidFilename => "InvalidFilename"
  | notFound => "NotFound"
  | isADirectory => "IsADirectory"
  | notADirectory => "NotADirectory"
  | permissionDenied => "PermissionDenied"
  | executableFileBusy => "ExecutableFileBusy"
  | uncategorized => "Uncategorized"

/-- What a path names. -/
inductive Entry where
  | directory
  /-- Another name of a directory. -/
  | link (directory : List String)
  /-- A file, and why nothing can be appended to it, if so. -/
  | file (refusal : Option LogProblem)
  /-- Nothing, and why no file can be created there, if so. -/
  | absent (refusal : Option LogProblem)
  deriving DecidableEq, Repr

/-- The files of a host.  A file or directory is named by the names on the way to it from the root. -/
structure Host where
  entry : List String → Entry
  /-- Whether a directory has a limit on the length of names. -/
  limitsNames : List String → Bool
  /-- The directory from which paths without a leading slash start. -/
  workingDirectory : List String

namespace LogTarget

/-- The largest number of bytes of a name, where there is a limit. -/
def maxNameBytes : Nat := 255

/-- The number of bytes that a path may not reach. -/
def pathLimit : Nat := 4096

/-- The parts of a path between its slashes, empty ones left out. -/
def parts (path : String) : List String :=
  (path.splitOn "/").filter (· ≠ "")

/-- What a name in a directory stands for. -/
def lookup (host : Host) (directory : List String) (name : String) : Except LogProblem Entry :=
  if maxNameBytes < name.utf8ByteSize ∧ host.limitsNames directory then .error .invalidFilename
  else .ok (host.entry (directory ++ [name]))

/-- The directory to which some parts of a path lead from another one. -/
def walk (host : Host) : (directory : List String) → List String → Except LogProblem (List String)
  | directory, [] => .ok directory
  | directory, "." :: rest => walk host directory rest
  | directory, ".." :: rest => walk host directory.dropLast rest
  | directory, name :: rest =>
    match lookup host directory name with
    | .ok .directory => walk host (directory ++ [name]) rest
    | .ok (.link target) => walk host target rest
    | .ok (.file _) => .error .notADirectory
    | .ok (.absent _) => .error .notFound
    | .error problem => .error problem

/-- Whether a log can be appended to the file of a name in a directory.  A name with a slash behind it
can only be that of a directory. -/
def checkName (host : Host) (directory : List String) (isFolder : Bool) (name : String) :
    Except LogProblem Unit :=
  if name = "." ∨ name = ".." ∨ isFolder then .error .isADirectory
  else match lookup host directory name with
    | .ok .directory | .ok (.link _) => .error .isADirectory
    | .ok (.file refusal) | .ok (.absent refusal) => match refusal with
      | some problem => .error problem
      | none => .ok ()
    | .error problem => .error problem

/-- Whether a log can be appended to the file of a path. -/
def check (host : Host) (path : String) : Except LogProblem Unit := do
  if path.contains '\x00' then throw .invalidInput
  if path = "" then throw .notFound
  if pathLimit ≤ path.utf8ByteSize then throw .invalidFilename
  match (parts path).getLast? with
  | none => throw .isADirectory
  | some name =>
    let start := if path.startsWith "/" then [] else host.workingDirectory
    let directory ← walk host start (parts path).dropLast
    checkName host directory (path.endsWith "/") name

end LogTarget

end BlockMachine
