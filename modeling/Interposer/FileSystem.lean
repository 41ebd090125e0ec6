import Interposer.Path
import Interposer.Failure

/-! What a run does with files, in any monad that has files: `FileTree` is one without effects. -/

namespace Interposer

/-- The file operations that a run is made of. -/
class FileSystem (m : Type → Type) where
  readText (path : Path) : m (Except FileFailure String)
  /-- The names in a directory, in any order. -/
  list (path : Path) : m (Except FileFailure (List String))
  isFile (path : Path) : m Bool
  isDirectory (path : Path) : m Bool
  /-- Where a path leads. -/
  locate (path : Path) : m (Except FileFailure Location)
  makeDirectory (path : Path) : m (Except FileFailure Unit)
  /-- Writes a file, be it new or not. -/
  writeText (path : Path) (text : String) : m (Except FileFailure Unit)

namespace FileSystem

variable {m : Type → Type} [Monad m]

/-- A file operation as a step of a run, which its failure ends. -/
def attempt (action : FileAction) (path : Path) (operation : m (Except FileFailure α)) :
    ExceptT Failure m α := do
  match ← operation with
  | .ok a => return a
  | .error why => throw (.file action path.text why)

variable [FileSystem m]

def read (path : Path) : ExceptT Failure m String := attempt .read path (readText path)

/-- What becomes of a directory that could not be made: it will do if it stands already. -/
def acceptStanding (path : Path) : Except FileFailure Unit → m (Except FileFailure Unit)
  | .ok () => return .ok ()
  | .error why => do if ← isDirectory path then return .ok () else return .error why

/-- Makes a directory and up to `parents` above it, where nothing stands. -/
def makeDirectoriesUpTo : (parents : Nat) → Path → m (Except FileFailure Unit)
  | 0, path => do
    if path.text = "" then return .ok ()
    acceptStanding path (← makeDirectory path)
  | parents + 1, path => do
    if path.text = "" then return .ok ()
    match ← makeDirectory path, path.parent? with
    | .error .notFound, some parent =>
      match ← makeDirectoriesUpTo parents parent with
      | .ok () => acceptStanding path (← makeDirectory path)
      | .error why => return .error why
    | result, _ => acceptStanding path result

/-- Makes a directory and those above it. What was made stays when the rest fails. -/
def makeDirectories (path : Path) : m (Except FileFailure Unit) :=
  makeDirectoriesUpTo path.segments.length path

/-- Writes a file, in a directory that is made for it if need be. -/
def save (path : Path) (text : String) : ExceptT Failure m Unit := do
  match path.parent? with
  | some parent => attempt .createDirectory parent (makeDirectories parent)
  | none => pure ()
  attempt .write path (writeText path text)

end FileSystem

end Interposer
