import Interposer.FileSystem
import Interposer.Package.Description
import Interposer.Package.ImportPath
import Interposer.Package.OfSource

/-! Loading packages. A location with the extension `json` is a description; any other one is a
directory, whose package is made up of all its source files. -/

namespace Interposer.Package

open FileSystem

variable {m : Type → Type} [Monad m] [FileSystem m]

/-- Whether a file of this name belongs to a package; tests do not. -/
def isSourceName (name : String) : Bool := name.endsWith ".go" && !name.endsWith "_test.go"

/-- The source files of a directory in the order of their names. -/
def sourceFiles (directory : Path) : ExceptT Failure m (List Path) := do
  let names ← attempt .readDirectory directory (list directory)
  let sources := (names.filter isSourceName).mergeSort (· ≤ ·)
  (sources.map directory.join).filterM fun file => ExceptT.lift (isFile file)

/-- A package with the declarations of another added, if both have the same name. -/
def append (directory : Path) (p q : Package) : Except Failure Package :=
  if p.name = q.name then .ok { p with declarations := p.declarations ++ q.declarations }
  else .error (.load directory.text (.mixedPackages p.name q.name))

/-- A package with the declarations of more files added one after the other. -/
def addFiles (directory : Path) (p : Package) : List Path → ExceptT Failure m Package
  | [] => return p
  | file :: rest => do
    let q ← ofSource file.text (← read file) p.path
    addFiles directory (← append directory p q) rest

def ofDirectory (directory : Path) : ExceptT Failure m Package := do
  match ← sourceFiles directory with
  | [] => throw (.load directory.text .noGoFiles)
  | file :: rest =>
    let path ← ImportPath.ofDirectory directory
    addFiles directory (← ofSource file.text (← read file) path) rest

def load (location : Path) : ExceptT Failure m Package := do
  if location.extension? = some "json" then ofDescription location.text (← read location)
  else ofDirectory location

end Interposer.Package
