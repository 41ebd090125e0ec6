import Interposer.FileSystem
import Interposer.Text.Blank
import Interposer.Text.Lines

/-! Import paths of directories. The nearest `go.mod` at or above a directory names the module that
the directory belongs to, and the names down from there follow the module's own. -/

namespace Interposer

namespace ModuleFile

/-- A line up to a comment. -/
def uncommented : List Char → List Char
  | [] => []
  | '/' :: '/' :: _ => []
  | c :: cs => c :: uncommented cs

/-- The module that a line names, if it is a module directive. -/
def directive? (line : String) : Option String :=
  match "module".toList.isPrefixOf? (Text.trim line.toList) with
  | some (c :: rest) =>
    let name := Text.trimBy (· == '"') (Text.trim (uncommented (c :: rest)))
    if Text.isBlank c && !name.isEmpty then some (String.ofList name) else none
  | _ => none

/-- The module that a module file names first. -/
def module? (text : String) : Option String := (Text.lines text).findSome? directive?

def name : String := "go.mod"

end ModuleFile

namespace ImportPath

open FileSystem

variable {m : Type → Type} [Monad m] [FileSystem m]

/-- The import path by the first of some locations, each with the names that lead down from there,
at which a module file stands. -/
def search : List (Location × List String) → ExceptT Failure m (Option String)
  | [] => return none
  | (root, names) :: rest => do
    let file := root.path.join ModuleFile.name
    if ← ExceptT.lift (isFile file) then
      match ModuleFile.module? (← read file) with
      | some module => return "/".intercalate (module :: names)
      | none => throw (.load file.text .noModuleDirective)
    else search rest

/-- The import path of the package in a directory. -/
def ofDirectory (directory : Path) : ExceptT Failure m String := do
  let location ← attempt .resolve directory (locate directory)
  match ← search location.ancestors with
  | some path => return path
  | none => throw (.load location.path.text .noModule)

end ImportPath

end Interposer
