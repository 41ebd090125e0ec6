import Interposer.Fresh

/-! The imports of a generated file. Every path that the file refers to is entered once and is
given an alias of its own; an entry never changes afterwards. -/

namespace Interposer

/-- A path and the name that the file uses for it, its alias. -/
structure Import where
  name : String
  path : String
  deriving DecidableEq, Repr, Inhabited

/-- Entries in the order in which they were made. -/
structure ImportTable where
  entries : List Import
  deriving DecidableEq, Repr, Inhabited

/-- The last of the segments that slashes separate. -/
def lastSegment (path : List Char) : List Char :=
  (path.reverse.takeWhile (· ≠ '/')).reverse

def isAliasBreak (c : Char) : Bool := c == '-' || c == '_' || c == '.'

/-- The last segment of the path up to a dash, underscore or dot: `sentry` for
`github.com/getsentry/sentry-go`. A segment that begins with one of them just loses them. -/
def defaultAlias (path : String) : String :=
  let segment := lastSegment path.toList
  match segment.takeWhile (!isAliasBreak ·) with
  | [] => String.ofList (segment.filter (!isAliasBreak ·))
  | base => String.ofList base

namespace ImportTable

def empty : ImportTable := ⟨[]⟩

def pathOf? (table : ImportTable) (name : String) : Option String :=
  (table.entries.find? (·.name == name)).map (·.path)

def aliasOf? (table : ImportTable) (path : String) : Option String :=
  (table.entries.find? (·.path == path)).map (·.name)

def size (table : ImportTable) : Nat := table.entries.length

def aliases (table : ImportTable) : List String := table.entries.map (·.name)

/-- Entries by path, the order in which a file lists them. -/
def sorted (table : ImportTable) : List Import :=
  table.entries.mergeSort fun a b => a.path < b.path || (a.path == b.path && a.name ≤ b.name)

/-- Whether `name` stands for a path other than `path`. -/
def isTaken (table : ImportTable) (path name : String) : Bool :=
  match table.pathOf? name with
  | none => false
  | some other => other != path

/-- The alias that `path` has or would get: its default alias, or else that alias with the first
number that makes it free. -/
def aliasFor (table : ImportTable) (path : String) : String :=
  let name := defaultAlias path
  if table.isTaken path name then
    firstFree (table.isTaken path) (fun n => name ++ toString n) table.size
  else name

/-- Enters `path` and answers its alias. The empty path is not entered and has the empty alias. -/
def add (table : ImportTable) (path : String) : String × ImportTable :=
  if path.isEmpty then ("", table)
  else
    let name := table.aliasFor path
    match table.pathOf? name with
    | some _ => (name, table)
    | none => (name, ⟨table.entries ++ [⟨name, path⟩]⟩)

def addAll (table : ImportTable) (paths : List String) : ImportTable :=
  paths.foldl (fun t path => (t.add path).2) table

end ImportTable

end Interposer
