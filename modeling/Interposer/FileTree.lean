import Interposer.FileSystem

/-! A tree of files as a value, and the file system that it makes. A path is walked segment by
segment, and what it passes through must be a directory. -/

namespace Interposer

inductive FileTree.Entry where
  | directory
  | file (content : ByteArray)

structure FileTree where
  /-- Where relative paths begin. -/
  workingDirectory : Location
  /-- What stands where; the root is a directory that is not listed. -/
  entries : List (Location × FileTree.Entry)

namespace FileTree

def get? (tree : FileTree) : Location → Option Entry
  | [] => some .directory
  | location => tree.entries.lookup location

/-- Entries with one more, or with another one in the place of one. -/
def setEntry (location : Location) (entry : Entry) :
    List (Location × Entry) → List (Location × Entry)
  | [] => [(location, entry)]
  | (l, e) :: rest =>
    if l = location then (l, entry) :: rest else (l, e) :: setEntry location entry rest

def set (tree : FileTree) (location : Location) (entry : Entry) : FileTree :=
  { tree with entries := setEntry location entry tree.entries }

theorem lookup_setEntry (location l : Location) (entry : Entry)
    (entries : List (Location × Entry)) :
    (setEntry location entry entries).lookup l =
      if l = location then some entry else entries.lookup l := by
  induction entries with
  | nil => by_cases h : l = location <;> simp [setEntry, List.lookup_cons, h, beq_false_of_ne]
  | cons e rest ih =>
    obtain ⟨l', e'⟩ := e
    by_cases h : l' = location <;> by_cases h' : l = l' <;>
      simp_all [setEntry, List.lookup_cons, beq_false_of_ne]

theorem get?_set (tree : FileTree) (location l : Location) (entry : Entry) (h : l ≠ []) :
    (tree.set location entry).get? l = if l = location then some entry else tree.get? l := by
  cases l with
  | nil => exact absurd rfl h
  | cons name names => exact lookup_setEntry ..

/-- Where segments lead from a place. -/
def walk (tree : FileTree) (here : Location) : List String → Except FileFailure Location
  | [] => .ok here
  | segment :: rest =>
    match tree.get? here with
    | some .directory =>
      if Path.isIdle segment then tree.walk here rest
      else if segment = ".." then tree.walk here.dropLast rest
      else if (tree.get? (here ++ [segment])).isSome then tree.walk (here ++ [segment]) rest
      else .error .notFound
    | some (.file _) => .error .notDirectory
    | none => .error .notFound

/-- Where a path begins, and the segments that are to be walked from there. The empty path leads
nowhere. -/
def route (tree : FileTree) (path : Path) : Except FileFailure (Location × List String) :=
  match path.segments with
  | [] | [""] => .error .notFound
  | "" :: segments => .ok ([], segments)
  | segments => .ok (tree.workingDirectory, segments)

def locate (tree : FileTree) (path : Path) : Except FileFailure Location := do
  let (here, segments) ← tree.route path
  tree.walk here segments

/-- The directory in which a path ends, and the name of the end there: that of a directory itself
is `.`. -/
def locateEnd (tree : FileTree) (path : Path) : Except FileFailure (Location × String) := do
  let (here, segments) ← tree.route path
  let segments := (segments.reverse.dropWhile (· == "")).reverse
  let directory ← tree.walk here (segments.dropLast ++ ["."])
  .ok (directory, segments.getLast?.getD ".")

def entryAt (tree : FileTree) (path : Path) : Except FileFailure Entry := do
  match tree.get? (← tree.locate path) with
  | some entry => .ok entry
  | none => .error .notFound

def readText (tree : FileTree) (path : Path) : Except FileFailure String := do
  match ← tree.entryAt path with
  | .directory => .error .isDirectory
  | .file content =>
    match String.fromUTF8? content with
    | some text => .ok text
    | none => .error .notText

/-- The names of what stands directly in a place. -/
def namesIn (tree : FileTree) (directory : Location) : List String :=
  tree.entries.filterMap fun (location, _) =>
    if location.dropLast = directory then location.getLast? else none

def list (tree : FileTree) (path : Path) : Except FileFailure (List String) := do
  let location ← tree.locate path
  match tree.get? location with
  | some .directory => .ok (tree.namesIn location)
  | some (.file _) => .error .notDirectory
  | none => .error .notFound

def isFile (tree : FileTree) (path : Path) : Bool :=
  match tree.entryAt path with
  | .ok (.file _) => true
  | _ => false

def isDirectory (tree : FileTree) (path : Path) : Bool :=
  match tree.entryAt path with
  | .ok .directory => true
  | _ => false

/-- Whether a name stands for a directory itself or for the one above it. -/
def isDots (name : String) : Bool := name == "." || name == ".."

def makeDirectory (tree : FileTree) (path : Path) : Except FileFailure FileTree := do
  let (directory, name) ← tree.locateEnd path
  if isDots name || (tree.get? (directory ++ [name])).isSome then .error .alreadyExists
  else .ok (tree.set (directory ++ [name]) .directory)

/-- Writes a file. A path that ends with a slash can only be that of a directory. -/
def writeText (tree : FileTree) (path : Path) (text : String) : Except FileFailure FileTree := do
  let (directory, name) ← tree.locateEnd path
  if isDots name || path.segments.getLast? = some "" then .error .isDirectory
  else
    match tree.get? (directory ++ [name]) with
    | some .directory => .error .isDirectory
    | _ => .ok (tree.set (directory ++ [name]) (.file text.toUTF8))

/-- Asks the tree and leaves it as it is. -/
def ask (question : FileTree → α) : StateM FileTree α := fun tree => (question tree, tree)

/-- Goes on with the tree that an operation leaves, or with the same one if it fails. -/
def update (operation : FileTree → Except FileFailure FileTree) :
    StateM FileTree (Except FileFailure Unit) := fun tree =>
  match operation tree with
  | .ok tree => (.ok (), tree)
  | .error why => (.error why, tree)

instance : FileSystem (StateM FileTree) where
  readText path := ask (·.readText path)
  list path := ask (·.list path)
  isFile path := ask (·.isFile path)
  isDirectory path := ask (·.isDirectory path)
  locate path := ask (·.locate path)
  makeDirectory path := update (·.makeDirectory path)
  writeText path text := update (·.writeText path text)

end FileTree

end Interposer
