/-! Paths of files as they are written: segments with slashes between them, those of an absolute
path with an empty one in front. Empty segments and `.` lead nowhere, save that a `.` at the
beginning of a relative path counts as one of its parts. What is made from a path keeps the way the
path is written. -/

namespace Interposer

structure Path where
  segments : List String
  deriving DecidableEq, Repr

/-- A place in the file system: the names from the root down to it. -/
abbrev Location := List String

namespace Path

def ofText (text : String) : Path := ⟨(text.toList.splitOn '/').map String.ofList⟩

def text (p : Path) : String := "/".intercalate p.segments

/-- Whether a segment leads nowhere. -/
def isIdle (segment : String) : Bool := segment == "" || segment == "."

def dropIdleEnd (segments : List String) : List String :=
  (segments.reverse.dropWhile isIdle).reverse

/-- The segment that a path is anchored by, the root or a `.` in front, and the segments after. -/
def anchorAndBody (p : Path) : List String × List String :=
  match p.segments with
  | "" :: next :: rest => ([""], next :: rest)
  | "." :: rest => (["."], rest)
  | segments => ([], segments)

/-- An anchor with nothing after it is written in full, as `/` or `.`. -/
def ofAnchorAndBody : List String → List String → Path
  | [""], [] => ⟨["", ""]⟩
  | [], [] => ⟨[""]⟩
  | anchor, body => ⟨anchor ++ body⟩

/-- The name at the end of a path; none if the path ends with `..` or is nothing but an anchor. -/
def fileName? (p : Path) : Option String :=
  (dropIdleEnd p.anchorAndBody.2).getLast?.filter (· != "..")

/-- A path without its last part; none for the root and for the empty path. -/
def parent? (p : Path) : Option Path :=
  match p.anchorAndBody with
  | (anchor, body) =>
    match dropIdleEnd body with
    | [] => if anchor = ["."] then some ⟨[""]⟩ else none
    | body => some (ofAnchorAndBody anchor (dropIdleEnd body.dropLast))

/-- What follows the last dot of a file name, unless there is none or nothing in front of it. -/
def extension? (p : Path) : Option String := do
  let name ← p.fileName?
  let parts := name.toList.splitOn '.'
  if parts.length < 2 || parts.dropLast == [[]] then none else parts.getLast?.map String.ofList

/-- A path with a name added; a slash at the end of the path is not doubled. -/
def join (p : Path) (name : String) : Path :=
  if p.segments.getLast? = some "" then ⟨p.segments.dropLast ++ [name]⟩
  else ⟨p.segments ++ [name]⟩

end Path

namespace Location

/-- The absolute path of a location. -/
def path : Location → Path
  | [] => ⟨["", ""]⟩
  | names => ⟨"" :: names⟩

/-- A location and those above it, the root last, each with the names that lead down from there. -/
def ancestors (l : Location) : List (Location × List String) :=
  (List.range (l.length + 1)).reverse.map l.splitAt

end Location

end Interposer
