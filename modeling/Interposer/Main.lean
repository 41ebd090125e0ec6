import Interposer.Run

/-! The command line on the files of the machine. -/

namespace Interposer.Machine

/-- What the machine says about a file that cannot be used. -/
def fileFailure : IO.Error → FileFailure
  | .noFileOrDirectory .. => .notFound
  | .alreadyExists .. => .alreadyExists
  | .inappropriateType _ 20 _ => .notDirectory
  | .inappropriateType _ 21 _ => .isDirectory
  | failure => .unusable (toString failure)

def guarded (operation : IO α) : IO (Except FileFailure α) :=
  tryCatch (Except.ok <$> operation) fun failure => return .error (fileFailure failure)

/-- Whether something of a kind stands at the end of a path. -/
def stands (path : Path) (kind : IO.FS.FileType) : IO Bool := do
  match ← guarded (IO.FS.realPath path.text) with
  | .ok place => return (← place.metadata).type == kind
  | .error _ => return false

def readText (path : Path) : IO (Except FileFailure String) := do
  match ← guarded (IO.FS.readBinFile path.text) with
  | .ok content => return (String.fromUTF8? content).elim (.error .notText) .ok
  | .error why => return .error why

def list (path : Path) : IO (List String) := do
  let place ← IO.FS.realPath path.text
  return (← place.readDir).toList.map (·.fileName)

def locate (path : Path) : IO Location := do
  let place ← IO.FS.realPath path.text
  return (Path.ofText place.toString).segments.filter (· ≠ "")

instance : FileSystem IO where
  readText := readText
  list path := guarded (list path)
  isFile path := stands path .file
  isDirectory path := stands path .dir
  locate path := guarded (locate path)
  makeDirectory path := guarded (IO.FS.createDir path.text)
  writeText path text := guarded (IO.FS.writeFile path.text text)

end Interposer.Machine

def main (arguments : List String) : IO UInt32 := do
  let report ← Interposer.run arguments
  if report.output ≠ "" then IO.println report.output
  if report.errorOutput ≠ "" then IO.eprintln report.errorOutput
  return report.exitCode.toUInt32
