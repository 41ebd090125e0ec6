/-! Lines of a text and their indentation.

A line ends before a line feed and takes a carriage return directly before the line feed along
with it; nothing follows a line feed at the end of the text. Indentation joins the lines again,
so it drops a line feed at the end. -/

namespace Interposer.Text

def splitLines : List Char → List (List Char)
  | [] => []
  | '\n' :: cs => [] :: splitLines cs
  | '\r' :: '\n' :: cs => [] :: splitLines cs
  | c :: cs =>
    match splitLines cs with
    | [] => [[c]]
    | line :: rest => (c :: line) :: rest

def lines (s : String) : List String := (splitLines s.toList).map String.ofList

/-- `depth` tabs before a line, unless it is empty. -/
def indentLine (depth : Nat) (line : String) : String :=
  if line.isEmpty then "" else String.ofList (List.replicate depth '\t') ++ line

def indent (depth : Nat) (s : String) : String :=
  "\n".intercalate ((lines s).map (indentLine depth))

end Interposer.Text
