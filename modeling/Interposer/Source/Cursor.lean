/-! Places in a text. -/

namespace Interposer.Source

/-- A place in a text: what is left there, and how much comes before. -/
structure Cursor where
  rest : List Char
  /-- The number of characters before. -/
  offset : Nat
  /-- The number of bytes before. -/
  bytes : Nat
  /-- The number of line feeds before. -/
  line : Nat
  deriving Inhabited

namespace Cursor

def start (text : List Char) : Cursor := ⟨text, 0, 0, 0⟩

def next (c : Cursor) : Cursor :=
  match c.rest with
  | [] => c
  | x :: rest =>
    ⟨rest, c.offset + 1, c.bytes + x.utf8Size, if x = '\n' then c.line + 1 else c.line⟩

def skip : Nat → Cursor → Cursor
  | 0, c => c
  | n + 1, c => skip n c.next

/-- The text from one place to another. -/
def textTo (c c' : Cursor) : List Char := c.rest.take (c'.offset - c.offset)

end Cursor

end Interposer.Source
