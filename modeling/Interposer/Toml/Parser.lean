import Interposer.Toml
import Interposer.Text.Hex

/-! Reading TOML. A reader takes the characters to read and answers what it found along with the
characters after it. -/

namespace Interposer.Toml

def isSpace (c : Char) : Bool := c == ' ' || c == '\t'

def skipSpace (cs : List Char) : List Char := cs.dropWhile isSpace

/-- Whether a character may stand in a text or a comment: all but control characters other than
the tab. -/
def isTextChar (c : Char) : Bool := c == '\t' || (0x20 ≤ c.toNat && c.toNat ≠ 0x7F)

/-- What follows the end of a line. -/
def newline? : List Char → Option (List Char)
  | '\n' :: cs => some cs
  | '\r' :: '\n' :: cs => some cs
  | _ => none

/-- What follows a line of which nothing is left but white space and a comment. -/
def lineEnd? (cs : List Char) : Option (List Char) :=
  let cs :=
    match skipSpace cs with
    | '#' :: cs => cs.dropWhile isTextChar
    | cs => cs
  if cs.isEmpty then some [] else newline? cs

/-- Skips what may stand between the items of an array: white space, new lines and comments. -/
def skipFiller (inComment : Bool) : List Char → List Char
  | [] => []
  | '\n' :: cs => skipFiller false cs
  | '\r' :: '\n' :: cs => skipFiller false cs
  | c :: cs =>
    if inComment then if isTextChar c then skipFiller true cs else c :: cs
    else if c = '#' then skipFiller true cs
    else if isSpace c then skipFiller false cs
    else c :: cs

/-! ## Texts -/

/-- The character that digits after `\u` or `\U` denote; surrogates are none. -/
def escapedChar? (digits : List Char) : Option Char := do
  let n ← Text.hexNumber? digits
  if n.isValidChar then some (Char.ofNat n) else none

def simpleEscape? : Char → Option Char
  | '"' => some '"'
  | '\\' => some '\\'
  | 'b' => some '\x08'
  | 'f' => some '\x0c'
  | 'n' => some '\n'
  | 'r' => some '\r'
  | 't' => some '\t'
  | _ => none

/-- Puts a character in front of a text that has been read. -/
def prepend (c : Char) : List Char × List Char → List Char × List Char
  | (text, rest) => (c :: text, rest)

/-- A text on one line up to its closing quote. -/
def readBasic : List Char → Option (List Char × List Char)
  | [] => none
  | '"' :: cs => some ([], cs)
  | '\\' :: 'u' :: c₁ :: c₂ :: c₃ :: c₄ :: cs => do
    let c ← escapedChar? [c₁, c₂, c₃, c₄]
    (readBasic cs).map (prepend c)
  | '\\' :: 'U' :: c₁ :: c₂ :: c₃ :: c₄ :: c₅ :: c₆ :: c₇ :: c₈ :: cs => do
    let c ← escapedChar? [c₁, c₂, c₃, c₄, c₅, c₆, c₇, c₈]
    (readBasic cs).map (prepend c)
  | '\\' :: e :: cs => do
    let c ← simpleEscape? e
    (readBasic cs).map (prepend c)
  | c :: cs => if isTextChar c && c ≠ '\\' then (readBasic cs).map (prepend c) else none

/-- The end of a text over several lines after its three closing quotes: of the quotes that follow,
up to two belong to the text, which then stand before the closing ones. -/
def closeQuotes (quote : Char) : List Char → List Char × List Char
  | c :: d :: cs =>
    if c = quote then if d = quote then ([quote, quote], cs) else ([quote], d :: cs)
    else ([], c :: d :: cs)
  | [c] => if c = quote then ([quote], []) else ([], [c])
  | [] => ([], [])

/-- Whether nothing but white space is left of a line that another one follows. -/
def endsLine (cs : List Char) : Bool := (newline? (skipSpace cs)).isSome

/-- A text over several lines up to its closing quotes. A backslash at the end of a line puts off
what comes next till after white space and further new lines. -/
def readLongBasic (putOff : Bool) : List Char → Option (List Char × List Char)
  | [] => none
  | '"' :: '"' :: '"' :: cs => some (closeQuotes '"' cs)
  | '\\' :: 'u' :: c₁ :: c₂ :: c₃ :: c₄ :: cs => do
    let c ← escapedChar? [c₁, c₂, c₃, c₄]
    (readLongBasic false cs).map (prepend c)
  | '\\' :: 'U' :: c₁ :: c₂ :: c₃ :: c₄ :: c₅ :: c₆ :: c₇ :: c₈ :: cs => do
    let c ← escapedChar? [c₁, c₂, c₃, c₄, c₅, c₆, c₇, c₈]
    (readLongBasic false cs).map (prepend c)
  | '\\' :: e :: cs =>
    match simpleEscape? e with
    | some c => (readLongBasic false cs).map (prepend c)
    | none => if endsLine (e :: cs) then readLongBasic true (e :: cs) else none
  | '\n' :: cs =>
    if putOff then readLongBasic true cs else (readLongBasic false cs).map (prepend '\n')
  | '\r' :: '\n' :: cs =>
    if putOff then readLongBasic true cs else (readLongBasic false cs).map (prepend '\n')
  | c :: cs =>
    if putOff && isSpace c then readLongBasic true cs
    else if isTextChar c && c ≠ '\\' then (readLongBasic false cs).map (prepend c)
    else none

/-- A text without escapes on one line, up to its closing quote. -/
def readLiteral (cs : List Char) : Option (List Char × List Char) :=
  let isContent c := isTextChar c && c ≠ '\''
  match cs.dropWhile isContent with
  | '\'' :: rest => some (cs.takeWhile isContent, rest)
  | _ => none

/-- A text without escapes over several lines, up to its closing quotes. -/
def readLongLiteral : List Char → Option (List Char × List Char)
  | [] => none
  | '\'' :: '\'' :: '\'' :: cs => some (closeQuotes '\'' cs)
  | '\n' :: cs => (readLongLiteral cs).map (prepend '\n')
  | '\r' :: '\n' :: cs => (readLongLiteral cs).map (prepend '\n')
  | c :: cs => if isTextChar c then (readLongLiteral cs).map (prepend c) else none

/-- A new line directly after the opening quotes does not belong to a text. -/
def skipNewline (cs : List Char) : List Char := (newline? cs).getD cs

/-- A text with its quotes; the answer is `none` also where none begins. -/
def readText : List Char → Option (List Char × List Char)
  | '"' :: '"' :: '"' :: cs => readLongBasic false (skipNewline cs)
  | '"' :: cs => readBasic cs
  | '\'' :: '\'' :: '\'' :: cs => readLongLiteral (skipNewline cs)
  | '\'' :: cs => readLiteral cs
  | _ => none

/-! ## Keys -/

def isBareKeyChar (c : Char) : Bool := c.isAlphanum || c == '-' || c == '_'

def readKey : List Char → Option (String × List Char)
  | '"' :: cs => (readBasic cs).map fun (key, rest) => (String.ofList key, rest)
  | '\'' :: cs => (readLiteral cs).map fun (key, rest) => (String.ofList key, rest)
  | cs =>
    match cs.takeWhile isBareKeyChar with
    | [] => none
    | key => some (String.ofList key, cs.dropWhile isBareKeyChar)

/-- A key and the equals sign after it. -/
def readKeyAndSign (cs : List Char) : Option (String × List Char) := do
  let (key, cs) ← readKey cs
  match skipSpace cs with
  | '=' :: cs => some (key, skipSpace cs)
  | _ => none

/-- Whether no key stands twice. -/
def areDistinct : List String → Bool
  | [] => true
  | key :: keys => !keys.contains key && areDistinct keys

/-! ## Values -/

mutual

/-- A value, nested at most `fuel` readers deep. -/
def readValue : (fuel : Nat) → List Char → Option (Toml × List Char)
  | 0, _ => none
  | _, 't' :: 'r' :: 'u' :: 'e' :: cs => some (.bool true, cs)
  | _, 'f' :: 'a' :: 'l' :: 's' :: 'e' :: cs => some (.bool false, cs)
  | fuel + 1, '[' :: cs => do
    let (items, cs) ← readItems fuel (skipFiller false cs)
    some (.array items, cs)
  | fuel + 1, '\x7b' :: cs =>
    match skipSpace cs with
    | '\x7d' :: cs => some (.table [], cs)
    | cs => do
      let (entries, cs) ← readEntries fuel cs
      if areDistinct (entries.map (·.1)) then some (.table entries, cs) else none
  | _, cs => (readText cs).map fun (s, rest) => (.string (String.ofList s), rest)

/-- The items of an array up to its closing bracket; a comma may stand after the last one. -/
def readItems : (fuel : Nat) → List Char → Option (List Toml × List Char)
  | 0, _ => none
  | _, ']' :: cs => some ([], cs)
  | fuel + 1, cs => do
    let (item, cs) ← readValue fuel cs
    match skipFiller false cs with
    | ']' :: cs => some ([item], cs)
    | ',' :: cs => do
      let (items, cs) ← readItems fuel (skipFiller false cs)
      some (item :: items, cs)
    | _ => none

/-- The entries of a table on one line up to its closing brace. -/
def readEntries : (fuel : Nat) → List Char → Option (List (String × Toml) × List Char)
  | 0, _ => none
  | fuel + 1, cs => do
    let (key, cs) ← readKeyAndSign cs
    let (value, cs) ← readValue fuel cs
    match skipSpace cs with
    | '\x7d' :: cs => some ([(key, value)], cs)
    | ',' :: cs => do
      let (entries, cs) ← readEntries fuel (skipSpace cs)
      some ((key, value) :: entries, cs)
    | _ => none

end

/-! ## Documents -/

inductive Statement where
  | entry (key : String) (value : Toml)
  /-- The header of a table, which is one more in a list of tables. -/
  | header (name : String)

/-- The name in a header after its opening brackets. -/
def readHeader (cs : List Char) : Option (String × List Char) := do
  let (name, cs) ← readKey (skipSpace cs)
  match skipSpace cs with
  | ']' :: ']' :: cs => some (name, cs)
  | _ => none

/-- A statement on a line of its own, and what follows the line. -/
def readStatement (fuel : Nat) : List Char → Option (Statement × List Char)
  | '[' :: '[' :: cs => do
    let (name, cs) ← readHeader cs
    some (.header name, ← lineEnd? cs)
  | cs => do
    let (key, cs) ← readKeyAndSign cs
    let (value, cs) ← readValue fuel cs
    some (.entry key value, ← lineEnd? cs)

/-- At most `fuel` lines and statements. -/
def readStatements : (fuel : Nat) → List Char → Option (List Statement)
  | 0, _ => none
  | fuel + 1, cs =>
    match skipSpace cs with
    | [] => some []
    | cs =>
      match lineEnd? cs with
      | some rest => readStatements fuel rest
      | none => do
        let (statement, rest) ← readStatement fuel cs
        (readStatements fuel rest).map (statement :: ·)

/-- The entries in front of all headers, and the tables of the headers. -/
def sections : List Statement → List (String × Toml) × List (String × List (String × Toml))
  | [] => ([], [])
  | .entry key value :: rest =>
    match sections rest with
    | (entries, tables) => ((key, value) :: entries, tables)
  | .header name :: rest =>
    match sections rest with
    | (entries, tables) => ([], (name, entries) :: tables)

/-- The tables of one header each as a list under their name. -/
def gather (tables : List (String × List (String × Toml))) : List (String × Toml) :=
  (tables.map (·.1)).eraseDups.map fun name =>
    (name, .array ((tables.filter (·.1 == name)).map (.table ·.2)))

/-- The entries of a document, in which no table has a key twice. -/
def document? (statements : List Statement) : Option (List (String × Toml)) :=
  let (entries, tables) := sections statements
  let all := entries ++ gather tables
  if areDistinct (all.map (·.1)) && tables.all (fun t => areDistinct (t.2.map (·.1))) then some all
  else none

/-- Reads a document. A byte order mark in front is passed over. -/
def parse? (s : String) : Option (List (String × Toml)) :=
  let cs :=
    match s.toList with
    | '\ufeff' :: cs => cs
    | cs => cs
  (readStatements (2 * cs.length + 2) cs).bind document?

end Interposer.Toml
