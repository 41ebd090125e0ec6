import Interposer.Source.Cursor
import Interposer.Source.Number
import Interposer.Source.Terminal
import Interposer.Text.WordChar

/-! From characters to tokens. What the parser expects decides on the mode, which is the set of
tokens that are looked for, and the longest of them counts. White space separates tokens; a line
feed is white space where no end of a line is looked for. -/

namespace Interposer.Source

/-- A token: a terminal, or a piece of text that is none. -/
structure Token where
  terminal : Option Terminal
  /-- The end of what comes before, white space aside. -/
  before : Cursor
  start : Cursor
  stop : Cursor
  /-- Whether the text is that of a keyword, which may be an identifier where it stands. -/
  isKeyword : Bool
  deriving Inhabited

namespace Lexer

def isSpace (c : Char) : Bool :=
  c == ' ' || c == '\t' || c == '\n' || c == '\r' || c == '\x0b' || c == '\x0c'

/-- The length of the rest of a block comment, its end included. -/
def blockComment : List Char → Option Nat
  | [] => none
  | '*' :: '/' :: _ => some 2
  | c :: cs => if c = '\x00' then none else (blockComment cs).map (· + 1)

def comment : List Char → Nat
  | '/' :: '/' :: cs => (cs.takeWhile fun c => c ≠ '\n' && c ≠ '\x00').length + 2
  | '/' :: '*' :: cs => ((blockComment cs).map (· + 2)).getD 0
  | _ => 0

def word : List Char → Nat
  | c :: cs => if Text.isWordStart c then (cs.takeWhile Text.isWordChar).length + 1 else 0
  | [] => 0

def isRawContent (c : Char) : Bool := c ≠ '\x60' && c ≠ '\x00'

def isQuotedContent (c : Char) : Bool := c ≠ '"' && c ≠ '\\' && c ≠ '\n' && c ≠ '\x00'

/-- What stands inside of strings and at their ends, where no white space may come before. Content
goes before everything else, and between backquotes there may be none. -/
def inString (valid : TerminalSet) (cs : List Char) : Option (Terminal × Nat) :=
  if valid.contains .rawContent then some (.rawContent, (cs.takeWhile isRawContent).length)
  else
    match cs with
    | [] => none
    | c :: _ =>
      if valid.contains .quotedContent && isQuotedContent c then
        some (.quotedContent, (cs.takeWhile isQuotedContent).length)
      else if valid.contains .closeBackquote && c = '\x60' then some (.closeBackquote, 1)
      else if valid.contains .closeQuote && c = '"' then some (.closeQuote, 1)
      else if valid.contains .escape && 0 < Escape.length cs then some (.escape, Escape.length cs)
      else none

/-- The operators, with their characters. -/
def operatorTable : List (List Char × Terminal) :=
  Terminal.operators.map fun (text, t) => (text.toList, t)

def keywordTable : List (List Char × Terminal) :=
  Terminal.keywords.map fun (text, t) => (text.toList, t)

def operatorsAt (valid : TerminalSet) (cs : List Char) : List (Terminal × Nat) :=
  operatorTable.filterMap fun (text, t) =>
    if text.isPrefixOf cs && valid.contains t then some (t, text.length) else none

/-- The kinds of tokens that are told from their first character, with their lengths. -/
def candidates (valid : TerminalSet) (cs : List Char) : List (Terminal × Nat) :=
  match cs with
  | [] => []
  | c :: _ =>
    let literals : List (Terminal × Nat) :=
      if c.isDigit || c == '.' then
        [(.intLiteral, Number.integer cs), (.floatLiteral, Number.float cs),
          (.imaginaryLiteral, Number.imaginary cs)]
      else if c == '\'' then [(.runeLiteral, Rune.length cs)]
      else if c == '/' then [(.comment, comment cs)]
      else if c == '\n' then [(.newline, (cs.takeWhile (· = '\n')).length)]
      else if c == '"' then [(.openQuote, 1)]
      else if c == '\x60' then [(.openBackquote, 1)]
      else []
    let words := if valid.contains .identifier then [(.identifier, word cs)] else []
    literals.filter (fun (t, _) => valid.contains t) ++ words ++ operatorsAt valid cs

def longest (cs : List (Terminal × Nat)) : Option (Terminal × Nat) :=
  cs.foldl (fun best (t, n) =>
    match best with
    | some (_, m) => if m < n then some (t, n) else best
    | none => if 0 < n then some (t, n) else none) none

/-- At the end of a text a null may be taken to stand there. -/
def atEnd (valid : TerminalSet) : Option Terminal :=
  if valid.contains .endOfText then some .endOfText
  else if valid.contains .null then some .null
  else none

/-- The token at a place with its end, after white space if there is some; or the place where white
space ends if there is no token. The fuel is the number of characters left. -/
def scanFrom (valid : TerminalSet) (spaced : Bool) :
    Nat → Cursor → Except Cursor (Terminal × Cursor × Cursor)
  | fuel, c =>
    match if spaced then none else inString valid c.rest with
    | some (t, n) => .ok (t, c, c.skip n)
    | none =>
      match c.rest, longest (candidates valid c.rest), fuel with
      | [], _, _ =>
        match atEnd valid with
        | some t => .ok (t, c, c)
        | none => .error c
      | _ :: _, some (t, n), _ => .ok (t, c, c.skip n)
      | x :: _, none, fuel + 1 => if isSpace x then scanFrom valid true fuel c.next else .error c
      | _ :: _, none, 0 => .error c

def scan (valid : TerminalSet) (c : Cursor) : Except Cursor (Terminal × Cursor × Cursor) :=
  scanFrom valid false c.rest.length c

/-! ## Modes -/

def operandStarts : List Terminal :=
  [.identifier, .openBackquote, .openQuote, .intLiteral, .floatLiteral, .imaginaryLiteral,
    .runeLiteral]

def unaryOperators : List Terminal :=
  [.star, .arrow, .plus, .minus, .bang, .caret, .ampersand]

def binaryOperators : List Terminal :=
  [.star, .slash, .percent, .leftShift, .rightShift, .ampersand, .ampersandCaret, .plus, .minus,
    .bar, .caret, .equal, .notEqual, .less, .lessEqual, .greater, .greaterEqual, .logicalAnd,
    .logicalOr]

def assignOperators : List Terminal :=
  [.starAssign, .slashAssign, .percentAssign, .leftShiftAssign, .rightShiftAssign,
    .ampersandAssign, .ampersandCaretAssign, .plusAssign, .minusAssign, .barAssign, .caretAssign]

def keywordSet : TerminalSet := .ofList (Terminal.keywords.map (·.2))

/-- The terminals looked for where none in particular is expected. -/
def anything : TerminalSet :=
  (TerminalSet.ofList (Terminal.all.filter fun t =>
    t != .newline && t != .rawContent && t != .quotedContent)).diff keywordSet

/-- The modes of the lexer: for anything; for an operand, without and with an end of a line; for
what goes on after an operand, a type or a string in different places; and for the content of
strings. -/
def modes : List TerminalSet :=
  anything ::
    [operandStarts ++ unaryOperators ++
        ([.endOfText, .semicolon, .leftParen, .rightParen, .comma, .leftBracket, .rightBracket,
          .ellipsis, .tilde, .leftBrace, .rightBrace, .colon] : List Terminal),
      operandStarts ++ unaryOperators ++
        ([.endOfText, .newline, .semicolon, .null, .leftParen, .rightParen, .comma, .assign,
          .leftBracket, .tilde, .leftBrace, .rightBrace, .bar] : List Terminal),
      binaryOperators ++
        ([.identifier, .dot, .leftParen, .rightParen, .comma, .assign, .leftBracket, .rightBracket,
          .ellipsis, .tilde, .leftBrace, .arrow, .define, .colon, .openBackquote,
          .openQuote] : List Terminal),
      binaryOperators ++ assignOperators ++
        ([.endOfText, .identifier, .newline, .semicolon, .null, .dot, .leftParen, .rightParen,
          .comma, .assign, .leftBracket, .tilde, .leftBrace, .rightBrace, .arrow, .define,
          .increment, .decrement, .colon, .openBackquote, .openQuote] : List Terminal),
      binaryOperators ++ assignOperators ++
        ([.semicolon, .dot, .leftParen, .comma, .assign, .leftBracket, .leftBrace, .arrow, .define,
          .increment, .decrement, .closeBackquote] : List Terminal),
      binaryOperators ++ assignOperators ++
        ([.dot, .leftParen, .comma, .assign, .leftBracket, .leftBrace, .define] : List Terminal),
      binaryOperators ++
        ([.semicolon, .dot, .leftParen, .rightParen, .comma, .assign, .leftBracket, .rightBracket,
          .ellipsis, .leftBrace, .rightBrace, .define, .colon] : List Terminal),
      binaryOperators ++
        ([.identifier, .newline, .semicolon, .null, .dot, .leftParen, .comma, .leftBracket,
          .leftBrace, .rightBrace] : List Terminal),
      [.quotedContent, .closeQuote, .escape],
      [.rawContent]].map fun ts => .ofList (.comment :: ts)

/-- Terminals that would be found in the place of others, if they were looked for where only the
others are expected. -/
def shadowing : List (Terminal × TerminalSet) :=
  [(.newline, .ofList Terminal.all), (.increment, .single .plus), (.decrement, .single .minus),
    (.arrow, .single .less), (.ampersandCaretAssign, .single .ampersand),
    (.floatLiteral, .single .dot), (.imaginaryLiteral, .single .dot),
    (.openBackquote, .single .closeBackquote), (.closeBackquote, .single .openBackquote),
    (.closeQuote, .single .openQuote)]

/-- Whether a mode has all terminals that are expected, and none that hides one of them. -/
def suits (expected mode : TerminalSet) : Bool :=
  expected.subset mode && shadowing.all fun (t, hidden) =>
    !mode.contains t || expected.contains t || !expected.meets hidden

/-- The mode where some terminals are expected. A keyword is a word like others to the lexer. -/
def mode (expected : TerminalSet) : TerminalSet :=
  let words :=
    if expected.meets keywordSet then expected.diff keywordSet ∪ .single .identifier else expected
  (modes.find? (suits words)).getD words

/-- What is expected where the parser has lost its way. -/
def lost : TerminalSet := anything ∪ keywordSet

/-- How far a text goes on like a token that it does not complete, from `c` on. -/
def reach (c c' : Cursor) : Cursor :=
  c'.skip (max (Rune.reach c'.rest) (if c'.offset = c.offset then Escape.reach c'.rest else 0))

/-- Where a piece of text ends that is no token: where one begins, or the text ends. -/
def strayEnd : Nat → Cursor → Cursor → Cursor
  | 0, stop, _ => stop
  | fuel + 1, stop, c =>
    if c.offset = stop.offset ∧ c.rest.isEmpty then stop
    else
      let c := if c.offset = stop.offset then c.next else c
      match scan anything c with
      | .ok _ => c
      | .error c' => strayEnd fuel c (reach c c')

def keyword? (text : List Char) : Option Terminal :=
  (keywordTable.find? (·.1 == text)).map (·.2)

/-- The token at a place where some terminals are expected. -/
def token (expected : TerminalSet) (before : Cursor) : Token :=
  let c := if before.offset = 0 ∧ before.rest.head? = some '\ufeff' then before.next else before
  let found : Except Cursor (Terminal × Cursor × Cursor) :=
    match scan (mode expected) c with
    | .ok found => .ok found
    | .error _ => scan anything c
  match found with
  | .ok (.identifier, start, stop) =>
    match keyword? (start.textTo stop) with
    | some k => ⟨some (if expected.contains k then k else .identifier), before, start, stop, true⟩
    | none => ⟨some .identifier, before, start, stop, false⟩
  | .ok (t, start, stop) => ⟨some t, before, start, stop, false⟩
  | .error start =>
    let stop := strayEnd (2 * c.rest.length + 2) start (reach c start)
    ⟨none, before, start, stop, false⟩

end Lexer

end Interposer.Source
