/-! The terminals of Go's grammar and sets of them. Quotes are terminals of their own, as is what
stands between them. Where alternatives are compared, the order of the constructors counts. -/

namespace Interposer.Source

inductive Terminal where
  | endOfText
  | identifier
  | newline
  | semicolon
  | null
  | kwPackage
  | kwImport
  | dot
  | underscore
  | leftParen
  | rightParen
  | kwConst
  | comma
  | assign
  | kwVar
  | kwFunc
  | leftBracket
  | rightBracket
  | ellipsis
  | kwType
  | star
  | kwStruct
  | tilde
  | leftBrace
  | rightBrace
  | kwInterface
  | bar
  | kwMap
  | kwChan
  | arrow
  | define
  | increment
  | decrement
  | starAssign
  | slashAssign
  | percentAssign
  | leftShiftAssign
  | rightShiftAssign
  | ampersandAssign
  | ampersandCaretAssign
  | plusAssign
  | minusAssign
  | barAssign
  | caretAssign
  | colon
  | kwFallthrough
  | kwBreak
  | kwContinue
  | kwGoto
  | kwReturn
  | kwGo
  | kwDefer
  | kwIf
  | kwElse
  | kwFor
  | kwRange
  | kwSwitch
  | kwCase
  | kwDefault
  | kwSelect
  | kwNew
  | kwMake
  | plus
  | minus
  | bang
  | caret
  | ampersand
  | slash
  | percent
  | leftShift
  | rightShift
  | ampersandCaret
  | equal
  | notEqual
  | less
  | lessEqual
  | greater
  | greaterEqual
  | logicalAnd
  | logicalOr
  | openBackquote
  | rawContent
  | closeBackquote
  | openQuote
  | quotedContent
  | closeQuote
  | escape
  | intLiteral
  | floatLiteral
  | imaginaryLiteral
  | runeLiteral
  | kwNil
  | kwTrue
  | kwFalse
  | kwIota
  | comment
  deriving DecidableEq, Repr, Inhabited

namespace Terminal

def all : List Terminal := (List.range (comment.ctorIdx + 1)).map ofNat

/-- The words that are terminals of their own wherever the grammar has a use for them. -/
def keywords : List (String × Terminal) :=
  [("package", kwPackage), ("import", kwImport), ("_", underscore), ("const", kwConst),
    ("var", kwVar), ("func", kwFunc), ("type", kwType), ("struct", kwStruct),
    ("interface", kwInterface), ("map", kwMap), ("chan", kwChan), ("fallthrough", kwFallthrough),
    ("break", kwBreak), ("continue", kwContinue), ("goto", kwGoto), ("return", kwReturn),
    ("go", kwGo), ("defer", kwDefer), ("if", kwIf), ("else", kwElse), ("for", kwFor),
    ("range", kwRange), ("switch", kwSwitch), ("case", kwCase), ("default", kwDefault),
    ("select", kwSelect), ("new", kwNew), ("make", kwMake), ("nil", kwNil), ("true", kwTrue),
    ("false", kwFalse), ("iota", kwIota)]

/-- The terminals made of other characters than words are, except quotes. -/
def operators : List (String × Terminal) :=
  [(";", semicolon), ("\x00", null), (".", dot), ("(", leftParen), (")", rightParen), (",", comma),
    ("=", assign), ("[", leftBracket), ("]", rightBracket), ("...", ellipsis), ("*", star),
    ("~", tilde), ("\x7b", leftBrace), ("\x7d", rightBrace), ("|", bar), ("<-", arrow),
    (":=", define), ("++", increment), ("--", decrement), ("*=", starAssign), ("/=", slashAssign),
    ("%=", percentAssign), ("<<=", leftShiftAssign), (">>=", rightShiftAssign),
    ("&=", ampersandAssign), ("&^=", ampersandCaretAssign), ("+=", plusAssign), ("-=", minusAssign),
    ("|=", barAssign), ("^=", caretAssign), (":", colon), ("+", plus), ("-", minus), ("!", bang),
    ("^", caret), ("&", ampersand), ("/", slash), ("%", percent), ("<<", leftShift),
    (">>", rightShift), ("&^", ampersandCaret), ("==", equal), ("!=", notEqual), ("<", less),
    ("<=", lessEqual), (">", greater), (">=", greaterEqual), ("&&", logicalAnd), ("||", logicalOr)]

/-- Whether a terminal shows in a tree; ends of lines and of the text do not. -/
def isVisible : Terminal → Bool
  | newline | endOfText => false
  | _ => true

end Terminal

/-- A set of terminals, as the bits of a number. -/
structure TerminalSet where
  bits : Nat
  deriving DecidableEq, Repr, Inhabited

namespace TerminalSet

def empty : TerminalSet := ⟨0⟩

def single (t : Terminal) : TerminalSet := ⟨1 <<< t.ctorIdx⟩

def union (s s' : TerminalSet) : TerminalSet := ⟨s.bits ||| s'.bits⟩

instance : EmptyCollection TerminalSet := ⟨empty⟩

instance : Union TerminalSet := ⟨union⟩

def contains (s : TerminalSet) (t : Terminal) : Bool := s.bits.testBit t.ctorIdx

def ofList (ts : List Terminal) : TerminalSet := ts.foldl (fun s t => s ∪ single t) ∅

def meets (s s' : TerminalSet) : Bool := s.bits &&& s'.bits != 0

def subset (s s' : TerminalSet) : Bool := s.bits &&& s'.bits = s.bits

def diff (s s' : TerminalSet) : TerminalSet := ⟨s.bits ^^^ (s.bits &&& s'.bits)⟩

end TerminalSet

end Interposer.Source
