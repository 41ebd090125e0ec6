import Interposer.Source.Tree
import Interposer.Source.Syntax

/-! Trees without what the rules hide: parts that do not show stand for themselves, and there are no
comments, with one exception. -/

namespace Interposer.Source

/-- A token or a phrase of the source, with the text that it takes up. -/
inductive Outline where
  | token (t : Terminal) (span : Span) (text : List Char)
  | phrase (n : Nonterminal) (span : Span) (text : List Char) (parts : List Outline)
  deriving Inhabited

namespace Outline

/-- Whether a comment is kept. In front of the name of a package it is taken for the name. -/
def keeps (within : Option Nonterminal) (t : Terminal) : Bool :=
  t.isVisible && (t ≠ .comment || within = some .packageClause)

mutual

/-- What a tree shows, as a part of some phrase. -/
def ofTree (within : Option Nonterminal) : Tree → List Outline
  | .mk label summary children =>
    let span : Span := ⟨summary.start.offset, summary.stop.offset⟩
    let text := summary.start.textTo summary.stop
    match label with
    | .terminal t => if keeps within t then [.token t span text] else []
    | .nonterminal n =>
      if n.isVisible then [.phrase n span text (ofTrees (some n) children)]
      else ofTrees within children
    | .error | .skipped => []

def ofTrees (within : Option Nonterminal) : List Tree → List Outline
  | [] => []
  | t :: ts => ofTree within t ++ ofTrees within ts

end

def span : Outline → Span
  | .token _ span _ => span
  | .phrase _ span _ _ => span

def chars : Outline → List Char
  | .token _ _ text => text
  | .phrase _ _ text _ => text

def text (o : Outline) : String := String.ofList o.chars

def parts : Outline → List Outline
  | .token .. => []
  | .phrase _ _ _ parts => parts

def isToken (o : Outline) (t : Terminal) : Bool :=
  match o with
  | .token t' _ _ => t' = t
  | .phrase .. => false

def isPhrase (o : Outline) (n : Nonterminal) : Bool :=
  match o with
  | .phrase n' _ _ _ => n' = n
  | .token .. => false

end Outline

end Interposer.Source
