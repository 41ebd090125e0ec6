import Interposer.Source.Grammar.Production

/-! States of the parser: which productions the text so far may be in the middle of. States are
computed as they are needed. -/

namespace Interposer.Source

/-- A production of which some symbols have been taken. Which ones they were does not matter any
more. -/
structure Progress where
  lhs : Nonterminal
  taken : Nat
  rest : List Symbol
  level : Int
  grouping : Grouping
  weight : Int
  deriving DecidableEq, Inhabited

def Production.begun (p : Production) : Progress :=
  ⟨p.lhs, 1, p.symbols.tail, p.level, p.grouping, p.weight⟩

/-- Productions in progress, with the terminals that may follow each of them. -/
abbrev State := List (Progress × TerminalSet)

/-- What to do on a terminal. -/
inductive Action where
  | shift (next : State)
  | reduce (lhs : Nonterminal) (count : Nat) (weight : Int)
  | accept
  /-- Take a comment, which changes nothing. -/
  | skip

namespace State

/-- States are equal as sets. -/
def same (s s' : State) : Bool := s.isPerm s'

/-! ## Lookahead -/

/-- What ends a list of statements. -/
def closers : TerminalSet := .ofList [.rightBrace, .kwCase, .kwDefault]

/-- What may follow a type elsewhere. -/
def typeFollowers : TerminalSet :=
  .ofList [.assign, .leftBrace, .bar, .openBackquote, .openQuote]

def bracket : TerminalSet := .single .leftBracket

def isType : Nonterminal → Bool
  | .simpleType | .genericType | .qualifiedType | .pointerType | .arrayType | .sliceType
  | .structType | .tildeType | .mapType | .chanType | .funcType | .parenType | .interfaceType
  | .fieldDecls => true
  | _ => false

/-- Parts of structs and interfaces, where no statements are. -/
def isMember : Nonterminal → Bool
  | .fieldDecl | .moreFieldDecls | .methodSpec | .moreInterfaceElems => true
  | _ => false

/-- Adds to what follows a phrase what may follow it elsewhere, where the parser makes no
difference: a list of statements may end in three ways, a type at the end of a line may stand in
other declarations, and arguments of a type may stand in front of an index. -/
def widen (n : Nonterminal) (s : TerminalSet) : TerminalSet :=
  let inside := !s.contains .endOfText
  let lineEnd := inside && s.contains .newline
  let closes := inside && s.contains .rightBrace && (n == .emptyLabeledStmt || n == .statements)
  let among := (lineEnd && !isMember n) || closes
  s ∪ (if among then closers else ∅) ∪
    (if isType n && lineEnd && !s.contains .leftParen then typeFollowers else ∅) ∪
    (if n = .typeArgs ∨ n = .genericType then bracket else ∅)

def inString : Nonterminal → Bool
  | .rawString | .quotedString | .moreQuotedParts => true
  | _ => false

/-- What follows the first symbol of what is left, where `s` follows the production. -/
def follow (rest : List Symbol) (s : TerminalSet) : TerminalSet :=
  match rest with
  | _ :: x :: _ => Grammar.first x
  | _ => s

/-- What follows a phrase `n` that begins at this state, if one may. -/
def lookahead (state : State) (n : Nonterminal) : Option TerminalSet :=
  state.foldl (fun found (p, s) =>
    match p.rest with
    | .nonterminal m :: _ =>
      match Grammar.corner m n with
      | some c => some (found.getD ∅ ∪ c.lookahead (follow p.rest s))
      | none => found
    | _ => found) none

/-! ## Going on -/

/-- Adds a production in progress, or what follows it if it is there. -/
def add (p : Progress) (s : TerminalSet) : State → State
  | [] => [(p, s)]
  | (p', s') :: state => if p' = p then (p', s' ∪ s) :: state else (p', s') :: add p s state

/-- Productions of which `x` is the next symbol, once it is taken. -/
def advance (state : State) (x : Symbol) : State :=
  let state' := state.foldl (fun acc (p, s) =>
    match p.rest with
    | y :: rest => if y = x then add { p with taken := p.taken + 1, rest } s acc else acc
    | [] => acc) []
  (Grammar.starts x).foldl (fun acc p =>
    match state.lookahead p.lhs with
    | some s => add p.begun (widen p.lhs s) acc
    | none => acc) state'

/-- The state after `x`. A phrase that is complete may be followed by an index, unless it is part of
a string. -/
def goto (state : State) (x : Symbol) : State :=
  match (state.advance x).map fun (p, s) => (p, widen p.lhs s) with
  | [(p, s)] => [(p, if p.rest.isEmpty && !inString p.lhs then s ∪ bracket else s)]
  | state => state

def start : State := [(⟨.text, 0, [.nonterminal .file], 0, .free, 0⟩, .single .endOfText)]

/-! ## What to do -/

/-- The empty phrases that may stand here. -/
def emptyPhrases (state : State) : State :=
  Grammar.nullable.filterMap fun n =>
    (state.lookahead n).map fun s => (⟨n, 0, [], 0, .free, 0⟩, widen n s)

/-- The terminals that may come next. -/
def expected (state : State) : TerminalSet :=
  (state ++ state.emptyPhrases).foldl (fun acc (p, s) =>
    acc ∪ match p.rest with
      | x :: _ => Grammar.first x
      | [] => s) (.single .comment)

/-- Shorter productions come first, then those of earlier nonterminals. -/
def precedes (p p' : Progress) : Bool :=
  p.taken < p'.taken || (p.taken = p'.taken && p.lhs.ctorIdx < p'.lhs.ctorIdx)

def insert (p : Progress) : List Progress → List Progress
  | [] => [p]
  | p' :: ps => if precedes p p' then p :: p' :: ps else p' :: insert p ps

/-- The complete productions that `t` may follow. -/
def complete (state : State) (t : Terminal) : List Progress :=
  (state ++ state.emptyPhrases).foldl (fun acc (p, s) =>
    if p.rest.isEmpty && s.contains t then insert p acc else acc) []

def highest (ps : List Progress) : List Progress :=
  ps.filter fun p => ps.all (·.level ≤ p.level)

/-- The productions that go on with `t`. -/
def continuing (state : State) (t : Terminal) : List Progress :=
  state.filterMap fun (p, _) =>
    match p.rest with
    | x :: _ => if (Grammar.first x).contains t then some p else none
    | [] => none

def reduction (p : Progress) : Action :=
  if p.lhs = .text then .accept else .reduce p.lhs p.taken p.weight

/-- Whether productions that are complete, `p` and `ps`, are given up for `going`, those that go on,
or the other way round, if either. Of a repetition the part that is complete comes first; else the
higher level wins, and on equal levels the grouping decides. -/
def preference (p : Progress) (ps going : List Progress) : Grouping :=
  let higher := going.any (p.level < ·.level)
  let lower := going.any (·.level < p.level)
  if higher then (if lower then .free else .right)
  else if lower then .left
  else if ps.all (·.grouping = p.grouping) then p.grouping
  else .free

/-- What to do on `t`. Both ways are tried where nothing decides between them. -/
def actions (state : State) (t : Terminal) : List Action :=
  if t = .comment then [.skip]
  else
    let done := state.complete t
    match state.continuing t, highest done with
    | [], ps => ps.map reduction
    | _ :: _, [] => [.shift (state.goto (.terminal t))]
    | going, p :: ps =>
      let going := going.filter (0 < ·.taken)
      let reductions := (p :: ps).map reduction
      let shift := .shift (state.goto (.terminal t))
      if p.lhs.isRepetition && (done ++ going).all (·.lhs = p.lhs) then reductions
      else
        match preference p ps going with
        | .left => reductions
        | .right => [shift]
        | .free => reductions ++ [shift]

end State

end Interposer.Source
