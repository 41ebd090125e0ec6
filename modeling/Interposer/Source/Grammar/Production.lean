import Interposer.Source.Grammar

/-! The productions of the grammar: what a phrase begins with, and what follows the phrases that
stand at its beginning. Only a file may be empty, and nothing begins with a file but a text, so the
first symbol of a production decides. -/

namespace Interposer.Source

structure Production where
  lhs : Nonterminal
  symbols : List Symbol
  level : Int
  grouping : Grouping
  weight : Int
  deriving DecidableEq, Inhabited

def Nonterminal.productions (n : Nonterminal) : List Production :=
  n.rules.flatMap fun r => r.phrase.ways.map fun way => ⟨n, way, r.level, r.grouping, r.weight⟩

namespace Grammar

def productionTable : Array (List Production) :=
  (Nonterminal.all.map Nonterminal.productions).toArray

def productions (n : Nonterminal) : List Production := productionTable.getD n.ctorIdx []

/-- The nonterminals that may be empty. -/
def nullable : List Nonterminal :=
  Nonterminal.all.filter fun n => (productions n).any (·.symbols.isEmpty)

/-! ## First terminals -/

/-- The symbols that productions of a nonterminal begin with. -/
def leadingTable : Array (List Symbol) :=
  (Nonterminal.all.map fun n =>
    ((productions n).filterMap (·.symbols.head?)).eraseDups).toArray

def firstOf (table : Array TerminalSet) : Symbol → TerminalSet
  | .terminal t => .single t
  | .nonterminal n => table.getD n.ctorIdx ∅

/-- A step towards the first terminals: those of what a nonterminal begins with. -/
def firstStep (table : Array TerminalSet) : Array TerminalSet :=
  leadingTable.map fun symbols => symbols.foldl (fun s x => s ∪ firstOf table x) ∅

/-- Steps until nothing changes. -/
def settle {α : Type} [DecidableEq α] (step : α → α) : Nat → α → α
  | 0, a => a
  | fuel + 1, a =>
    let a' := step a
    if a' = a then a else settle step fuel a'

def firstTable : Array TerminalSet :=
  settle firstStep Nonterminal.all.length (leadingTable.map fun _ => ∅)

/-- The terminals that a symbol may begin with. -/
def first (x : Symbol) : TerminalSet := firstOf firstTable x

/-! ## What follows phrases at the beginning of a phrase -/

/-- What follows a phrase that begins another one: some terminals, and whatever follows the other
phrase if both end together. -/
structure Corner where
  followers : TerminalSet
  endsBoth : Bool
  deriving DecidableEq, Inhabited

namespace Corner

def union (c c' : Corner) : Corner := ⟨c.followers ∪ c'.followers, c.endsBoth || c'.endsBoth⟩

/-- The terminals that follow where `s` follows the phrase that is begun. -/
def lookahead (c : Corner) (s : TerminalSet) : TerminalSet :=
  if c.endsBoth then c.followers ∪ s else c.followers

end Corner

/-- The nonterminals that productions begin with, and what follows them there if anything does. -/
def headTable : Array (List (Nonterminal × Option TerminalSet)) :=
  (Nonterminal.all.map fun n =>
    ((productions n).filterMap fun p =>
      match p.symbols with
      | .nonterminal m :: x :: _ => some (m, some (first x))
      | [.nonterminal m] => some (m, none)
      | _ => none).eraseDups).toArray

/-- What phrases at the beginning have to do with each other, from the pairs yet to be seen. -/
def spread : Nat → List (Nonterminal × Corner) → Array (Option Corner) → Array (Option Corner)
  | 0, _, found => found
  | _, [], found => found
  | fuel + 1, (n, c) :: todo, found =>
    let known := found.getD n.ctorIdx none
    let c' := (known.map (·.union c)).getD c
    if known = some c' then spread fuel todo found
    else
      let next := (headTable.getD n.ctorIdx []).map fun (m, follows) =>
        match follows with
        | some s => (m, ⟨s, false⟩)
        | none => (m, c')
      spread fuel (next ++ todo) (found.setIfInBounds n.ctorIdx (some c'))

def cornerTable : Array (Array (Option Corner)) :=
  let unknown := (Nonterminal.all.map fun _ => none).toArray
  (Nonterminal.all.map fun n => spread 100000 [(n, ⟨∅, true⟩)] unknown).toArray

/-- What follows an `m` that begins an `n`, if one does. -/
def corner (n m : Nonterminal) : Option Corner :=
  (cornerTable.getD n.ctorIdx #[]).getD m.ctorIdx none

/-! ## Productions by their first symbols -/

def startTable : Array (List Production) × Array (List Production) :=
  let all := Nonterminal.all.flatMap productions
  let starting (x : Symbol) := all.filter fun p => p.symbols.head? = some x
  ((Terminal.all.map fun t => starting (.terminal t)).toArray,
    (Nonterminal.all.map fun n => starting (.nonterminal n)).toArray)

/-- The productions that begin with a symbol. -/
def starts : Symbol → List Production
  | .terminal t => startTable.1.getD t.ctorIdx []
  | .nonterminal n => startTable.2.getD n.ctorIdx []

end Grammar

end Interposer.Source
