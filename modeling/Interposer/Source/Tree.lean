import Interposer.Source.Grammar.Rule
import Interposer.Source.Lexer

/-! Parse trees. A tree for a text that is no file of Go has parts that no rule accounts for; what
these cost tells such trees apart. -/

namespace Interposer.Source

inductive Label where
  | terminal (t : Terminal)
  | nonterminal (n : Nonterminal)
  /-- Text that belongs to no phrase. -/
  | error
  /-- Parts of such a text while it is still growing. -/
  | skipped
  deriving DecidableEq, Repr, Inhabited

namespace Label

def isVisible : Label → Bool
  | .terminal t => t.isVisible
  | .nonterminal n => n.isVisible
  | .error => true
  | .skipped => false

/-- The order in which alternatives are compared: terminals, then nonterminals. -/
def rank : Label → Nat
  | .terminal t => t.ctorIdx
  | .nonterminal n => Terminal.all.length + n.ctorIdx
  | .error | .skipped => 0

def isStray : Label → Bool
  | .error | .skipped => true
  | _ => false

end Label

/-- What is known of a tree apart from its parts. -/
structure Summary where
  /-- The end of what comes before, white space aside. -/
  before : Cursor
  start : Cursor
  stop : Cursor
  cost : Nat
  weight : Int
  /-- The number of parts that show, at any depth. -/
  visibleParts : Nat
  /-- The number of parts that show, those inside of others aside. -/
  visibleChildren : Nat
  /-- Whether it stands outside of the rules, as comments do. -/
  isExtra : Bool
  /-- Whether it has been made up where a terminal was missing. -/
  isMissing : Bool
  deriving Inhabited

inductive Tree where
  | mk (label : Label) (summary : Summary) (children : List Tree)
  deriving Inhabited

namespace Tree

def label : Tree → Label
  | .mk label _ _ => label

def summary : Tree → Summary
  | .mk _ summary _ => summary

def children : Tree → List Tree
  | .mk _ _ children => children

def cost (t : Tree) : Nat := t.summary.cost

def weight (t : Tree) : Int := t.summary.weight

def isExtra (t : Tree) : Bool := t.summary.isExtra

def isVisible (t : Tree) : Bool := t.label.isVisible

def asExtra : Tree → Tree
  | .mk label summary children => .mk label { summary with isExtra := true } children

/-! ## What errors cost -/

def errorCost : Nat := 500

/-- The cost of a tree that belongs to no phrase, its text aside. -/
def strayTreeCost : Nat := 100

def missingCost : Nat := errorCost + 110

/-- The cost of the text between two places where it belongs to no phrase. -/
def strayTextCost (c c' : Cursor) : Nat := (c'.bytes - c.bytes) + 30 * (c'.line - c.line)

/-! ## Leaves -/

def ofToken (token : Token) : Tree :=
  let label := (token.terminal.map Label.terminal).getD .error
  .mk label ⟨token.before, token.start, token.stop, 0, 0, 0, 0,
    label = .terminal .endOfText, false⟩ []

/-- A terminal that the text lacks. -/
def missing (t : Terminal) (c : Cursor) : Tree :=
  .mk (.terminal t) ⟨c, c, c, missingCost, 0, 0, 0, false, true⟩ []

/-! ## Nodes -/

/-- What it costs that a tree belongs to no phrase. -/
def strayCost (t : Tree) : Nat :=
  if t.isExtra || (t.label = .error && t.children.isEmpty) then 0
  else if t.isVisible then strayTreeCost
  else strayTreeCost * t.summary.visibleChildren

def sumBy {α : Type} (f : Tree → α) [Add α] [OfNat α 0] (ts : List Tree) : α :=
  ts.foldl (fun n t => n + f t) 0

/-- A tree of several parts, at `c` if it has none. -/
def node (label : Label) (children : List Tree) (weight : Int) (c : Cursor) : Tree :=
  let before := (children.head?.map (·.summary.before)).getD c
  let start := (children.head?.map (·.summary.start)).getD c
  let stop := (children.getLast?.map (·.summary.stop)).getD c
  let own := if label.isStray then
      errorCost + strayTextCost start stop + sumBy strayCost children
    else 0
  let cost := own + sumBy (fun t => if t.label = .skipped then 0 else t.cost) children
  let shown (t : Tree) : Nat := if t.isVisible then 1 else 0
  let visibleChildren := sumBy (fun t =>
    if t.isVisible then 1 else if t.children.isEmpty then 0 else t.summary.visibleChildren) children
  let visibleParts := sumBy (fun t => t.summary.visibleParts + shown t) children
  .mk label ⟨before, start, stop, cost, weight + sumBy Tree.weight children, visibleParts,
    visibleChildren, false, false⟩ children

/-- How much a tree counts for where the progress of parsers is compared. -/
def size (t : Tree) : Nat :=
  t.summary.visibleParts + (if t.isVisible then 1 else 0) + (if t.label = .skipped then 1 else 0)

/-! ## Alternatives -/

/-- Whether trees that end at the same place may stand for each other. -/
def resembles (t t' : Tree) : Bool :=
  t.label = t'.label &&
    ((t.cost > 0 && t'.cost > 0) ||
      (t.summary.before.offset = t'.summary.before.offset &&
        t.summary.start.offset = t'.summary.start.offset &&
        t.summary.stop.offset = t'.summary.stop.offset &&
        t.children.length = t'.children.length && t.isExtra = t'.isExtra))

mutual

/-- Compares labels first and then the parts in turn. -/
def compare : Tree → Tree → Ordering
  | .mk l _ ts, .mk l' _ ts' =>
    match Ord.compare l.rank l'.rank with
    | .eq =>
      match Ord.compare ts.length ts'.length with
      | .eq => compareAll ts ts'
      | o => o
    | o => o

def compareAll : List Tree → List Tree → Ordering
  | t :: ts, t' :: ts' =>
    match compare t t' with
    | .eq => compareAll ts ts'
    | o => o
  | _, _ => .eq

end

/-- Whether `t'` is to be taken instead of `t`: the cheaper one, then the one of more weight, then
the one that comes first. -/
def yieldsTo (t t' : Tree) : Bool :=
  if t'.cost ≠ t.cost then t'.cost < t.cost
  else if t'.weight ≠ t.weight then t.weight < t'.weight
  else t.cost > 0 || compare t t' = .gt

/-! ## Parts that show -/

mutual

/-- The parts of a tree that show, or the tree itself if it does. -/
def visible : Tree → List Tree
  | .mk label summary children =>
    if label.isVisible then [.mk label summary children] else visibleOf children

def visibleOf : List Tree → List Tree
  | [] => []
  | t :: ts => t.visible ++ visibleOf ts

end

mutual

/-- The line of the first part that is missing or belongs to no phrase, if any part does. -/
def errorLine? : Tree → Option Nat
  | .mk label summary children =>
    if label.isVisible && (label = .error || summary.isMissing) then some summary.start.line
    else errorLineOf? children

def errorLineOf? : List Tree → Option Nat
  | [] => none
  | t :: ts => errorLine? t <|> errorLineOf? ts

end

end Tree

end Interposer.Source
