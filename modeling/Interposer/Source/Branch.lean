import Interposer.Source.Stack

/-! The branches of a parse: one for each way of reading the text up to some place. Those that reach
the same state at the same place become one. -/

namespace Interposer.Source

/-- A place on the way down from an error, where the parser may take up again. -/
structure Crumb where
  cursor : Cursor
  depth : Nat
  state : Option State

inductive Status where
  | active
  /-- No action for the token. -/
  | paused (token : Token)
  | halted

structure Branch where
  node : Nat
  /-- The size of its node at its last error. -/
  mark : Nat
  status : Status
  /-- Where to take up again after its last error. -/
  trail : List Crumb

namespace Branch

def isActive (b : Branch) : Bool :=
  match b.status with
  | .active => true
  | _ => false

def isPaused (b : Branch) : Bool :=
  match b.status with
  | .paused _ => true
  | _ => false

def isHalted (b : Branch) : Bool :=
  match b.status with
  | .halted => true
  | _ => false

end Branch

structure Parse where
  stack : Stack
  branches : List Branch
  /-- The best tree of a whole text so far. -/
  best : Option Tree
  /-- How many there have been. -/
  accepted : Nat

namespace Parse

/-- At most so many branches go on. -/
def maxBranches : Nat := 6

/-- At most so many of them come into being beyond these. -/
def maxOverflow : Nat := 4

def start (text : List Char) : Parse :=
  ⟨#[⟨some State.start, .start text, [], 0, 0, 0⟩], [⟨0, 0, .active, []⟩], none, 0⟩

def branch (p : Parse) (v : Nat) : Branch := p.branches.getD v ⟨0, 0, .halted, []⟩

/-- The node at the top of a branch. -/
def top (p : Parse) (v : Nat) : Node := p.stack.node (p.branch v).node

def setBranch (p : Parse) (v : Nat) (b : Branch) : Parse :=
  { p with branches := p.branches.set v b }

def setStatus (p : Parse) (v : Nat) (status : Status) : Parse :=
  p.setBranch v { p.branch v with status }

def dropBranch (p : Parse) (v : Nat) : Parse := { p with branches := p.branches.eraseIdx v }

/-- Lets the branch `v` be the branch `w`, which is dropped. -/
def moveBranch (p : Parse) (w v : Nat) : Parse :=
  let b := p.branch w
  let trail := if b.trail.isEmpty then (p.branch v).trail else b.trail
  (p.setBranch v { b with trail }).dropBranch w

/-- Puts a tree on top of a branch. -/
def push : Parse → Nat → Tree → Option State → Parse
  | ⟨stack, branches, best, accepted⟩, v, tree, state =>
    match branches[v]? with
    | some b =>
      let top := stack.size
      ⟨stack.push b.node tree state, branches.set v { b with node := top }, best, accepted⟩
    | none => ⟨stack, branches, best, accepted⟩

/-- Lets a branch lose its way. -/
def lose : Parse → Nat → Parse
  | ⟨stack, branches, best, accepted⟩, v =>
    match branches[v]? with
    | some b =>
      let top := stack.size
      let mark := (stack.node b.node).size
      ⟨stack.push b.node none none, branches.set v { b with node := top, mark }, best, accepted⟩
    | none => ⟨stack, branches, best, accepted⟩

/-- Whether the branch `v` goes on in the same way as `b`. -/
def absorbs (p : Parse) (v : Nat) (b : Branch) : Bool :=
  let c := p.branch v
  c.isActive && b.isActive && (p.stack.node c.node).alike (p.stack.node b.node)

/-- Lets the branch `v` have the readings of `b` too. -/
def absorb : Parse → Nat → Branch → Parse
  | ⟨stack, branches, best, accepted⟩, v, b =>
    match branches[v]? with
    | some c =>
      let stack := stack.join c.node b.node
      let n := stack.node c.node
      let mark := if n.state.isNone then n.size else c.mark
      ⟨stack, branches.set v { c with mark }, best, accepted⟩
    | none => ⟨stack, branches, best, accepted⟩

def merges (p : Parse) (v w : Nat) : Bool := v ≠ w && p.absorbs v (p.branch w)

/-- Lets the branch `v` absorb the branch `w`. -/
def merge (p : Parse) (v w : Nat) : Parse :=
  let b := p.branch w
  (p.absorb v b).dropBranch w

/-- Adds a branch, unless one of those from the first of `vs` on absorbs it. -/
def addBranch (p : Parse) (b : Branch) : List Nat → Parse
  | [] => { p with branches := p.branches ++ [b] }
  | v :: vs => if p.absorbs v b then p.absorb v b else p.addBranch b vs

/-! ## Reductions -/

/-- The parts of a phrase, and the extra trees after it, which do not belong to it. -/
def splitExtras (trees : List Tree) : List Tree × List Tree :=
  let extras := (trees.reverse.takeWhile Tree.isExtra).reverse
  (trees.take (trees.length - extras.length), extras)

/-- Of several ways to make up a phrase, the one that counts, with the extra trees after it. -/
def bestNode (label : Label) (weight : Int) (c : Cursor) :
    List (List Tree) → Option (Tree × List Tree)
  | [] => none
  | trees :: rest =>
    let make (trees : List Tree) :=
      let (parts, extras) := splitExtras trees
      (Tree.node label parts weight c, extras)
    some <| rest.foldl (fun best trees =>
      let other := make trees
      if best.1.yieldsTo other.1 then other else best) (make trees)

/-- Adds a branch that goes on from the node `target` with a phrase and the extra trees after it,
unless the branch comes to be one of `others`. -/
def grow : Parse → Nat → Nat → Tree → List Tree → Option State → List Nat → Parse
  | ⟨stack, branches, best, accepted⟩, target, mark, tree, extras, state, others =>
    let stack := stack.push target tree state
    let stack := extras.foldl (fun stack t => stack.push (stack.size - 1) t state) stack
    let top := stack.size - 1
    addBranch ⟨stack, branches, best, accepted⟩ ⟨top, mark, .active, []⟩ others

/-- Replaces trees at the top of a branch by phrases, in branches of their own. -/
def reduce (p : Parse) (v : Nat) (lhs : Nonterminal) (count : Nat) (weight : Int) : Parse :=
  let b := p.branch v
  let c := (p.top v).cursor
  let ways := Stack.byTarget (p.stack.pathsOf b.node count)
  ways.foldl (fun p (target, ways) =>
    let w := p.branches.length
    if w > maxBranches + maxOverflow then p
    else
      match bestNode (.nonterminal lhs) weight c ways with
      | none => p
      | some (tree, extras) =>
        let state := (p.stack.node target).state.map (·.goto (.nonterminal lhs))
        p.grow target b.mark tree extras state ((List.range w).filter (· ≠ v))) p

/-! ## Comparing branches -/

/-- What a branch has cost so far, more if it is stuck. -/
def cost (p : Parse) (v : Nat) : Nat :=
  let n := p.top v
  let lost := n.state.isNone &&
    match n.links with
    | l :: _ => l.tree.isNone
    | [] => false
  if (p.branch v).isPaused || lost then n.cost + Tree.errorCost else n.cost

/-- How far a branch has come since its last error. -/
def sizeSinceError (p : Parse) (v : Nat) : Nat := (p.top v).size - (p.branch v).mark

/-- The size since an error counts from zero where it has become less than it was. -/
def settleMarks (p : Parse) : Parse :=
  { p with
    branches := p.branches.map fun b => { b with mark := min b.mark (p.stack.node b.node).size } }

/-- What decides between branches. -/
structure Standing where
  cost : Nat
  progress : Nat
  weight : Int
  isStuck : Bool

def standing (p : Parse) (v : Nat) : Standing :=
  let n := p.top v
  let paused := (p.branch v).isPaused
  ⟨if paused then p.cost v + Tree.strayTreeCost else p.cost v, p.sizeSinceError v, n.weight,
    paused || n.state.isNone⟩

inductive Verdict where
  | first
  | ratherFirst
  | either
  | ratherSecond
  | second

/-- A difference in cost decides for good when much has been read at less cost. -/
def maxCostDifference : Nat := 1800

def Standing.compare (s s' : Standing) : Verdict :=
  if !s.isStuck && s'.isStuck then if s.cost < s'.cost then .first else .ratherFirst
  else if s.isStuck && !s'.isStuck then if s'.cost < s.cost then .second else .ratherSecond
  else if s.cost < s'.cost then
    if (s'.cost - s.cost) * (1 + s.progress) > maxCostDifference then .first else .ratherFirst
  else if s'.cost < s.cost then
    if (s.cost - s'.cost) * (1 + s'.progress) > maxCostDifference then .second else .ratherSecond
  else if s'.weight < s.weight then .ratherFirst
  else if s.weight < s'.weight then .ratherSecond
  else .either

end Parse

end Interposer.Source
