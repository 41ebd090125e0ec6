import Interposer.Source.State
import Interposer.Source.Tree

/-! The stacks of all readings of a text at once. They share what they have in common below, and a
node at which several of them meet has a link to each of the nodes below it. -/

namespace Interposer.Source

/-- A link to the node below, with the tree between both; after an error there is none. -/
structure Link where
  target : Nat
  tree : Option Tree
  deriving Inhabited

structure Node where
  /-- There is none where the parser has lost its way. -/
  state : Option State
  cursor : Cursor
  links : List Link
  /-- The least cost of what is below. -/
  cost : Nat
  /-- The size of what is below, and its weight. Where there are several, the greatest count. -/
  size : Nat
  weight : Int
  deriving Inhabited

namespace Node

/-- Whether stacks that end at these nodes go on in the same way. -/
def alike (n n' : Node) : Bool :=
  n.cursor.offset = n'.cursor.offset && n.cost = n'.cost &&
    match n.state, n'.state with
    | some s, some s' => s.same s'
    | none, none => true
    | _, _ => false

end Node

namespace Link

def weight (l : Link) : Int := (l.tree.map Tree.weight).getD 0

def resembles (l l' : Link) : Bool :=
  match l.tree, l'.tree with
  | some t, some t' => t.resembles t'
  | none, none => true
  | _, _ => false

end Link

/-- Nodes are referred to by their numbers. -/
abbrev Stack := Array Node

namespace Stack

def node (stack : Stack) (i : Nat) : Node := stack.getD i default

/-- The nodes and, at the end of them, one on top of `below`. -/
def push (stack : Stack) (below : Nat) (tree : Option Tree) (state : Option State) : Stack :=
  let n := stack.node below
  Array.push stack <|
    match tree with
    | some t =>
      ⟨state, t.summary.stop, [⟨below, tree⟩], n.cost + t.cost, n.size + t.size,
        n.weight + t.weight⟩
    | none => ⟨state, n.cursor, [⟨below, none⟩], n.cost, n.size, n.weight⟩

/-- At most so many links lead down from a node. -/
def maxLinks : Nat := 8

/-- Lets a node have one more link. A link that resembles another one to a node that is alike gives
its own links to that node instead. -/
def addLink : Nat → Stack → Nat → Link → Stack
  | 0, stack, _, _ => stack
  | fuel + 1, stack, i, link =>
    if link.target = i then stack
    else
      let n := stack.node i
      let below := stack.node link.target
      let weight := below.weight + link.weight
      let k := n.links.findIdx fun l =>
        l.resembles link && (l.target = link.target || (stack.node l.target).alike below)
      match n.links[k]? with
      | some l =>
        if l.target = link.target then
          if l.weight < link.weight then
            stack.setIfInBounds i { n with links := n.links.set k link, weight }
          else stack
        else
          let stack := below.links.foldl (fun stack l' => addLink fuel stack l.target l') stack
          stack.modify i fun n => { n with weight := max n.weight weight }
      | none =>
        if n.links.length = maxLinks then stack
        else
          let size := max n.size (below.size + (link.tree.map Tree.size).getD 0)
          let weight := max n.weight weight
          stack.setIfInBounds i { n with links := n.links ++ [link], size, weight }

/-- Makes the links of the node `j` links of `i`. -/
def join (stack : Stack) (i j : Nat) : Stack :=
  (stack.node j).links.foldl (fun stack l => addLink stack.size stack i l) stack

/-! ## Ways down -/

/-- A way down from a node, with the trees that it passes from below upwards. -/
structure Path where
  node : Nat
  trees : List Tree
  /-- How many links it has, those of extra trees aside. -/
  count : Nat

def Path.extend (p : Path) (l : Link) : Path :=
  match l.tree with
  | some t => ⟨l.target, t :: p.trees, if t.isExtra then p.count else p.count + 1⟩
  | none => ⟨l.target, p.trees, p.count + 1⟩

/-- At most so many paths are followed at a time. -/
def maxPaths : Nat := 64

/-- Goes one link further on each path that is not at its end. There are `count` paths in all, and
those that branch off come last. -/
def deepen (stack : Stack) (ends : Path → Bool) : List Path → Nat → List Path → List Path
  | [], _, branched => branched
  | p :: ps, count, branched =>
    match (stack.node p.node).links with
    | [] => deepen stack ends ps (count - 1) branched
    | l :: ls =>
      if ends p then deepen stack ends ps (count - 1) branched
      else
        let further := ls.take (maxPaths - count)
        p.extend l ::
          deepen stack ends ps (count + further.length) (branched ++ further.map p.extend)

/-- All paths in the order of their lengths, each of them up to its end. -/
def walk (stack : Stack) (ends : Path → Bool) : Nat → List Path → List Path
  | 0, _ => []
  | _, [] => []
  | fuel + 1, ps => ps ++ walk stack ends fuel (deepen stack ends ps ps.length [])

def pathsFrom (stack : Stack) (i : Nat) (ends : Path → Bool) : List Path :=
  walk stack ends (stack.size + 1) [⟨i, [], 0⟩]

/-- Paths of `count` links. -/
def pathsOf (stack : Stack) (i count : Nat) : List Path :=
  (stack.pathsFrom i (·.count = count)).filter (·.count = count)

/-- Paths all the way down. -/
def pathsDown (stack : Stack) (i : Nat) : List Path :=
  (stack.pathsFrom i fun _ => false).filter fun p => (stack.node p.node).links.isEmpty

/-- The trees of paths, by the nodes that the paths lead to. -/
def byTarget (ps : List Path) : List (Nat × List (List Tree)) :=
  ps.foldl (fun groups p =>
    if groups.any (·.1 = p.node) then
      groups.map fun (i, trees) => if i = p.node then (i, trees ++ [p.trees]) else (i, trees)
    else groups ++ [(p.node, [p.trees])]) []

end Stack

end Interposer.Source
