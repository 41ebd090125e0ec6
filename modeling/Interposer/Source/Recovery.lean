import Interposer.Source.Branch

/-! What a parser does on errors: it goes back to where the next token fits, takes a terminal to be
missing, or passes over the token. The tree then has stray parts, and where the first of them stands
is where the error is said to be. -/

namespace Interposer.Source

namespace Parse

/-- What to do in a state on a token; nothing where the token is no terminal. -/
def actionsFor (state : State) (t : Option Terminal) : List Action :=
  match t with
  | some t => state.actions t
  | none => []

/-! ## Acceptance -/

/-- The tree of a whole text: its file, with the extra trees around it. -/
def rootOf (trees : List Tree) (c : Cursor) : Option Tree :=
  let after := (trees.reverse.takeWhile Tree.isExtra).reverse
  match (trees.reverse.dropWhile Tree.isExtra) with
  | [] => none
  | file :: before => some (.node file.label (before.reverse ++ file.children ++ after) 0 c)

/-- Accepts what a branch has read, up to the token at the end of the text. -/
def accept (p : Parse) (v : Nat) (token : Token) : Parse :=
  let p := p.push v (.ofToken token) (some .start)
  let p := (p.stack.pathsDown (p.branch v).node).foldl (fun p way =>
    let root := rootOf way.trees token.stop
    let best :=
      match p.best, root with
      | some t, some t' => if t.yieldsTo t' then some t' else some t
      | some t, none => some t
      | none, root => root
    { p with best, accepted := p.accepted + 1 }) p
  p.setStatus v .halted

/-! ## Passing over text -/

/-- Whether a branch is not worth following at some cost, since others are better off. -/
def hasBetter (p : Parse) (v cost : Nat) : Bool :=
  let n := p.top v
  let standing : Standing := ⟨cost, p.sizeSinceError v, n.weight, false⟩
  (p.best.any (·.cost ≤ cost)) ||
    (List.range p.branches.length).any fun w =>
      let b := p.branch w
      w ≠ v && b.isActive && n.cursor.offset ≤ (p.top w).cursor.offset &&
        match standing.compare (p.standing w) with
        | .second => true
        | .ratherSecond => (p.branch v).isActive && (p.top w).alike n
        | _ => false

/-- Takes a stray tree off the top of a branch, if there is one. -/
def takeError (stack : Stack) (node : Nat) : Nat × List Tree :=
  let isError (t : Tree) := t.label = .error
  if (stack.node node).links.any fun l => l.tree.any isError then
    match (stack.pathsFrom node fun p => !p.trees.isEmpty).find? fun p => p.trees.any isError with
    | some p => (p.node, p.trees.flatMap Tree.children)
    | none => (node, [])
  else (node, [])

/-- Adds branches that go back to a state, where what has been read since is stray. -/
def goBack (p : Parse) (v depth : Nat) (goal : State) : Parse :=
  let b := p.branch v
  (Stack.byTarget (p.stack.pathsOf b.node depth)).foldl (fun p (target, ways) =>
    match (p.stack.node target).state, ways with
    | some state, trees :: _ =>
      if state.same goal then
        let (node, before) := takeError p.stack target
        let (parts, extras) := splitExtras (before ++ trees)
        let stray :=
          if parts.isEmpty then []
          else [(Tree.node .error parts 0 (p.stack.node node).cursor).asExtra]
        let (stack, node) := (stray ++ extras).foldl (fun (stack, node) t =>
          (stack.push node t (some goal), stack.size)) (p.stack, node)
        { p with stack, branches := p.branches ++ [⟨node, b.mark, .active, []⟩] }
      else p
    | _, _ => p) p

/-- Goes back to the first place on the trail where the token fits, if no other branch is there. -/
def goBackAlong (p : Parse) (v : Nat) (t : Terminal) : List Crumb → Parse
  | [] => p
  | crumb :: crumbs =>
    let c := (p.top v).cursor
    match crumb.state with
    | none => p.goBackAlong v t crumbs
    | some state =>
      let taken := (List.range p.branches.length).any fun w =>
        let n := p.top w
        n.cursor.offset = c.offset && n.state.any (·.same state)
      if crumb.cursor.offset = c.offset || taken then p.goBackAlong v t crumbs
      else
        let cost := p.cost v + crumb.depth * Tree.strayTreeCost + Tree.strayTextCost crumb.cursor c
        if p.hasBetter v cost then p
        else if (state.actions t).isEmpty then p.goBackAlong v t crumbs
        else
          let depth := if p.sizeSinceError v > 0 then crumb.depth + 1 else crumb.depth
          let p' := p.goBack v depth state
          if p'.branches.length = p.branches.length then p.goBackAlong v t crumbs else p'

/-- Adds the token to the stray text at the top of a branch. -/
def passOver (p : Parse) (v : Nat) (token : Token) : Parse :=
  let leaf := Tree.ofToken token
  let leaf := if token.terminal = some .comment then leaf.asExtra else leaf
  let stray := Tree.node .skipped [leaf] 0 token.before
  if p.sizeSinceError v > 0 then
    let b := p.branch v
    match p.stack.pathsOf b.node 1 with
    | path :: _ =>
      let p := p.setBranch v { b with node := path.node }
      p.push v (.node .skipped (path.trees ++ [stray]) 0 token.before) none
    | [] => p.push v stray none
  else p.push v stray none

/-- What a branch that has lost its way does on a token. -/
def recover (p : Parse) (v : Nat) (token : Token) : Parse :=
  let p := p.settleMarks
  let before := p.branches.length
  let cost := p.cost v
  let p :=
    match token.terminal with
    | some t => p.goBackAlong v t (p.branch v).trail
    | none => p
  if token.terminal = some .endOfText then
    (p.push v (.node .error [] 0 (p.top v).cursor) (some .start)).accept v token
  else if before < p.branches.length && p.branches.length > maxBranches then p.setStatus v .halted
  else
    let cost := cost + Tree.strayTreeCost + Tree.strayTextCost token.before token.stop
    if p.hasBetter v cost then p.setStatus v .halted else p.passOver v token

/-! ## Errors -/

def textTerminals : List Terminal := Terminal.all.filter fun t => t != .endOfText

/-- The reductions that a state may do on any of some terminals, and whether it may shift one. -/
def possible (state : State) (ts : List Terminal) : List (Nonterminal × Nat × Int) × Bool :=
  ts.foldl (fun acc t =>
    (state.actions t).foldl (fun (reductions, shifts) a =>
      match a with
      | .shift _ => (reductions, true)
      | .reduce lhs count weight =>
        if count = 0 || reductions.any (fun (l, c, _) => l = lhs && c = count) then
          (reductions, shifts)
        else (reductions ++ [(lhs, count, weight)], shifts)
      | .accept | .skip => (reductions, shifts)) acc) ([], false)

/-- Does all reductions that may come before one of some terminals, from the branch `v` on, which is
the branch `first` or has come after it. With `strict` only branches remain that may shift one of
them. Also tells whether any can. -/
def reduceAll (ts : List Terminal) (strict : Bool) (first added : Nat) :
    Nat → Nat → Nat → Parse → Parse × Bool
  | 0, _, _, p => (p, false)
  | fuel + 1, round, v, p =>
    let count := p.branches.length
    if v ≥ count then (p, false)
    else
      match ((List.range v).filter (added ≤ ·)).find? fun w => p.merges w v with
      | some w => reduceAll ts strict first added fuel (round + 1) v (p.merge w v)
      | none =>
        let (reductions, shifts) :=
          match (p.top v).state with
          | some state => possible state ts
          | none => ([], true)
        let (p, made) := reductions.foldl (fun (p, _) (lhs, n, weight) =>
          let before := p.branches.length
          let p := p.reduce v lhs n weight
          (p, if before < p.branches.length then some before else none)) (p, none)
        let next := if v = first then count else v + 1
        match shifts, made with
        | true, _ =>
          let (p, _) := reduceAll ts strict first added fuel (round + 1) next p
          (p, true)
        | false, some w =>
          if round < maxBranches then
            reduceAll ts strict first added fuel (round + 1) v (p.moveBranch w v)
          else
            reduceAll ts strict first added fuel (round + 1) next
              (if strict then p.dropBranch v else p)
        | false, none =>
          reduceAll ts strict first added fuel (round + 1) next
            (if strict then p.dropBranch v else p)

def reduceFuel : Nat := 1000

/-- The state after a terminal that does not leave it. -/
def after? (state : State) (t : Terminal) : Option State :=
  match (state.actions t).getLast? with
  | some (.shift next) => if next.same state then none else some next
  | _ => none

/-- Adds a branch where a terminal is missing in front of the token, if the token then fits. Also
tells whether it does. -/
def insertMissing (p : Parse) (v : Nat) (state : State) (t : Terminal) :
    List Terminal → Parse × Bool
  | [] => (p, false)
  | m :: ms =>
    let reducible :=
      match after? state m with
      | some next =>
        match next.actions t with
        | .reduce .. :: _ => some next
        | _ => none
      | none => none
    match reducible with
    | none => p.insertMissing v state t ms
    | some next =>
      let w := p.branches.length
      let p := { p with branches := p.branches ++ [{ p.branch v with trail := [] }] }
      let p := p.push w (.missing m (p.top v).cursor) (some next)
      match reduceAll [t] true w (w + 1) reduceFuel 0 w p with
      | (p, true) => (p, true)
      | (p, false) => p.insertMissing v state t ms

/-- So deep below an error the parser may take up again. -/
def maxDepth : Nat := 16

/-- The places on the ways down from a node. -/
def trailFrom (stack : Stack) (i : Nat) : List Crumb :=
  (stack.pathsFrom i fun path => path.count > maxDepth).foldl (fun crumbs path =>
    let n := stack.node path.node
    let known := crumbs.any fun (crumb : Crumb) =>
      crumb.depth = path.count &&
        match crumb.state, n.state with
        | some s, some s' => s.same s'
        | none, none => true
        | _, _ => false
    if path.count > maxDepth || known then crumbs
    else crumbs ++ [⟨n.cursor, path.count, n.state⟩]) []

/-- Lets branches lose their way, after a terminal has been taken to be missing in one of them if
that helps. -/
def loseAll (p : Parse) (t : Option Terminal) : Bool → List Nat → Parse
  | _, [] => p
  | inserted, v :: vs =>
    let (p, inserted) :=
      match inserted, (p.top v).state, t with
      | false, some state, some t => p.insertMissing v state t textTerminals
      | _, _, _ => (p, inserted)
    (p.lose v).loseAll t inserted vs

/-- What a branch does on a token for which it has no action. -/
def handleError (p : Parse) (v : Nat) (token : Token) : Parse :=
  let first := p.branches.length
  let (p, _) := reduceAll textTerminals false v first reduceFuel 0 v p
  let last := p.branches.length
  let others := (List.range last).filter (first ≤ ·)
  let p := p.loseAll token.terminal false (v :: others)
  let p := others.foldl (fun p _ => if p.merges v first then p.merge v first else p) p
  let b := p.branch v
  (p.setBranch v { b with trail := trailFrom p.stack b.node }).recover v token

end Parse

end Interposer.Source
