import Interposer.Source.Recovery

/-! The parser: from a text to its tree. All branches take one token after the other; a branch
without an action for its token gives way to others, and is an error if there are none. -/

namespace Interposer.Source

namespace Parse

/-! ## Tokens -/

/-- Does the reductions among some actions. -/
def reduceBy (p : Parse) (v : Nat) (acts : List Action) : Parse × Option Nat :=
  acts.foldl (fun (p, made) a =>
    match a with
    | .reduce lhs count weight =>
      let before := p.branches.length
      let p := p.reduce v lhs count weight
      (p, if before < p.branches.length then some before else made)
    | _ => (p, made)) (p, none)

/-- What is done once the reductions are: the token is taken, or the whole text is accepted. -/
def lastAction (acts : List Action) : Option Action :=
  acts.find? fun a =>
    match a with
    | .reduce .. => false
    | _ => true

def pause (p : Parse) (v : Nat) (token : Token) : Parse :=
  p.setBranch v { p.branch v with status := .paused token, mark := (p.top v).size }

/-- Lets a branch take a token, after the reductions that come before it. A keyword without an
action may be an identifier. -/
def take : Nat → Parse → Nat → Token → Parse
  | 0, p, v, token => p.pause v token
  | fuel + 1, p, v, token =>
    match (p.top v).state with
    | none => p.recover v token
    | some state =>
      let acts := actionsFor state token.terminal
      let (p, made) := p.reduceBy v acts
      match lastAction acts, made with
      | some (.shift next), _ => p.push v (.ofToken token) next
      | some .skip, _ => p.push v (Tree.ofToken token).asExtra state
      | some .accept, _ => p.accept v token
      | _, some w => take fuel (p.moveBranch w v) v token
      | _, none =>
        if token.isKeyword && token.terminal ≠ some .identifier &&
            !(state.actions .identifier).isEmpty then
          take fuel p v { token with terminal := some .identifier }
        else p.pause v token

/-- The token that a branch comes to. -/
def nextToken (p : Parse) (v : Nat) : Token :=
  let n := p.top v
  Lexer.token ((n.state.map State.expected).getD Lexer.lost) n.cursor

/-! ## Rounds -/

/-- Lets a branch take tokens until it is ahead of the others. `front` is how far they have come. -/
def advance (steps : Nat) (v : Nat) : Nat → Nat → Parse → Parse × Nat
  | 0, front, p => (p, front)
  | fuel + 1, front, p =>
    if (p.branch v).isActive then
      let p := take steps p v (p.nextToken v)
      let offset := (p.top v).cursor.offset
      if front < offset || (0 < v && offset = front) then (p, offset)
      else advance steps v fuel front p
    else (p, front)

/-- Lets each branch from `v` on take tokens. -/
def advanceAll (steps : Nat) : Nat → Nat → Nat → Parse → Parse × Nat
  | 0, _, front, p => (p, front)
  | fuel + 1, v, front, p =>
    if v < p.branches.length then
      let (p, front) := advance steps v steps front p
      advanceAll steps fuel (v + 1) front p
    else (p, front)

/-- Compares the branch `v`, which stands as `s` says, with those from `w` on before it; and gives
the number of the next branch to be compared. -/
def compete (s : Standing) : Nat → Nat → Nat → Parse → Parse × Nat
  | 0, _, v, p => (p, v + 1)
  | fuel + 1, w, v, p =>
    if w < v then
      match (p.standing w).compare s with
      | .first => (p.dropBranch v, v)
      | .ratherFirst | .either =>
        if p.merges w v then (p.merge w v, v) else compete s fuel (w + 1) v p
      | .ratherSecond =>
        if p.merges w v then (p.merge w v, v)
        else
          let p := { p with branches := (p.branches.set w (p.branch v)).set v (p.branch w) }
          compete s fuel (w + 1) v p
      | .second => compete s fuel w (v - 1) (p.dropBranch w)
    else (p, v + 1)

/-- Lets branches compete with those before them. Gives the least cost of one that is not stuck. -/
def competeAll : Nat → Nat → Option Nat → Parse → Parse × Option Nat
  | 0, _, least, p => (p, least)
  | fuel + 1, v, least, p =>
    if v < p.branches.length then
      if (p.branch v).isHalted then competeAll fuel v least (p.dropBranch v)
      else
        let s := p.standing v
        let least := if s.isStuck then least else some ((least.map (min s.cost)).getD s.cost)
        let (p, v) := compete s (v + 1) 0 v p
        competeAll fuel v least p
    else (p, least)

/-- Deals with the branches that are paused, of which there are `count` yet to be seen from `v` on:
the first is an error if no branch goes on, the others end. -/
def resume (going : Bool) : Nat → Nat → Option Nat → Parse → Parse × Option Nat
  | 0, _, least, p => (p, least)
  | count + 1, v, least, p =>
    match (p.branch v).status with
    | .paused token =>
      if !going && p.accepted < maxBranches then
        let least := some (p.cost v)
        resume true count (v + 1) least ((p.setStatus v .active).handleError v token)
      else resume going count v least (p.dropBranch v)
    | _ => resume true count (v + 1) least p

/-- Keeps the branches that are worth following. -/
def condense (p : Parse) : Parse × Option Nat :=
  let p := p.settleMarks
  let (p, least) := competeAll (2 * p.branches.length + 2) 0 none p
  let p := { p with branches := p.branches.take maxBranches }
  resume false p.branches.length 0 least p

/-- Reads on until the best tree cannot be bettered, or no branch is left. -/
def run (steps : Nat) : Nat → Nat → Parse → Option Tree
  | 0, _, p => p.best
  | fuel + 1, front, p =>
    let (p, front) := advanceAll steps steps 0 front p
    let (p, least) := p.condense
    let done :=
      match p.best, least with
      | some t, some n => t.cost < n
      | some _, none => true
      | none, _ => false
    if done || p.branches.isEmpty then p.best else run steps fuel front p

end Parse

/-- The tree of a text. No token takes more reductions than the nodes that may be on a stack. -/
def Tree.ofText (text : List Char) : Option Tree :=
  let steps := 100 * (text.length + 10)
  Parse.run steps steps 0 (.start text)

end Interposer.Source
