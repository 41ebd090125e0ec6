import Interposer.Failure

/-! From the name of an interface to its body. Aliases are followed first, then definitions in
terms of other types of the package, each for a bounded number of steps; that bound is what ends
a cycle. -/

namespace Interposer

/-- The number of aliases, definitions or embeddings that are followed. -/
def maxDepth : Nat := 32

/-- The name of a type that is declared in `p` itself and takes no arguments. -/
def Package.localName? (p : Package) : SourceType → Option String
  | .named package name args => if package == p.path && args.isEmpty then some name else none
  | _ => none

/-- What the local type `name` is declared to be, through an alias or a definition. -/
def Package.definition? (p : Package) (name : String) : Option SourceType :=
  match p.lookup? name with
  | some (.type _ [] underlying) => some underlying
  | some (.typeAlias _ target) => some target
  | _ => none

/-- The interface that `type` is, or that it is defined to be within `steps` steps. -/
def Package.underlyingInterface (p : Package) (name : String) :
    (steps : Nat) → (type : SourceType) → Except Failure (List Member)
  | 0, type => .error (.notInterface name type)
  | _ + 1, .interface members => .ok members
  | steps + 1, type =>
    match (p.localName? type).bind p.definition? with
    | some next => p.underlyingInterface name steps next
    | none => .error (.notInterface name type)

def Package.resolveDeclaration (p : Package) (name : String) :
    (steps : Nat) → (d : Declaration) → Except Failure (List Member)
  | 0, _ => .error (.notNamed name .aliasCycle)
  | steps + 1, d =>
    match d with
    | .type _ [] underlying => p.underlyingInterface name maxDepth underlying
    | .type _ (_ :: _) _ => .error (.unsupported (.genericInterface name))
    | .typeAlias _ target =>
      match p.localName? target with
      | none => .error (.notNamed name (.aliasOf target))
      | some next =>
        match p.lookup? next with
        | none => .error (.notFound name p.path)
        | some d => p.resolveDeclaration name steps d
    | d => .error (.notNamed name (.declaration d))

/-- The body of the interface called `name`. -/
def Package.resolve (p : Package) (name : String) : Except Failure (List Member) :=
  match p.lookup? name with
  | none => .error (.notFound name p.path)
  | some d => p.resolveDeclaration name maxDepth d

end Interposer
