import Interposer.Interface.Resolution

/-! The method set of an interface: its methods and those of the interfaces that it embeds, in the
order in which a reader meets them. A method that is met again is left out. -/

namespace Interposer

/-- The method of the predeclared interface `error`. -/
def errorMethod : MethodSpec := ⟨"Error", [], [.mk "" (.basic "string")], false⟩

def SourceType.isPredeclaredError : SourceType → Bool
  | .basic name => name == "error"
  | .named package name _ => package == "" && name == "error"
  | _ => false

def SourceType.isAny : SourceType → Bool
  | .basic name => name == "any"
  | _ => false

/-- The methods of an interface body, given those of the types it embeds. -/
def expandMembers (embedded : SourceType → Except Failure (List MethodSpec)) :
    List Member → Except Failure (List MethodSpec)
  | [] => .ok []
  | .method name params results variadic :: rest => do
    let methods ← expandMembers embedded rest
    .ok (⟨name, params, results, variadic⟩ :: methods)
  | .embedded type :: rest => do
    let inner ← embedded type
    let methods ← expandMembers embedded rest
    .ok (inner ++ methods)

/-- The methods that an embedded type contributes. Each embedding, alias and definition on the way
to them takes one of `steps` steps. -/
def Package.expandEmbedded (p : Package) :
    (steps : Nat) → (type : SourceType) → Except Failure (List MethodSpec)
  | 0, _ => .error (.unsupported .embeddingDepth)
  | steps + 1, type =>
    match type with
    | .interface members => expandMembers (p.expandEmbedded steps) members
    | type =>
      if type.isPredeclaredError then .ok [errorMethod]
      else if type.isAny then .ok []
      else
        match p.localName? type with
        | none => .error (.unsupported (.embedding type))
        | some name =>
          match p.definition? name with
          | some inner => p.expandEmbedded steps inner
          | none => .error (.notFound name p.path)

/-- Keeps the first method of each name. -/
def firstOfEachName : List MethodSpec → List MethodSpec
  | [] => []
  | m :: rest => m :: (firstOfEachName rest).filter (·.name != m.name)

def Package.methodSet (p : Package) (members : List Member) : Except Failure (List MethodSpec) := do
  let methods ← expandMembers (p.expandEmbedded (maxDepth + 1)) members
  .ok (firstOfEachName methods)

end Interposer
