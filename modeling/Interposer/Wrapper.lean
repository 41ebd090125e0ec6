import Interposer.Wrapper.Render
import Interposer.Interface
import Interposer.Hook
import Interposer.Identifier
import Interposer.Text.LetterCase

/-! The wrapper of an interface: a struct that holds the wrapped value, a check that it implements
the interface, a constructor, and for every method one that calls it on the wrapped value, with
the fragments of the hooks around the call. -/

namespace Interposer.Wrapper

def headerText : String := "Code generated by dblog. DO NOT EDIT."

/-- The field that holds the wrapped value. -/
def wrappedName : String := "wrapped"

/-- The receiver's name: the first letter of the type in lower case, and underscores before it as
long as a parameter or a result has that name. -/
def receiverName (typeName : String) (m : Method) : String :=
  let name :=
    match typeName.toList with
    | [] => "w"
    | c :: _ => String.ofList (Text.toLower c)
  freshBefore m.variableNames name

/-- Arguments for the parameters, the last one spread in a variadic method. -/
def arguments (variadic : Bool) : List Parameter → List String
  | [] => []
  | [p] => [if variadic then p.name ++ "..." else p.name]
  | p :: rest => p.name :: arguments variadic rest

/-- The call of the wrapped method, its results assigned. -/
def delegateCall (receiver : String) (m : Method) : String :=
  let call := receiver ++ "." ++ wrappedName ++ "." ++ m.name ++ "(" ++
    ", ".intercalate (arguments m.variadic m.params) ++ ")"
  if m.results.isEmpty then call
  else ", ".intercalate (m.results.map (·.name)) ++ " = " ++ call

/-- A hook's fragment, with the hook it is from. -/
structure Contribution where
  hook : Hook
  code : String

/-- What the hooks have to say at a point, in their order; the first that objects decides. -/
def contributions (point : HookPoint) (m : Method) (table : ImportTable) :
    List Hook → Except Failure (List Contribution)
  | [] => .ok []
  | h :: hooks => do
    let fragment ← h.fragment point m table
    let rest ← contributions point m table hooks
    match fragment with
    | none => .ok rest
    | some code => .ok (⟨h, code⟩ :: rest)

/-- The fragments as statements, an empty line between any two. -/
def statements (cs : List Contribution) : List Statement :=
  (cs.map fun c => Statement.raw c.code).intersperse .blank

/-- Groups of statements, an empty line between any two that are not empty. -/
def joinGroups : List (List Statement) → List Statement
  | [] => []
  | group :: groups =>
    let rest := joinGroups groups
    if group.isEmpty then rest
    else if rest.isEmpty then group
    else group ++ .blank :: rest

/-- The statement that tells success and failure of a call apart by its error. -/
def gate (err : String) (onSuccess onError : List Statement) : List Statement :=
  match onSuccess.isEmpty, onError.isEmpty with
  | true, true => []
  | false, true => [.ifThen (err ++ " == nil") onSuccess]
  | true, false => [.ifThen (err ++ " != nil") onError]
  | false, false => [.ifElse (err ++ " != nil") onError onSuccess]

/-- What the hooks contribute to one method. -/
structure Fragments where
  preCall : List Contribution
  postCall : List Contribution
  onSuccess : List Contribution
  /-- Hooks are asked for these only if the method has an error to return. -/
  onError : List Contribution

def fragments (m : Method) (table : ImportTable) (hooks : List Hook) :
    Except Failure Fragments := do
  let preCall ← contributions .preCall m table hooks
  let postCall ← contributions .postCall m table hooks
  let onSuccess ← contributions .onSuccess m table hooks
  let onError ← if m.errorResult?.isSome then contributions .onError m table hooks else .ok []
  .ok ⟨preCall, postCall, onSuccess, onError⟩

/-- The hooks that contribute to a method. -/
def Fragments.hooks (f : Fragments) : List Hook :=
  (f.preCall ++ f.postCall ++ f.onSuccess ++ f.onError).map (·.hook)

def methodBody (receiver : String) (m : Method) (f : Fragments) : List Statement :=
  joinGroups [
    statements f.preCall,
    [.raw (delegateCall receiver m)],
    statements f.postCall,
    match m.errorResult? with
    | some err => gate err.name (statements f.onSuccess) (statements f.onError)
    | none => statements f.onSuccess,
    if m.results.isEmpty then [] else [.returns (m.results.map (·.name))]]

def methodFunction (typeName : String) (m : Method) (f : Fragments) : Function :=
  let receiver := receiverName typeName m
  { doc := none
    receiver := some ⟨receiver, .pointer (.predeclared typeName)⟩
    name := m.name
    params := m.params
    results := m.results
    variadic := m.variadic
    body := methodBody receiver m f }

/-- The wrapper's struct, the check that it implements the interface, and its constructor. -/
def typeDeclarations (typeName : String) (type : SignatureType) : List TopLevel :=
  [.struct
      (some (typeName ++ " wraps a " ++ type.render ++ " and instruments every call made to it."))
      typeName [⟨wrappedName, type⟩],
    .var "_" (some type) ("(*" ++ typeName ++ ")(nil)"),
    .func
      { doc := some ("New" ++ typeName ++ " creates a new " ++ typeName ++
          " that wraps the passed " ++ type.render ++ ".")
        receiver := none
        name := "New" ++ typeName
        params := [⟨wrappedName, type⟩]
        results := [⟨"", .pointer (.predeclared typeName)⟩]
        variadic := false
        body := [.returns
          ["&" ++ typeName ++ "\x7b" ++ wrappedName ++ ": " ++ wrappedName ++ "\x7d"]] }]

/-- The methods with their fragments, in declaration order. -/
def instrument (table : ImportTable) (hooks : List Hook) :
    List Method → Except Failure (List (Method × Fragments))
  | [] => .ok []
  | m :: methods => do
    let f ← fragments m table hooks
    let rest ← instrument table hooks methods
    .ok ((m, f) :: rest)

/-- The import paths that a method of the wrapper refers to. -/
def methodPaths (m : Method) (f : Fragments) : List String :=
  SignatureType.pathsOfAll (m.vars.map (·.type)) ++ f.hooks.flatMap (·.imports)

/-- The file with the wrapper `typeName` of an interface. It imports what it refers to and nothing
else. -/
def file (package typeName : String) (i : Interface) (hooks : List Hook) (table : ImportTable) :
    Except Failure File := do
  let methods ← instrument table hooks i.methods
  let used := i.type.paths ++ methods.flatMap fun (m, f) => methodPaths m f
  .ok
    { header := headerText
      package
      imports := table.sorted.filter (used.contains ·.path)
      declarations := typeDeclarations typeName i.type ++
        methods.map fun (m, f) => .func (methodFunction typeName m f) }

end Interposer.Wrapper
