import Interposer.Method
import Interposer.SignatureType.OfSource

/-! Names for all parameters and results of a method. Blank ones get a name from their position,
and a name that would hide an import in the wrapper's body is changed. -/

namespace Interposer

def isBlankName (name : String) : Bool := name.isEmpty || name == "_"

/-- The declared name, or else `synthetic` made to differ from `taken`, which it then joins. -/
def nameOr (synthetic declared : String) (taken : List String) : String × List String :=
  if isBlankName declared then
    let name := freshAfter taken synthetic
    (name, name :: taken)
  else (declared, taken)

/-- The names that a signature declares. -/
def declaredNames (vars : List Variable) : List String :=
  (vars.map (·.name)).filter (!isBlankName ·)

/-- The name for a blank parameter. -/
def syntheticParam (i : Nat) (_isLast : Bool) (_type : SignatureType) : String := "p" ++ toString i

/-- The name for a blank result: `err` for an error in last place. -/
def syntheticResult (i : Nat) (isLast : Bool) (type : SignatureType) : String :=
  if isLast && type.isError then "err" else "r" ++ toString i

/-- Parameters or results from position `i` on, with the names taken by then. A blank one is named
by its position, whether it is the last, and its type. -/
def nameVars (synthetic : Nat → Bool → SignatureType → String) (i : Nat) (taken : List String) :
    List Variable → Importing (List Parameter × List String)
  | [] => pure ([], taken)
  | .mk declared type :: rest => do
    let type ← SignatureType.ofSource type
    let (name, taken) := nameOr (synthetic i rest.isEmpty type) declared taken
    let (vars, taken) ← nameVars synthetic (i + 1) taken rest
    pure (⟨name, type⟩ :: vars, taken)

def Method.ofSpec (spec : MethodSpec) : Importing Method := do
  let taken := declaredNames (spec.params ++ spec.results)
  let (params, taken) ← nameVars syntheticParam 0 taken spec.params
  let (results, _) ← nameVars syntheticResult 0 taken spec.results
  pure ⟨spec.name, params, results, spec.variadic⟩

/-- Changes the names that are aliases, given the names taken so far. -/
def avoidAliases (aliases : List String) (taken : List String) :
    List Parameter → List Parameter × List String
  | [] => ([], taken)
  | v :: rest =>
    if aliases.contains v.name then
      let name := freshAfter (aliases ++ taken) v.name
      let (vars, taken) := avoidAliases aliases (name :: taken) rest
      (⟨name, v.type⟩ :: vars, taken)
    else
      let (vars, taken) := avoidAliases aliases taken rest
      (v :: vars, taken)

def Method.avoidAliases (m : Method) (table : ImportTable) : Method :=
  let (params, taken) := Interposer.avoidAliases table.aliases m.variableNames m.params
  let (results, _) := Interposer.avoidAliases table.aliases taken m.results
  ⟨m.name, params, results, m.variadic⟩

end Interposer
