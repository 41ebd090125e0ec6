/-! Types in the signatures of a wrapper, and the text that denotes them. A declared type is always
referred to by name and never expanded. -/

namespace Interposer

inductive SignatureType where
  | slice (elem : SignatureType)
  | array (length : Int) (elem : SignatureType)
  | map (key value : SignatureType)
  | pointer (elem : SignatureType)
  /-- The last parameter of a variadic function is a slice of what `...` stands before. -/
  | func (params results : List SignatureType) (variadic : Bool)
  /-- A type called `name` in the package that is imported from `path` as `qualifier`. Both are
  empty for predeclared types. -/
  | named (qualifier path name : String)

namespace SignatureType

instance : Inhabited SignatureType := ⟨.named "" "" ""⟩

def predeclared (name : String) : SignatureType := .named "" "" name

/-- Results as they follow a parameter list: none, one without parentheses, or several. -/
def resultText : List String → String
  | [] => ""
  | [single] => " " ++ single
  | many => " (" ++ ", ".intercalate many ++ ")"

mutual

def render : SignatureType → String
  | .slice elem => "[]" ++ elem.render
  | .array length elem => "[" ++ toString length ++ "]" ++ elem.render
  | .map key value => "map[" ++ key.render ++ "]" ++ value.render
  | .pointer elem => "*" ++ elem.render
  | .func params results variadic =>
    "func(" ++ ", ".intercalate (renderParams variadic params) ++ ")" ++
      resultText (renderAll results)
  | .named qualifier _ name => if qualifier.isEmpty then name else qualifier ++ "." ++ name

def renderAll : List SignatureType → List String
  | [] => []
  | t :: ts => t.render :: renderAll ts

/-- Parameter types, the last one as `...T` in a variadic function. -/
def renderParams : Bool → List SignatureType → List String
  | _, [] => []
  | true, [.slice elem] => ["..." ++ elem.render]
  | true, [t] => ["..." ++ t.render]
  | variadic, t :: ts => t.render :: renderParams variadic ts

end

/-- The type of a variadic parameter as `...T`. -/
def renderVariadic : SignatureType → String
  | .slice elem => "..." ++ elem.render
  | t => "..." ++ t.render

theorem renderAll_eq (types : List SignatureType) : renderAll types = types.map render := by
  induction types with
  | nil => rfl
  | cons t types ih => rw [renderAll, ih, List.map_cons]

theorem renderParams_singleton (t : SignatureType) :
    renderParams true [t] = [t.renderVariadic] := by
  cases t <;> rfl

theorem renderParams_cons_cons (variadic : Bool) (t t' : SignatureType)
    (types : List SignatureType) : renderParams variadic (t :: t' :: types) =
      t.render :: renderParams variadic (t' :: types) := by
  cases variadic <;> cases t <;> rfl

theorem renderParams_false (types : List SignatureType) :
    renderParams false types = renderAll types := by
  induction types with
  | nil => rfl
  | cons t types ih =>
    have hfirst : renderParams false (t :: types) = t.render :: renderParams false types := by
      cases types <;> cases t <;> rfl
    rw [hfirst, ih, renderAll]

/-- What holds of all types, also as that of a variadic parameter, holds of all parameters. -/
theorem forall_mem_renderParams {Q : String → Prop} {types : List SignatureType}
    (h : ∀ t ∈ types, Q t.render ∧ Q t.renderVariadic) (variadic : Bool) :
    ∀ s ∈ renderParams variadic types, Q s := by
  induction types with
  | nil => exact fun s hs => by cases variadic <;> cases hs
  | cons t types ih =>
    obtain ⟨ht, hrest⟩ := List.forall_mem_cons.mp h
    cases types with
    | nil =>
      cases variadic with
      | false => simpa [renderParams_false, renderAll] using ht.1
      | true => simpa [renderParams_singleton] using ht.2
    | cons t' types =>
      rw [renderParams_cons_cons]
      exact List.forall_mem_cons.mpr ⟨ht.1, ih hrest⟩

mutual

/-- The import paths of the named types in a type. -/
def paths : SignatureType → List String
  | .slice elem | .array _ elem | .pointer elem => elem.paths
  | .map key value => key.paths ++ value.paths
  | .func params results _ => pathsOfAll params ++ pathsOfAll results
  | .named _ path _ => if path.isEmpty then [] else [path]

def pathsOfAll : List SignatureType → List String
  | [] => []
  | t :: ts => t.paths ++ pathsOfAll ts

end

/-- Whether the type is written `error`. -/
def isError (t : SignatureType) : Bool := t.render == "error"

/-- Whether the type is `context.Context`, under whichever alias. -/
def isContext : SignatureType → Bool
  | .named _ path name => path == "context" && name == "Context"
  | _ => false

end SignatureType

end Interposer
