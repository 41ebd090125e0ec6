import Interposer.SignatureType

/-! Methods of a wrapped interface. Other than in the interface itself, every parameter and every
result has a name, so that the wrapper can refer to all of them. -/

namespace Interposer

structure Parameter where
  name : String
  type : SignatureType

structure Method where
  name : String
  params : List Parameter
  results : List Parameter
  /-- The last parameter, a slice, is written `...T`. -/
  variadic : Bool

namespace Method

/-- The last result, if it is an error. -/
def errorResult? (m : Method) : Option Parameter :=
  m.results.getLast?.filter (·.type.isError)

def contextParam? (m : Method) : Option Parameter :=
  m.params.find? (·.type.isContext)

/-- Parameters, then results. -/
def vars (m : Method) : List Parameter := m.params ++ m.results

def variableNames (m : Method) : List String := m.vars.map (·.name)

theorem mem_vars_of_errorResult? {m : Method} {err : Parameter} (h : m.errorResult? = some err) :
    err ∈ m.vars := by
  obtain ⟨hlast, -⟩ := Option.filter_eq_some_iff.mp h
  exact List.mem_append_right _ (List.mem_of_getLast? hlast)

end Method

end Interposer
