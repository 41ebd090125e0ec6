import Interposer.Interface.MethodSet
import Interposer.Interface.Naming

/-! Interfaces to be wrapped, found in a package by their name. -/

namespace Interposer

structure Interface where
  /-- How the wrapper refers to the interface. -/
  type : SignatureType
  methods : List Method

def methodsOfSpecs : List MethodSpec → Importing (List Method)
  | [] => pure []
  | spec :: rest => do
    let m ← Method.ofSpec spec
    let methods ← methodsOfSpecs rest
    pure (m :: methods)

/-- Finds the interface called `name` and converts its methods. The package of the interface and
those of all types in its signatures are imported; parameters are renamed last, when all
aliases are known. -/
def Package.introspect (p : Package) (name : String) : Importing Interface := do
  let members ← ofExcept (p.resolve name)
  let qualifier ← importing p.path
  let specs ← ofExcept (p.methodSet members)
  let methods ← methodsOfSpecs specs
  let table ← get
  pure ⟨.named qualifier p.path name, methods.map (·.avoidAliases table)⟩

end Interposer
