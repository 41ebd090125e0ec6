import Interposer.SignatureType
import Interposer.ImportTable
import Interposer.Failure

/-! From types of a package to types of a wrapper's signatures. The packages of all named types on
the way are entered into the import table, also when the type turns out to have no place in a
signature further on. -/

namespace Interposer

/-- Computations that enter imports and may fail; what was entered stays entered. -/
abbrev Importing := EStateM Failure ImportTable

def importing (path : String) : Importing String := fun table =>
  let (name, table) := table.add path
  .ok name table

/-- The greatest array length in a signature. -/
def maxArrayLength : Nat := 0x7FFFFFFFFFFFFFFF

namespace SignatureType

mutual

def ofSource : SourceType → Importing SignatureType
  | .basic name => pure (.predeclared name)
  | .named package name args =>
    if args.isEmpty then do
      let qualifier ← importing package
      pure (.named qualifier package name)
    else throw (.unsupported (.instantiation name))
  | .pointer elem => do
    let elem ← ofSource elem
    pure (.pointer elem)
  | .slice elem => do
    let elem ← ofSource elem
    pure (.slice elem)
  | .array length elem =>
    if length ≤ maxArrayLength then do
      let elem ← ofSource elem
      pure (.array length elem)
    else throw (.unsupported (.arrayLength length))
  | .map key value => do
    let key ← ofSource key
    let value ← ofSource value
    pure (.map key value)
  | .func params results variadic => do
    let params ← ofVariables params
    let results ← ofVariables results
    pure (.func params results variadic)
  | .other description => throw (.unsupported (.unknownSyntax description))
  | t@(.interface _) | t@(.struct _) | t@(.chan ..) | t@(.typeParam _) =>
    throw (.unsupported (.inSignature t))

def ofVariables : List Variable → Importing (List SignatureType)
  | [] => pure []
  | .mk _ type :: rest => do
    let type ← ofSource type
    let types ← ofVariables rest
    pure (type :: types)

end

end SignatureType

end Interposer
