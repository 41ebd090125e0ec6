import Interposer.Wrapper

/-! Generating wrappers for an interface: its imports and methods are settled once, and then any
number of files can be written. -/

namespace Interposer

structure Generator where
  imports : ImportTable
  hooks : List Hook
  interface : Interface

namespace Generator

/-- Finds the interface called `name`. The imports of the hooks are entered before its own and so
keep their default aliases. -/
def new (p : Package) (name : String) (hooks : List Hook) : Except Failure Generator :=
  match p.introspect name (ImportTable.empty.addAll (hooks.flatMap (·.imports))) with
  | .ok interface imports => .ok ⟨imports, hooks, interface⟩
  | .error failure _ => .error failure

def generate (g : Generator) (package typeName : String) : Except Failure String := do
  if !isIdentifier package then throw (.configuration (.packageName package))
  if !isIdentifier typeName then throw (.configuration (.typeName typeName))
  let file ← Wrapper.file package typeName g.interface g.hooks g.imports
  .ok file.render

end Generator

end Interposer
