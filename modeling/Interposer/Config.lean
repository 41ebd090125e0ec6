import Interposer.Failure
import Interposer.Hook.Sentry
import Interposer.Identifier
import Interposer.Path

/-! Settings of a run, and what can be checked of them before anything is read. -/

namespace Interposer

/-- A hook as it is asked for in the settings. -/
inductive HookSetting where
  | sentry (options : Sentry.Options)
  deriving DecidableEq, Repr

namespace HookSetting

def kind : HookSetting → String
  | sentry _ => "sentry"

def hook : HookSetting → Hook
  | sentry options => Sentry.hook options

end HookSetting

structure Config where
  /-- The name of the interface to wrap. -/
  interface : Option String := none
  /-- A directory of source files, or a package description. -/
  package : Path := .ofText "."
  /-- The file to generate. -/
  output : Path := .ofText "dblog/wrapper.go"
  /-- The name of the wrapper. -/
  typeName : String := "Wrapper"
  /-- The package of the generated file; that of its directory's name unless it is set. -/
  packageName? : Option String := none
  /-- Whether the generated file is to be formatted, which is left to the one who asked for it. -/
  format : Bool := true
  hooks : List HookSetting := []
  deriving DecidableEq, Repr

namespace Config

def interfaceName (c : Config) : Except Misconfiguration String :=
  match c.interface with
  | none => .error .noInterfaceName
  | some name => if isIdentifier name then .ok name else .error (.interfaceName name)

def packageName (c : Config) : Except Misconfiguration String :=
  match c.packageName? <|> (c.output.parent?.bind Path.fileName?) with
  | none => .error (.noPackageName c.output.text)
  | some name => if isIdentifier name then .ok name else .error (.packageName name)

/-- The first of some kinds that stands among those before it. -/
def repeated? (before : List String) : List String → Option String
  | [] => none
  | kind :: rest => if before.contains kind then some kind else repeated? (kind :: before) rest

/-- Checks the settings, the names before the output and the hooks last: at most one of a kind may
be there. -/
def validate (c : Config) : Except Misconfiguration Unit := do
  let _ ← c.interfaceName
  if !isIdentifier c.typeName then throw (.typeName c.typeName)
  if (c.output.extension?.map String.toLower) ≠ some "go" then throw (.notGoFile c.output.text)
  let _ ← c.packageName
  match repeated? [] (c.hooks.map HookSetting.kind) with
  | some kind => throw (.repeatedHook kind)
  | none => .ok ()

def buildHooks (c : Config) : List Hook := c.hooks.map HookSetting.hook

end Config

end Interposer
