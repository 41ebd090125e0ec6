import Interposer.Config

/-! The arguments of a run: an interface, options with values and flags, each at most once. What is
given there goes before what a file of settings says. -/

namespace Interposer

/-- Options that take a value. -/
inductive ValueOption where
  | package
  | output
  | typeName
  | packageName
  | config
  | sentryCategory
  | sentrySpanOp
  deriving DecidableEq, Repr

namespace ValueOption

def all : List ValueOption :=
  [package, output, typeName, packageName, config, sentryCategory, sentrySpanOp]

def longName : ValueOption → String
  | package => "package"
  | output => "output"
  | typeName => "type"
  | packageName => "package-name"
  | config => "config"
  | sentryCategory => "sentry-category"
  | sentrySpanOp => "sentry-span-op"

def letter? : ValueOption → Option Char
  | package => some 'p'
  | output => some 'o'
  | typeName => some 't'
  | _ => none

/-- Whether the value is a path, which cannot be empty. -/
def isPath : ValueOption → Bool
  | package | output | config => true
  | _ => false

end ValueOption

inductive Flag where
  | noFormat
  | sentry
  | sentryNoArgs
  | sentryNoResults
  | sentryOnlyError
  | sentryNoPerf
  deriving DecidableEq, Repr

namespace Flag

def all : List Flag :=
  [noFormat, sentry, sentryNoArgs, sentryNoResults, sentryOnlyError, sentryNoPerf]

def longName : Flag → String
  | noFormat => "no-format"
  | sentry => "sentry"
  | sentryNoArgs => "sentry-no-args"
  | sentryNoResults => "sentry-no-results"
  | sentryOnlyError => "sentry-only-error"
  | sentryNoPerf => "sentry-no-perf"

end Flag

structure Arguments where
  interface : Option String := none
  values : List (ValueOption × String) := []
  flags : List Flag := []
  deriving DecidableEq, Repr

namespace Arguments

def value? (a : Arguments) (o : ValueOption) : Option String := a.values.lookup o

def path? (a : Arguments) (o : ValueOption) : Option Path := (a.value? o).map Path.ofText

def has (a : Arguments) (f : Flag) : Bool := a.flags.contains f

def sentryOptions (a : Arguments) : Sentry.Options :=
  let default : Sentry.Options := {}
  { category := (a.value? .sentryCategory).getD default.category
    noArgs := a.has .sentryNoArgs
    noResults := a.has .sentryNoResults
    onlyError := a.has .sentryOnlyError
    noPerf := a.has .sentryNoPerf
    spanOp := (a.value? .sentrySpanOp).getD default.spanOp }

def isSentry : HookSetting → Bool
  | .sentry _ => true

/-- The hooks of a run. The options of a hook count only if the arguments ask for the hook, which
then stands in the place of the same in the settings. -/
def hooks (a : Arguments) (settings : List HookSetting) : List HookSetting :=
  if a.has .sentry then settings.filter (!isSentry ·) ++ [.sentry a.sentryOptions] else settings

/-- Settings completed by the arguments. -/
def complete (a : Arguments) (c : Config) : Config :=
  { interface := a.interface <|> c.interface
    package := (a.path? .package).getD c.package
    output := (a.path? .output).getD c.output
    typeName := (a.value? .typeName).getD c.typeName
    packageName? := a.value? .packageName <|> c.packageName?
    format := c.format && !a.has .noFormat
    hooks := a.hooks c.hooks }

end Arguments

end Interposer
