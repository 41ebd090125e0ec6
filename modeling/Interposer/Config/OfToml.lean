import Interposer.Config
import Interposer.Toml.Parser

/-! Settings read from TOML. All of them may be left out, but none may be there that is not
known. -/

namespace Interposer

namespace Toml

/-- The value of a key, unless it is left out; the answer is `none` if it cannot be read. -/
def setting (read? : Toml → Option α) (default : α) (entries : List (String × Toml))
    (key : String) : Option α :=
  match entries.lookup key with
  | none => some default
  | some value => read? value

/-- The values of a list as entries, each with the key at its position; more values than keys are
too many. -/
def label : List String → List Toml → Option (List (String × Toml))
  | _, [] => some []
  | [], _ :: _ => none
  | key :: keys, value :: values => (label keys values).map ((key, value) :: ·)

end Toml

namespace Config

open Toml

def sentryKeys : List String :=
  ["category", "no_args", "no_results", "only_error", "no_perf", "span_op"]

def readSentryOptions (entries : List (String × Toml)) : Option Sentry.Options := do
  if !entries.all (sentryKeys.contains ·.1) then none
  let default : Sentry.Options := {}
  let category ← setting asString? default.category entries "category"
  let noArgs ← setting asBool? default.noArgs entries "no_args"
  let noResults ← setting asBool? default.noResults entries "no_results"
  let onlyError ← setting asBool? default.onlyError entries "only_error"
  let noPerf ← setting asBool? default.noPerf entries "no_perf"
  let spanOp ← setting asString? default.spanOp entries "span_op"
  some { category, noArgs, noResults, onlyError, noPerf, spanOp }

/-- The kind of a hook and its options: a table with a kind, or a list of the kind and then options
in order. -/
def splitKind : Toml → Option (String × List (String × Toml))
  | .table entries => do
    let kind ← (← entries.lookup "kind").asString?
    some (kind, entries.filter (·.1 != "kind"))
  | .array (kind :: options) => do
    let kind ← kind.asString?
    some (kind, ← label sentryKeys options)
  | _ => none

def readHook (value : Toml) : Option HookSetting := do
  let (kind, options) ← splitKind value
  if kind = "sentry" then (readSentryOptions options).map .sentry else none

def keys : List String :=
  ["interface", "package", "output", "type_name", "package_name", "format", "hooks"]

def asPath? (value : Toml) : Option Path := value.asString?.map Path.ofText

def readEntries (entries : List (String × Toml)) : Option Config := do
  if !entries.all (keys.contains ·.1) then none
  let default : Config := {}
  let interface ← setting (·.asString?.map some) default.interface entries "interface"
  let package ← setting asPath? default.package entries "package"
  let output ← setting asPath? default.output entries "output"
  let typeName ← setting asString? default.typeName entries "type_name"
  let packageName? ← setting (·.asString?.map some) default.packageName? entries "package_name"
  let format ← setting asBool? default.format entries "format"
  let hooks ← setting (asList? readHook) default.hooks entries "hooks"
  some { interface, package, output, typeName, packageName?, format, hooks }

/-- The settings in a text that stands at a location. -/
def ofToml (location text : String) : Except Misconfiguration Config :=
  match (Toml.parse? text).bind readEntries with
  | some config => .ok config
  | none => .error (.unreadable location)

end Config

end Interposer
