import Interposer.Arguments.Parser
import Interposer.Config.OfToml
import Interposer.Generator
import Interposer.Package.Load

/-! A run from its command line to the generated file. Everything is settled before the file is
written: only making its directory or writing it can fail after that. -/

namespace Interposer

/-- How a run ends. -/
inductive Report where
  | generated (output : Path)
  | failed (why : Failure)
  | misused (why : Misuse)
  | help
  | version

namespace Report

def exitCode : Report → Nat
  | failed _ => 1
  | misused _ => 2
  | _ => 0

/-- What is printed where a file is generated. The texts of the command line about itself (its help,
its version, how it is misused) are left out. -/
def output : Report → String
  | generated output => "generated " ++ output.text
  | _ => ""

/-- What is printed about a failure. -/
def errorOutput : Report → String
  | failed why => why.message
  | _ => ""

end Report

namespace Run

open FileSystem

variable {m : Type → Type} [Monad m] [FileSystem m]

/-- Something found in the settings, or what is wrong with them. -/
def checked (result : Except Misconfiguration α) : Except Failure α :=
  result.mapError .configuration

/-- The settings in a file. -/
def readConfig (path : Path) : ExceptT Failure m Config := do
  checked (Config.ofToml path.text (← read path))

/-- The settings of a run: those of the file that the arguments name, if any, completed by them. -/
def settle (arguments : Arguments) : ExceptT Failure m Config := do
  match arguments.path? .config with
  | none => return arguments.complete {}
  | some path => return arguments.complete (← readConfig path)

/-- The text of the file that a run generates. -/
def compose (config : Config) : ExceptT Failure m String := do
  checked config.validate
  let interface ← checked config.interfaceName
  let packageName ← checked config.packageName
  let package ← Package.load config.package
  let generator ← Generator.new package interface config.buildHooks
  generator.generate packageName config.typeName

/-- Generates the file and answers where it is. -/
def generate (arguments : Arguments) : ExceptT Failure m Path := do
  let config ← settle arguments
  save config.output (← compose config)
  return config.output

end Run

/-- A run with the arguments of a command line, the program's name left out. -/
def run {m : Type → Type} [Monad m] [FileSystem m] (arguments : List String) : m Report := do
  match Request.ofCommandLine arguments with
  | .error why => return .misused why
  | .ok .help => return .help
  | .ok .version => return .version
  | .ok (.generate arguments) =>
    match ← (Run.generate arguments).run with
    | .ok output => return .generated output
    | .error why => return .failed why

end Interposer
