import Interposer.Package

/-! The reasons for which a run stops, and what is said about each. -/

namespace Interposer

/-- Settings that cannot be used. -/
inductive Misconfiguration where
  | unreadable (location : String)
  | noInterfaceName
  | interfaceName (name : String)
  | typeName (name : String)
  | packageName (name : String)
  | noPackageName (output : String)
  | notGoFile (output : String)
  | repeatedHook (kind : String)
  deriving DecidableEq, Repr

/-- Reasons for which no package can be loaded from a location. -/
inductive LoadFailure where
  | invalidDescription
  | syntaxError (line : Nat)
  | noGoFiles
  | noModule
  | noModuleDirective
  | mixedPackages (first second : String)
  deriving DecidableEq, Repr

/-- What a wrapped interface cannot contain. -/
inductive Unsupported where
  | instantiation (name : String)
  | arrayLength (length : Nat)
  | unknownSyntax (description : String)
  | inSignature (type : SourceType)
  | genericInterface (name : String)
  | embedding (type : SourceType)
  | embeddingDepth

/-- What a name stands for when it does not stand for a type. -/
inductive NotNamed where
  | aliasOf (target : SourceType)
  | aliasCycle
  | declaration (d : Declaration)

inductive FileAction where
  | read
  | readDirectory
  | resolve
  | createDirectory
  | write
  deriving DecidableEq, Repr

inductive FileFailure where
  | notFound
  | alreadyExists
  | notDirectory
  | isDirectory
  | notText
  /-- Anything else that the machine says. -/
  | unusable (reason : String)
  deriving DecidableEq, Repr

inductive Failure where
  | configuration (why : Misconfiguration)
  | load (location : String) (why : LoadFailure)
  | notFound (name package : String)
  | notNamed (name : String) (found : NotNamed)
  | notInterface (name : String) (found : SourceType)
  | unsupported (what : Unsupported)
  /-- A hook cannot be used on a method. -/
  | precondition (hook method reason : String)
  | file (action : FileAction) (path : String) (why : FileFailure)

def Misconfiguration.message : Misconfiguration → String
  | unreadable location => "failed to parse '" ++ location ++ "'"
  | noInterfaceName => "no interface name given"
  | interfaceName name => "'" ++ name ++ "' is not a valid interface name"
  | typeName name => "'" ++ name ++ "' is not a valid type name"
  | packageName name => "'" ++ name ++ "' is not a valid package name"
  | noPackageName output =>
    "cannot derive a package name from '" ++ output ++ "', set one explicitly"
  | notGoFile output => "output '" ++ output ++ "' is not a .go file"
  | repeatedHook kind => "hook '" ++ kind ++ "' is configured more than once"

def LoadFailure.message : LoadFailure → String
  | invalidDescription => "invalid package description"
  | syntaxError line => "syntax error near line " ++ toString line
  | noGoFiles => "directory contains no Go files"
  | noModule => "no go.mod found in this directory or any parent"
  | noModuleDirective => "go.mod has no module directive"
  | mixedPackages first second =>
    "found packages " ++ first ++ " and " ++ second ++ " in the same directory"

/-- An embedded type in a message: by its name where it has one. -/
def SourceType.describeEmbedded : SourceType → String
  | .named package name _ => package ++ "." ++ name
  | .other description => description
  | t => t.describe

def Unsupported.message : Unsupported → String
  | instantiation name => "instantiated generic type " ++ name
  | arrayLength length => "array length " ++ toString length ++ " is out of range"
  | unknownSyntax description => "unsupported syntax " ++ description
  | inSignature type => type.describe ++ " cannot be used in a wrapped method signature"
  | genericInterface name => "generic interface " ++ name
  | embedding type => "embedding " ++ type.describeEmbedded ++ " in the wrapped interface"
  | embeddingDepth => "interface embeddings nest too deep"

def NotNamed.message : NotNamed → String
  | aliasOf target => "an alias of " ++ target.describe
  | aliasCycle => "an alias cycle"
  | declaration d => d.describe

def FileAction.message : FileAction → String
  | read => "read"
  | readDirectory => "read directory"
  | resolve => "resolve"
  | createDirectory => "create directory"
  | write => "write"

def FileFailure.message : FileFailure → String
  | notFound => "No such file or directory (os error 2)"
  | alreadyExists => "File exists (os error 17)"
  | notDirectory => "Not a directory (os error 20)"
  | isDirectory => "Is a directory (os error 21)"
  | notText => "stream did not contain valid UTF-8"
  | unusable reason => reason

def Failure.message : Failure → String
  | configuration why => "invalid configuration: " ++ why.message
  | load location why => "failed to load package from '" ++ location ++ "': " ++ why.message
  | notFound name package => "found no type named " ++ name ++ " in '" ++ package ++ "'"
  | notNamed name found =>
    "expected " ++ name ++ " to be a named type, but it is " ++ found.message
  | notInterface name found =>
    "expected " ++ name ++ " to be an interface, but it is " ++ found.describe
  | unsupported what => "unsupported type: " ++ what.message
  | precondition hook method reason => hook ++ ": method " ++ method ++ ": " ++ reason
  | file action path why =>
    "failed to " ++ action.message ++ " '" ++ path ++ "': " ++ why.message

end Interposer
