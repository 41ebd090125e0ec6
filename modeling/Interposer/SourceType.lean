/-! Types as the source of a package has them, before it is known whether a wrapper can use them. -/

namespace Interposer

inductive Direction where
  | both
  | send
  | receive
  deriving DecidableEq, Repr, Inhabited

/-- Array lengths are below this; they are machine words. -/
def lengthBound : Nat := 0x10000000000000000

mutual

inductive SourceType where
  /-- A predeclared type. -/
  | basic (name : String)
  /-- A declared type of the package with the import path `package`, which is empty for
  predeclared types. -/
  | named (package name : String) (args : List SourceType)
  | pointer (elem : SourceType)
  | slice (elem : SourceType)
  | array (length : Nat) (elem : SourceType)
  | map (key value : SourceType)
  /-- In a variadic function `...T` is written as a parameter of type `[]T`. -/
  | func (params results : List Variable) (variadic : Bool)
  | interface (members : List Member)
  | struct (fields : List Variable)
  | chan (direction : Direction) (elem : SourceType)
  | typeParam (name : String)
  /-- Syntax that is known but has no description here, such as a union. -/
  | other (description : String)

/-- A parameter, result or field; its name may be empty. -/
inductive Variable where
  | mk (name : String) (type : SourceType)

inductive Member where
  | method (name : String) (params results : List Variable) (variadic : Bool)
  /-- An embedded interface or a constraint. -/
  | embedded (type : SourceType)

end

instance : Inhabited SourceType := ⟨.basic ""⟩

instance : Inhabited Variable := ⟨.mk "" default⟩

instance : Inhabited Member := ⟨.embedded default⟩

namespace Variable

def name : Variable → String
  | mk name _ => name

def type : Variable → SourceType
  | mk _ type => type

end Variable

namespace SourceType

/-- The kind of a type, for messages. -/
def describe : SourceType → String
  | basic .. => "a basic type"
  | named .. => "a named type"
  | pointer .. => "a pointer"
  | slice .. => "a slice"
  | array .. => "an array"
  | map .. => "a map"
  | func .. => "a function"
  | interface .. => "an interface"
  | struct .. => "a struct"
  | chan .. => "a channel"
  | typeParam .. => "a type parameter"
  | other .. => "an unsupported type"

end SourceType

/-- A method as an interface body declares it. -/
structure MethodSpec where
  name : String
  params : List Variable
  results : List Variable
  variadic : Bool

end Interposer
